import MediaSplit.ProgramStream.GatherBuffer

/-!
Contract: the packets that a gather buffer makes of payloads.

Owns:
- `GatherBuffer.Piece`, a payload with its stamps, and `GatherBuffer.holding`, the
  buffer in which some pieces lie;
- `GatherBuffer.answers`, what a buffer gives to request after request;
- `GatherBuffer.SendsInGroups`, which holds of all these answers: the packets are
  the pieces in groups, none of which exceeds the capacity but for single pieces,
  and a group that a piece sends off had no room for it.

Every buffer that requests lead to holds some pieces and nothing else, so one
request is an equation between two buffers of this form.
-/

set_option autoImplicit false

namespace MediaSplit.ProgramStream.GatherBuffer

/-- A payload with its stamps. -/
structure Piece where
  payload : Bytes
  timecode : Option Int
  /-- Where the packet of the payload starts. -/
  position : Nat
  nonempty : payload ≠ []
  deriving DecidableEq, Repr

/-- The bytes of some pieces, one behind the other. -/
def bytesOf (pieces : List Piece) : Bytes := pieces.flatMap (·.payload)

/-- The packet of some pieces, which has the stamps of the first. -/
def joined (track : Nat) (pieces : List Piece) : Packet :=
  { Packet.ofPayload (bytesOf pieces) with
    track := track
    timecode := pieces.head?.bind (·.timecode)
    position := pieces.head?.map (·.position) }

/-- The buffer in which some pieces lie. -/
def holding (track capacity : Nat) (pieces : List Piece) : GatherBuffer :=
  { track := track
    capacity := capacity
    data := (bytesOf pieces).toArray
    timecode := pieces.head?.bind (·.timecode)
    position := pieces.head?.map (·.position) }

/-- One request to a buffer. -/
inductive Request where
  | push (piece : Piece)
  | take
  deriving DecidableEq, Repr

/-- The piece that a request brings. -/
def Request.piece? : Request → Option Piece
  | .push piece => some piece
  | .take => none

/-- The pieces that requests bring, in order. -/
def piecesOf (requests : List Request) : List Piece := requests.filterMap Request.piece?

/-- What a buffer gives to one request. -/
def answer (buffer : GatherBuffer) : Request → List Packet × GatherBuffer
  | .push piece => buffer.push piece.payload piece.timecode piece.position
  | .take => buffer.take.map Option.toList id

/-- What a buffer gives to request after request, and the buffer behind them. -/
def answers : GatherBuffer → List Request → List (List Packet) × GatherBuffer
  | buffer, [] => ([], buffer)
  | buffer, request :: rest =>
      let (ready, next) := buffer.answer request
      let (more, last) := next.answers rest
      (ready :: more, last)

/-- Whether pieces make a packet: they fit, or there is only one that does not
fit by itself. -/
structure IsGroup (capacity : Nat) (group : List Piece) : Prop where
  nonempty : group ≠ []
  fits_or_single : (bytesOf group).length ≤ capacity
    ∨ ∃ piece, group = [piece] ∧ capacity < piece.payload.length

/-- What a buffer makes of the pieces of some requests. -/
structure SendsInGroups (track capacity : Nat) (requests : List Request) : Prop where
  /-- The buffer never holds more than it may. -/
  size_le : ∀ count, ((empty track capacity).answers (requests.take count)).2.size ≤ capacity
  /-- All pieces are sent in groups, in order, but for those that still lie in
  the buffer. -/
  exists_groups : ∃ (groups : List (List Piece)) (pending : List Piece),
    piecesOf requests = groups.flatten ++ pending
      ∧ ((empty track capacity).answers requests).1.flatten = groups.map (joined track)
      ∧ ((empty track capacity).answers requests).2 = holding track capacity pending
      ∧ ∀ group ∈ groups, IsGroup capacity group
  /-- What is sent in front of a piece had no room for it. -/
  lacksRoom : ∀ before piece behind, requests = before ++ .push piece :: behind →
    ∃ ready : Option Packet,
      ((empty track capacity).answers requests).1[before.length]?
          = some (ready.toList
              ++ if capacity < piece.payload.length then [joined track [piece]] else [])
        ∧ ∀ packet ∈ ready, capacity < packet.size + piece.payload.length

variable {track capacity : Nat} {pieces : List Piece}

/-! ## Buffers with pieces in them -/

theorem bytesOf_append (front back : List Piece) :
    bytesOf (front ++ back) = bytesOf front ++ bytesOf back :=
  List.flatMap_append

theorem bytesOf_singleton (piece : Piece) : bytesOf [piece] = piece.payload :=
  List.flatMap_singleton _ _

theorem bytesOf_eq_nil_iff : bytesOf pieces = [] ↔ pieces = [] := by
  constructor
  · intro nothing
    rw [List.eq_nil_iff_forall_not_mem]
    intro piece member
    exact piece.nonempty (List.flatMap_eq_nil_iff.1 nothing piece member)
  · rintro rfl
    rfl

theorem size_holding : (holding track capacity pieces).size = (bytesOf pieces).length := rfl

theorem capacity_holding : (holding track capacity pieces).capacity = capacity := rfl

theorem track_holding : (holding track capacity pieces).track = track := rfl

theorem size_holding_eq_zero_iff : (holding track capacity pieces).size = 0 ↔ pieces = [] := by
  rw [size_holding, List.length_eq_zero_iff, bytesOf_eq_nil_iff]

/-- The group that some pieces are when they are all that is left. -/
def group? (pieces : List Piece) : Option (List Piece) :=
  if pieces = [] then none else some pieces

theorem flatten_toList_group? : (group? pieces).toList.flatten = pieces := by
  unfold group?
  split
  next nothing => exact nothing.symm
  next => exact List.flatten_singleton

theorem isGroup_of_mem_group?
    {group : List Piece}
    (fits : (bytesOf pieces).length ≤ capacity)
    (member : group ∈ group? pieces) :
    IsGroup capacity group := by
  unfold group? at member
  split at member
  next => cases member
  next something =>
    obtain rfl := Option.mem_some_iff.1 member
    exact ⟨something, .inl fits⟩

theorem take_holding :
    (holding track capacity pieces).take
      = ((group? pieces).map (joined track), holding track capacity []) := by
  unfold take group?
  by_cases nothing : pieces = []
  · rw [if_pos (size_holding_eq_zero_iff.2 nothing), if_pos nothing, nothing]
    rfl
  · rw [if_neg (mt size_holding_eq_zero_iff.1 nothing), if_neg nothing]
    rfl

theorem add_holding (piece : Piece) :
    (holding track capacity pieces).add piece.payload piece.timecode piece.position
      = holding track capacity (pieces ++ [piece]) := by
  unfold add
  cases pieces with
  | nil =>
      rw [if_pos (size_holding_eq_zero_iff.2 rfl), List.nil_append]
      unfold holding
      rw [bytesOf_singleton]
      rfl
  | cons first rest =>
      rw [if_neg (mt size_holding_eq_zero_iff.1 (List.cons_ne_nil _ _))]
      unfold holding
      rw [bytesOf_append, bytesOf_singleton]
      simp

section Push

variable {piece : Piece}

theorem alone_eq (track : Nat) (piece : Piece) :
    { Packet.ofPayload piece.payload with
      track := track, timecode := piece.timecode, position := some piece.position }
        = joined track [piece] := by
  unfold joined
  rw [bytesOf_singleton]
  rfl

/-- A piece with room behind the others makes nothing ready. -/
theorem push_of_room (room : (bytesOf pieces).length + piece.payload.length ≤ capacity) :
    (holding track capacity pieces).push piece.payload piece.timecode piece.position
      = ([], holding track capacity (pieces ++ [piece])) := by
  have noOverflow : ¬ capacity < (bytesOf pieces).length + piece.payload.length := by omega
  have own : ¬ capacity < piece.payload.length := by omega
  simp only [push, size_holding, capacity_holding, noOverflow, own, ↓reduceIte, add_holding,
    Option.toList_none]

/-- A piece without room takes the place of those that lie in the buffer. -/
theorem push_of_no_room
    (noRoom : capacity < (bytesOf pieces).length + piece.payload.length)
    (fits : piece.payload.length ≤ capacity) :
    (holding track capacity pieces).push piece.payload piece.timecode piece.position
      = ((group? pieces).toList.map (joined track), holding track capacity [piece]) := by
  have own : ¬ capacity < piece.payload.length := by omega
  simp only [push, size_holding, capacity_holding, noRoom, own, ↓reduceIte, take_holding,
    add_holding, List.nil_append, Option.toList_map]

/-- A piece that does not fit by itself goes off behind those that lie in the
buffer. -/
theorem push_of_oversized (oversized : capacity < piece.payload.length) :
    (holding track capacity pieces).push piece.payload piece.timecode piece.position
      = (((group? pieces).toList ++ [[piece]]).map (joined track), holding track capacity []) := by
  have noRoom : capacity < (bytesOf pieces).length + piece.payload.length := by omega
  simp only [push, size_holding, capacity_holding, track_holding, noRoom, oversized, ↓reduceIte,
    take_holding, alone_eq, Option.toList_map, List.map_append, List.map_singleton]

end Push

/-! ## One request -/

/-- What one request makes of the pieces in a buffer: some groups are sent, and
`left` is what lies in the buffer behind them. -/
structure Sends (track capacity : Nat) (pieces : List Piece) (request : Request)
    (groups : List (List Piece)) (left : List Piece) : Prop where
  pieces_eq : pieces ++ request.piece?.toList = groups.flatten ++ left
  answer_eq : (holding track capacity pieces).answer request
    = (groups.map (joined track), holding track capacity left)
  fits : (bytesOf left).length ≤ capacity
  isGroup : ∀ group ∈ groups, IsGroup capacity group

theorem exists_sends
    (track : Nat)
    (fits : (bytesOf pieces).length ≤ capacity)
    (request : Request) :
    ∃ groups left, Sends track capacity pieces request groups left := by
  have isGroup : ∀ group ∈ (group? pieces).toList, IsGroup capacity group := fun group member =>
    isGroup_of_mem_group? fits (Option.mem_toList.1 member)
  cases request with
  | take =>
      refine ⟨(group? pieces).toList, [], ?_, ?_, Nat.zero_le _, isGroup⟩
      · rw [flatten_toList_group?]
        rfl
      · rw [answer, take_holding, ← Option.toList_map]
        rfl
  | push piece =>
      by_cases room : (bytesOf pieces).length + piece.payload.length ≤ capacity
      · refine ⟨[], pieces ++ [piece], rfl, push_of_room room, ?_, nofun⟩
        rw [bytesOf_append, bytesOf_singleton, List.length_append]
        exact room
      · have noRoom := Nat.lt_of_not_le room
        by_cases own : piece.payload.length ≤ capacity
        · refine ⟨(group? pieces).toList, [piece], ?_, push_of_no_room noRoom own, ?_, isGroup⟩
          · rw [flatten_toList_group?]
            rfl
          · rw [bytesOf_singleton]
            exact own
        · have oversized := Nat.lt_of_not_le own
          refine ⟨(group? pieces).toList ++ [[piece]], [], ?_, push_of_oversized oversized,
            Nat.zero_le _, ?_⟩
          · rw [List.flatten_append, flatten_toList_group?, List.append_nil]
            rfl
          · intro group member
            rcases List.mem_append.1 member with before | last
            · exact isGroup group before
            · obtain rfl := List.mem_singleton.1 last
              exact ⟨List.cons_ne_nil _ _, .inr ⟨piece, rfl, oversized⟩⟩

/-- What a piece sends off had no room for it. -/
theorem exists_ready_of_push (track capacity : Nat) (pieces : List Piece) (piece : Piece) :
    ∃ ready : Option Packet,
      ((holding track capacity pieces).answer (.push piece)).1
          = ready.toList ++ (if capacity < piece.payload.length then [joined track [piece]] else [])
        ∧ ∀ packet ∈ ready, capacity < packet.size + piece.payload.length := by
  by_cases room : (bytesOf pieces).length + piece.payload.length ≤ capacity
  · refine ⟨none, ?_, nofun⟩
    rw [answer, push_of_room room, if_neg (by omega)]
    rfl
  · have noRoom := Nat.lt_of_not_le room
    refine ⟨(group? pieces).map (joined track), ?_, ?_⟩
    · rw [answer, Option.toList_map]
      split
      next oversized => rw [push_of_oversized oversized, List.map_append]; rfl
      next fits => rw [push_of_no_room noRoom (Nat.le_of_not_lt fits), List.append_nil]
    · intro packet member
      obtain ⟨group, isAll, rfl⟩ := Option.map_eq_some_iff.1 member
      unfold group? at isAll
      split at isAll
      next => cases isAll
      next =>
        cases isAll
        exact noRoom

/-! ## Request after request -/

theorem length_answers (buffer : GatherBuffer) (requests : List Request) :
    (buffer.answers requests).1.length = requests.length := by
  induction requests generalizing buffer with
  | nil => rfl
  | cons request rest inductionHypothesis => exact congrArg (· + 1) (inductionHypothesis _)

theorem answers_cons (buffer : GatherBuffer) (request : Request) (rest : List Request) :
    buffer.answers (request :: rest)
      = ((buffer.answer request).1 :: ((buffer.answer request).2.answers rest).1,
          ((buffer.answer request).2.answers rest).2) := rfl

theorem answers_append (buffer : GatherBuffer) (before behind : List Request) :
    buffer.answers (before ++ behind)
      = ((buffer.answers before).1 ++ ((buffer.answers before).2.answers behind).1,
          ((buffer.answers before).2.answers behind).2) := by
  induction before generalizing buffer with
  | nil => rfl
  | cons request rest inductionHypothesis =>
      rw [List.cons_append, answers_cons, answers_cons, inductionHypothesis]
      rfl

/-- What requests make of the pieces in a buffer. -/
theorem exists_groups_of_holding
    (track : Nat)
    (fits : (bytesOf pieces).length ≤ capacity)
    (requests : List Request) :
    ∃ (groups : List (List Piece)) (pending : List Piece),
      pieces ++ piecesOf requests = groups.flatten ++ pending
        ∧ ((holding track capacity pieces).answers requests).1.flatten
          = groups.map (joined track)
        ∧ ((holding track capacity pieces).answers requests).2 = holding track capacity pending
        ∧ (bytesOf pending).length ≤ capacity
        ∧ ∀ group ∈ groups, IsGroup capacity group := by
  induction requests generalizing pieces with
  | nil => exact ⟨[], pieces, List.append_nil _, rfl, rfl, fits, nofun⟩
  | cons request rest inductionHypothesis =>
      obtain ⟨first, left, sends⟩ := exists_sends track fits request
      obtain ⟨more, pending, pieces_eq, packets_eq, buffer_eq, pendingFits, areGroups⟩ :=
        inductionHypothesis sends.fits
      have brought : piecesOf (request :: rest) = request.piece?.toList ++ piecesOf rest := by
        unfold piecesOf
        rw [List.filterMap_cons]
        cases request.piece? <;> rfl
      refine ⟨first ++ more, pending, ?_, ?_, ?_, pendingFits, ?_⟩
      · rw [brought, ← List.append_assoc, sends.pieces_eq, List.append_assoc, pieces_eq,
          List.flatten_append, List.append_assoc]
      · rw [answers_cons, sends.answer_eq, List.map_append, ← packets_eq]
        rfl
      · rw [answers_cons, sends.answer_eq]
        exact buffer_eq
      · intro group member
        rcases List.mem_append.1 member with isFirst | later
        · exact sends.isGroup group isFirst
        · exact areGroups group later

/-- From the start on, a buffer of any capacity sends the pieces in groups. -/
theorem sendsInGroups_answers (track capacity : Nat) (requests : List Request) :
    SendsInGroups track capacity requests := by
  have nothing : (bytesOf []).length ≤ capacity := Nat.zero_le _
  constructor
  case size_le =>
    intro count
    obtain ⟨_, pending, _, _, buffer_eq, fits, _⟩ :=
      exists_groups_of_holding track nothing (requests.take count)
    show ((holding track capacity []).answers _).2.size ≤ capacity
    rw [buffer_eq]
    exact fits
  case exists_groups =>
    obtain ⟨groups, pending, pieces_eq, packets_eq, buffer_eq, _, areGroups⟩ :=
      exists_groups_of_holding track nothing requests
    exact ⟨groups, pending, pieces_eq, packets_eq, buffer_eq, areGroups⟩
  case lacksRoom =>
    rintro before piece behind rfl
    obtain ⟨_, pending, _, _, buffer_eq, _, _⟩ := exists_groups_of_holding track nothing before
    obtain ⟨ready, ready_eq, noRoom⟩ := exists_ready_of_push track capacity pending piece
    refine ⟨ready, ?_, noRoom⟩
    show ((holding track capacity []).answers _).1[before.length]? = _
    rw [answers_append, ← length_answers (holding track capacity []) before,
      List.getElem?_append_right (Nat.le_refl _), Nat.sub_self, buffer_eq, answers_cons, ← ready_eq]
    rfl

end MediaSplit.ProgramStream.GatherBuffer

import MediaSplit.Video.Units

/-!
Contract: a search for headers does not depend on where its stream is cut.

Owns:
- what seeking, splitting and cutting a unit off have to say about bytes that
  go on behind the ones at hand;
- `Search.resume`, how a search goes on, and `through_append`: going through
  some bytes and then resuming is going through all of them;
- `Search.Agrees`, searches that have come to the same, and `agrees_foldl_push`: a
  stream in pieces and the whole stream come to the same.

Does **not** own: any one format. All this holds for whatever rules there are.

A start code may be cut anywhere. What a search keeps therefore begins with the
last start code it knows, or with the last two bytes, and a unit that is not
closed yet is looked at again from its start.
-/

set_option autoImplicit false

namespace MediaSplit.Units

variable {front unit rest : Bytes}

/-! ## Bytes that go on -/

theorem seek_startCode (rest : Bytes) : seek (0 :: 0 :: 1 :: rest) = 0 :: 0 :: 1 :: rest := by
  rw [seek]

theorem seek_append (front back : Bytes) : seek (front ++ back) = seek (seek front ++ back) := by
  fun_induction seek front with
  | case1 => rfl
  | case2 first second third rest noCode inductionHypothesis =>
      rw [← inductionHypothesis, List.cons_append, List.cons_append, List.cons_append]
      exact seek.eq_2 _ _ _ _ fun isFirst isSecond isThird => noCode isFirst isSecond isThird
  | case3 => rfl

/-- A start code stays the first one. -/
theorem seek_append_of_startCode
    (back : Bytes)
    (sought : seek front = 0 :: 0 :: 1 :: rest) :
    seek (front ++ back) = 0 :: 0 :: 1 :: (rest ++ back) := by
  rw [seek_append, sought]
  exact seek_startCode _

theorem splitOnto?_append
    {before : Bytes}
    (back : Bytes)
    (found : splitOnto? before front = some (unit, rest)) :
    splitOnto? before (front ++ back) = some (unit, rest ++ back) := by
  fun_induction splitOnto? before front with
  | case1 =>
      cases found
      rfl
  | case2 before first more noCode inductionHypothesis =>
      -- fewer than two more bytes could be the start of a code that `back` completes, but they
      -- do not hold one themselves
      rcases more with _ | ⟨second, _ | ⟨third, more⟩⟩
      · cases found
      · simp [splitOnto?] at found
      · rw [← inductionHypothesis found]
        exact splitOnto?.eq_2 _ _ _ fun tail isFirst isMore => by
          cases isMore
          exact noCode more isFirst rfl
  | case3 => cases found

/-- A unit that is closed stays as it is. -/
theorem Rules.cut?_append
    {σ : Type}
    {rules : Rules σ}
    {type : UInt8}
    (back : Bytes)
    (found : rules.cut? type front = some (unit, rest)) :
    rules.cut? type (front ++ back) = some (unit, rest ++ back) := by
  unfold cut? at found ⊢
  split at found
  next mayBegin =>
    rw [if_pos mayBegin]
    exact splitOnto?_append back found
  next mayNot =>
    obtain ⟨⟨body, behind⟩, cut, same⟩ := Option.map_eq_some_iff.1 found
    obtain ⟨rfl, rfl⟩ := Prod.mk.inj same
    have whole : split? (front ++ back) = some (body, behind ++ back) :=
      splitOnto?_append back cut
    rw [if_neg mayNot, whole]
    rfl

namespace Search

variable {σ : Type} (rules : Rules σ)

/-! ## Going through bytes -/

/-- Going through bytes, told by the unit that comes first. -/
theorem through_of_type
    {bytes rest : Bytes}
    {type : UInt8}
    (found : σ)
    (sought : seek bytes = 0 :: 0 :: 1 :: type :: rest) :
    through rules found bytes
      = if rules.endsAt found type then ⟨found, 0 :: 0 :: 1 :: type :: rest, true⟩
        else
          match rules.cut? type rest with
          | none => ⟨found, 0 :: 0 :: 1 :: type :: rest, false⟩
          | some (unit, behind) =>
              if rules.isEnough (rules.take found unit) then ⟨rules.take found unit, behind, true⟩
              else through rules (rules.take found unit) behind := by
  rw [through]
  split
  next type' rest' sought' =>
    rw [sought] at sought'
    cases sought'
    split
    next => rfl
    next =>
      split
      next cut => rw [cut]
      next unit behind cut => rw [cut]
  next noType => exact absurd sought (noType type rest)

theorem through_of_noType
    {bytes : Bytes}
    (found : σ)
    (noType : ∀ type rest, seek bytes ≠ 0 :: 0 :: 1 :: type :: rest) :
    through rules found bytes = ⟨found, seek bytes, false⟩ := by
  rw [through]
  split
  next type rest sought => exact absurd sought (noType type rest)
  next => rfl

theorem through_congr
    {bytes other : Bytes}
    (found : σ)
    (same : seek bytes = seek other) :
    through rules found bytes = through rules found other := by
  by_cases hasType : ∃ type rest, seek bytes = 0 :: 0 :: 1 :: type :: rest
  · obtain ⟨type, rest, sought⟩ := hasType
    rw [through_of_type rules found sought, through_of_type rules found (same ▸ sought)]
  · simp only [not_exists] at hasType
    rw [through_of_noType rules found hasType, through_of_noType rules found (same ▸ hasType),
      same]

/-- How a search goes on with the next piece. A search that is complete only
keeps it. -/
def resume (search : Search σ) (piece : Bytes) : Search σ :=
  if search.isComplete then { search with pending := search.pending ++ piece }
  else through rules search.found (search.pending ++ piece)

/-- Going through some bytes and then going on is going through all of them. -/
theorem through_append (found : σ) (front back : Bytes) :
    through rules found (front ++ back) = (through rules found front).resume rules back := by
  fun_induction through rules found front with
  | case1 found front type rest sought ends =>
      have longer : seek (front ++ back) = 0 :: 0 :: 1 :: type :: (rest ++ back) :=
        seek_append_of_startCode back sought
      rw [through_of_type rules found longer, if_pos ends]
      rfl
  | case2 found front type rest sought goesOn cut =>
      -- a unit that is still open is looked at once more, from its start code
      rw [through_congr rules found (seek_append front back), sought]
      rfl
  | case3 found front type rest sought goesOn unit behind cut taken enough =>
      have longer : seek (front ++ back) = 0 :: 0 :: 1 :: type :: (rest ++ back) :=
        seek_append_of_startCode back sought
      rw [through_of_type rules found longer, if_neg goesOn, Rules.cut?_append back cut]
      exact if_pos enough
  | case4 found front type rest sought goesOn unit behind cut taken more inductionHypothesis =>
      have longer : seek (front ++ back) = 0 :: 0 :: 1 :: type :: (rest ++ back) :=
        seek_append_of_startCode back sought
      rw [← inductionHypothesis, through_of_type rules found longer, if_neg goesOn,
        Rules.cut?_append back cut]
      exact if_neg more
  | case5 found front noType =>
      exact through_congr rules found (seek_append front back)

/-! ## Pieces -/

/-- Two searches that have come to the same. What lies behind the end of a
search does not matter. -/
structure Agrees (search other : Search σ) : Prop where
  found : search.found = other.found
  isComplete : search.isComplete = other.isComplete
  pending : search.isComplete = false → search.pending = other.pending

theorem Agrees.push
    {search other : Search σ}
    (agrees : search.Agrees other)
    (piece : Bytes) :
    (search.push rules piece).Agrees (other.resume rules piece) := by
  unfold Search.push resume
  rw [← agrees.isComplete]
  cases isComplete : search.isComplete with
  | true =>
      rw [if_pos rfl, if_pos rfl]
      exact ⟨agrees.found, isComplete, fun notComplete => by simp [isComplete] at notComplete⟩
  | false =>
      rw [agrees.found, agrees.pending isComplete]
      exact ⟨rfl, rfl, fun _ => rfl⟩

/-- A stream that arrives in pieces comes to the same as the whole stream. -/
theorem agrees_foldl_push (found : σ) (pieces : List Bytes) :
    (pieces.foldl (Search.push rules) (starting found)).Agrees
      ((starting found).push rules pieces.flatten) := by
  have onward : ∀ (pieces : List Bytes) (bytes : Bytes) (search : Search σ),
      search.Agrees (through rules found bytes) →
        (pieces.foldl (Search.push rules) search).Agrees
          (through rules found (bytes ++ pieces.flatten)) := by
    intro pieces
    induction pieces with
    | nil =>
        intro bytes search agrees
        rwa [List.flatten_nil, List.append_nil]
    | cons piece rest inductionHypothesis =>
        intro bytes search agrees
        rw [List.flatten_cons, ← List.append_assoc]
        apply inductionHypothesis
        rw [through_append]
        exact agrees.push rules piece
  have nothing : through rules found [] = starting found :=
    through_of_noType rules found fun _ _ sought => nomatch sought
  exact onward pieces [] _ (nothing ▸ ⟨rfl, rfl, fun _ => rfl⟩)

end Search

end MediaSplit.Units

import MediaSplit.Framing
import MediaSplit.Proofs.Bytes
import MediaSplit.Proofs.Reading
import Mathlib.Algebra.Order.Ring.Int

/-!
Contract: a frame assembler loses no byte and invents none.

Owns:
- `FrameAssembler.Call`, one request to an assembler, and `answers`, what a
  history of requests hands out;
- `FrameAssembler.Conserves`, where the bytes of a stream are once it has been
  pushed: in packets, dropped, or pending;
- `FrameAssembler.counting`, verdicts that count how often they are asked;
- that a pass which overflows nowhere is a pass of `cut`, and `StaysInReach`,
  the verdicts with which a pass overflows nowhere.

Nothing else is assumed about the verdicts. What a frame or a drop takes is
bounded by the assembler itself, so every step moves `base` over the bytes that
leave `pending`, and a pass of cutting asks no more often than bytes are pending.
-/

set_option autoImplicit false

namespace MediaSplit.FrameAssembler

/-! ## Histories -/

/-- A request to an assembler. Each pass of cutting brings verdicts of its own,
and the state they are in. -/
inductive Call : Type 1 where
  | push (chunk : Bytes)
  | frames {σ : Type} (scan : σ → Bytes → Scan × σ) (state : σ)
  | rest (track : Nat)

namespace Call

/-- The bytes that a request adds to the stream. -/
def pushed : Call → Bytes
  | push chunk => chunk
  | frames _ _ => []
  | rest _ => []

/-- The packets that a request is answered with, and the assembler behind it. -/
def answer (assembler : FrameAssembler) : Call → Except Fault (List Packet × FrameAssembler)
  | push chunk => .ok ([], assembler.push chunk)
  | frames scan state => do
      let (found, _, after) ← assembler.frames scan state
      return (found.toList, after)
  | rest track => do
      let (last, after) ← assembler.rest track
      return (last.toList, after)

end Call

/-- The packets of a history of requests, and the assembler behind it. A history
ends at the first overflow. -/
def answers : FrameAssembler → List Call → Except Fault (List Packet × FrameAssembler)
  | assembler, [] => .ok ([], assembler)
  | assembler, call :: later => do
      let (found, after) ← call.answer assembler
      let (more, last) ← after.answers later
      return (found ++ more, last)

/-- The stream that a history pushes. -/
def streamOf (calls : List Call) : Bytes := calls.flatMap Call.pushed

/-! ## Where the bytes are -/

/-- The packet holds the bytes, at least one, that stand at `position` in a
stream whose first byte stands at `offset`. -/
structure HoldsRange
    (offset : Nat)
    (stream : Bytes)
    (packet : Packet)
    (position : Nat) : Prop where
  isPosition : packet.position = some position
  nonempty : 0 < packet.size
  start_le : offset ≤ position
  le_end : position + packet.size ≤ offset + stream.length
  payload : packet.payload = stream.slice (position - offset) packet.size

/-- Every byte of the stream is in one of the packets found, was dropped, or is
pending. -/
structure Conserves
    (offset : Nat)
    (stream : Bytes)
    (found : List Packet)
    (assembler : FrameAssembler) : Prop where
  placed : ∀ packet ∈ found, ∃ position,
    HoldsRange offset stream packet position ∧ position + packet.size ≤ assembler.base
  ordered : found.Pairwise fun earlier later =>
    ∀ position ∈ earlier.position, ∀ next ∈ later.position, position + earlier.size ≤ next
  isSuffix : assembler.pending <:+ stream
  base : assembler.base + assembler.pending.length = offset + stream.length
  total : (found.map Packet.size).sum + assembler.skipped + assembler.pending.length
    = stream.length

section Steps

variable {offset : Nat} {stream : Bytes} {found : List Packet} {assembler : FrameAssembler}

theorem HoldsRange.append
    {packet : Packet}
    {position : Nat}
    (holds : HoldsRange offset stream packet position)
    (chunk : Bytes) :
    HoldsRange offset (stream ++ chunk) packet position := by
  have start := holds.start_le
  have inside := holds.le_end
  refine ⟨holds.isPosition, holds.nonempty, start, ?_, ?_⟩
  · rw [List.length_append]
    omega
  · rw [holds.payload, Bytes.slice_append chunk (by omega)]

theorem conserves_startingAt (offset : Nat) : Conserves offset [] [] (startingAt offset) where
  placed := by simp
  ordered := .nil
  isSuffix := List.suffix_refl _
  base := rfl
  total := rfl

theorem Conserves.push
    (conserves : Conserves offset stream found assembler)
    (chunk : Bytes) :
    Conserves offset (stream ++ chunk) found (assembler.push chunk) := by
  have base := conserves.base
  have total := conserves.total
  constructor
  · intro packet member
    obtain ⟨position, holds, before⟩ := conserves.placed packet member
    exact ⟨position, holds.append chunk, before⟩
  · exact conserves.ordered
  · obtain ⟨front, split⟩ := conserves.isSuffix
    exact ⟨front, by simp [FrameAssembler.push, ← split]⟩
  · simp only [FrameAssembler.push, List.length_append]
    omega
  · simp only [FrameAssembler.push, List.length_append]
    omega

theorem size_frameAhead
    {length : Nat}
    (duration : Option Int)
    (track : Nat)
    (fits : length ≤ assembler.pending.length) :
    (assembler.frameAhead length duration track).size = length := by
  simp [frameAhead, Packet.size, Packet.ofPayload, fits]

/-- The packet of the first pending bytes holds what stands at `base`. -/
theorem Conserves.holdsRange_frameAhead
    (conserves : Conserves offset stream found assembler)
    {length : Nat}
    (duration : Option Int)
    (track : Nat)
    (positive : 0 < length)
    (fits : length ≤ assembler.pending.length) :
    HoldsRange offset stream (assembler.frameAhead length duration track) assembler.base := by
  have base := conserves.base
  have short := conserves.isSuffix.length_le
  have size := size_frameAhead duration track fits
  have pending : stream.drop (assembler.base - offset) = assembler.pending := by
    rw [List.suffix_iff_eq_drop.1 conserves.isSuffix]
    congr 1
    omega
  constructor
  · rfl
  · omega
  · omega
  · omega
  · rw [size, Bytes.slice, pending]
    rfl

theorem Conserves.behindFrame
    (conserves : Conserves offset stream found assembler)
    {length : Nat}
    (duration : Option Int)
    (track : Nat)
    (positive : 0 < length)
    (fits : length ≤ assembler.pending.length) :
    Conserves offset stream (found ++ [assembler.frameAhead length duration track])
      (assembler.behindFrame length) := by
  have base := conserves.base
  have total := conserves.total
  have holds := conserves.holdsRange_frameAhead duration track positive fits
  have size := size_frameAhead duration track fits
  constructor
  · intro packet member
    rcases List.mem_append.1 member with earlier | last
    · obtain ⟨position, holds, before⟩ := conserves.placed packet earlier
      exact ⟨position, holds, Nat.le_add_right_of_le before⟩
    · obtain rfl := List.mem_singleton.1 last
      exact ⟨assembler.base, holds, by simp [FrameAssembler.behindFrame, size]⟩
  · -- all packets found before end where the pending bytes begin
    refine List.pairwise_append.2 ⟨conserves.ordered, List.pairwise_singleton _ _, ?_⟩
    intro earlier member last isLast position isPosition next isNext
    obtain rfl := List.mem_singleton.1 isLast
    obtain ⟨position', holds', before⟩ := conserves.placed earlier member
    rw [holds'.isPosition, Option.mem_some_iff] at isPosition
    rw [holds.isPosition, Option.mem_some_iff] at isNext
    omega
  · exact (List.drop_suffix _ _).trans conserves.isSuffix
  · simp only [FrameAssembler.behindFrame, List.length_drop]
    omega
  · simp only [FrameAssembler.behindFrame, List.length_drop, List.map_append, List.sum_append,
      List.map_cons, List.map_nil, List.sum_singleton, size]
    omega

theorem Conserves.dropping
    (conserves : Conserves offset stream found assembler)
    (count : Nat) :
    Conserves offset stream found (assembler.dropping count) := by
  have base := conserves.base
  have total := conserves.total
  constructor
  · intro packet member
    obtain ⟨position, holds, before⟩ := conserves.placed packet member
    exact ⟨position, holds, Nat.le_add_right_of_le before⟩
  · exact conserves.ordered
  · simp only [FrameAssembler.dropping, Bytes.dropUpTo_eq]
    exact (List.drop_suffix _ _).trans conserves.isSuffix
  · simp only [FrameAssembler.dropping, Bytes.dropUpTo_eq, List.length_drop]
    omega
  · simp only [FrameAssembler.dropping, Bytes.dropUpTo_eq, List.length_drop]
    omega

/-- A pass of cutting conserves, whatever the verdicts are. -/
theorem Conserves.cutOnto
    {σ : Type}
    (scan : σ → Bytes → Scan × σ)
    {onto : Array Packet}
    {state : σ}
    (conserves : Conserves offset stream (found ++ onto.toList) assembler) :
    Conserves offset stream (found ++ (cutOnto scan onto state assembler).1.toList)
      (cutOnto scan onto state assembler).2.2 := by
  fun_induction FrameAssembler.cutOnto scan onto state assembler with
  | case1 => exact conserves
  | case2 onto _ assembler _ length duration track _ _ holds inductionHypothesis =>
      obtain ⟨positive, fits⟩ := (holdsFrame_iff assembler length).1 holds
      apply inductionHypothesis
      rw [Array.toList_push, ← List.append_assoc]
      exact conserves.behindFrame duration track positive fits
  | case3 => exact conserves
  | case4 => exact conserves
  | case5 _ _ _ _ count _ _ inductionHypothesis =>
      exact inductionHypothesis (conserves.dropping count)

theorem Conserves.cut
    {σ : Type}
    (scan : σ → Bytes → Scan × σ)
    (state : σ)
    (conserves : Conserves offset stream found assembler) :
    Conserves offset stream (found ++ (assembler.cut scan state).1.toList)
      (assembler.cut scan state).2.2 :=
  Conserves.cutOnto scan (by simpa using conserves)

theorem Conserves.takeRest
    (conserves : Conserves offset stream found assembler)
    (track : Nat) :
    Conserves offset stream (found ++ (assembler.takeRest track).1.toList)
      (assembler.takeRest track).2 := by
  unfold FrameAssembler.takeRest
  by_cases isEmpty : assembler.pending = []
  · rw [if_pos isEmpty]
    simpa using conserves
  · rw [if_neg isEmpty]
    exact conserves.behindFrame none track (List.length_pos_iff.2 isEmpty) (Nat.le_refl _)

/-- A pass that overflows nowhere cuts what it would cut of any numbers. -/
theorem eq_cutOnto_of_framesOnto
    {σ : Type}
    {scan : σ → Bytes → Scan × σ}
    {onto : Array Packet}
    {state : σ}
    {position : Nat}
    {result : Array Packet × σ × FrameAssembler}
    (returns : framesOnto scan onto state position assembler = .ok result) :
    result = cutOnto scan onto state (assembler.movedTo (assembler.base + position)) := by
  have settles : ∀ {onto : Array Packet} {state : σ} {position : Nat} {assembler : FrameAssembler},
      (assembler.settled position).map (onto, state, ·) = .ok result →
        result = (onto, state, assembler.movedTo (assembler.base + position)) := by
    intro onto state position assembler returns
    unfold settled at returns
    cases sum : Word.sum assembler.base position with
    | error fault =>
        rw [sum] at returns
        cases returns
    | ok base =>
        rw [sum] at returns
        cases returns
        rw [(Word.sum_eq_ok_iff.1 sum).1]
  fun_induction FrameAssembler.framesOnto scan onto state position assembler with
  | case1 onto state position assembler isEmpty =>
      rw [cutOnto, pending_movedTo, if_pos isEmpty]
      exact settles returns
  | case2 onto state position assembler nonempty duration track after verdict =>
      rw [cutOnto, pending_movedTo, if_neg nonempty, verdict]
      exact settles returns
  | case3 => cases returns
  | case4 => cases returns
  | case5 onto state position assembler nonempty length duration track after verdict _ frameEnd
      isEnd holds start isStart inductionHypothesis =>
      obtain ⟨rfl, -⟩ := Word.sum_eq_ok_iff.1 isEnd
      obtain ⟨rfl, -⟩ := Word.sum_eq_ok_iff.1 isStart
      have onward := inductionHypothesis returns
      rw [cutOnto, pending_movedTo, if_neg nonempty, verdict]
      dsimp only [movedTo] at onward
      rw [← Nat.add_assoc] at onward
      rw [← holdsFrame_movedTo assembler (assembler.base + position)] at holds
      dsimp only
      rw [if_pos holds]
      exact onward
  | case6 onto state position assembler nonempty length duration track after verdict _ frameEnd _
      lacks =>
      rw [cutOnto, pending_movedTo, if_neg nonempty, verdict]
      rw [← holdsFrame_movedTo assembler (assembler.base + position)] at lacks
      dsimp only
      rw [if_neg lacks]
      exact settles returns
  | case7 onto state position assembler nonempty after verdict =>
      rw [cutOnto, pending_movedTo, if_neg nonempty, verdict]
      exact settles returns
  | case8 => cases returns
  | case9 onto state position assembler nonempty count after verdict dropped skipped isSkipped
      inductionHypothesis =>
      obtain ⟨rfl, -⟩ := Word.sum_eq_ok_iff.1 isSkipped
      have onward := inductionHypothesis returns
      rw [cutOnto, pending_movedTo, if_neg nonempty, verdict]
      dsimp only [movedTo] at onward
      rw [← Nat.add_assoc] at onward
      exact onward

theorem Conserves.frames
    {σ : Type}
    {scan : σ → Bytes → Scan × σ}
    {state after : σ}
    {packets : Array Packet}
    {behind : FrameAssembler}
    (conserves : Conserves offset stream found assembler)
    (returns : assembler.frames scan state = .ok (packets, after, behind)) :
    Conserves offset stream (found ++ packets.toList) behind := by
  have same : (packets, after, behind) = assembler.cut scan state :=
    eq_cutOnto_of_framesOnto returns
  have cut := conserves.cut scan state
  rwa [← same] at cut

theorem Conserves.rest
    {track : Nat}
    {last : Option Packet}
    {behind : FrameAssembler}
    (conserves : Conserves offset stream found assembler)
    (returns : assembler.rest track = .ok (last, behind)) :
    Conserves offset stream (found ++ last.toList) behind := by
  have taken := conserves.takeRest track
  unfold FrameAssembler.takeRest at taken
  unfold FrameAssembler.rest at returns
  split at returns
  next isEmpty =>
    rw [if_pos isEmpty] at taken
    cases returns
    exact taken
  next nonempty =>
    rw [if_neg nonempty] at taken
    obtain ⟨base, sum, ended⟩ := exists_of_bind returns
    cases ended
    rw [← (Word.sum_eq_ok_iff.1 sum).1]
    simpa [FrameAssembler.behindFrame] using taken

theorem Conserves.answer
    {call : Call}
    {packets : List Packet}
    {behind : FrameAssembler}
    (conserves : Conserves offset stream found assembler)
    (returns : call.answer assembler = .ok (packets, behind)) :
    Conserves offset (stream ++ call.pushed) (found ++ packets) behind := by
  cases call with
  | push chunk =>
      cases returns
      simpa [Call.pushed] using conserves.push chunk
  | frames scan state =>
      obtain ⟨⟨cut, after, last⟩, isCut, ended⟩ := exists_of_bind returns
      cases ended
      rw [Call.pushed, List.append_nil]
      exact conserves.frames isCut
  | rest track =>
      obtain ⟨⟨tail, last⟩, isTail, ended⟩ := exists_of_bind returns
      cases ended
      rw [Call.pushed, List.append_nil]
      exact conserves.rest isTail

theorem Conserves.answers
    {calls : List Call}
    {packets : List Packet}
    {behind : FrameAssembler}
    (conserves : Conserves offset stream found assembler)
    (returns : assembler.answers calls = .ok (packets, behind)) :
    Conserves offset (stream ++ streamOf calls) (found ++ packets) behind := by
  induction calls generalizing stream found assembler packets with
  | nil =>
      cases returns
      simpa [streamOf] using conserves
  | cons call later inductionHypothesis =>
      obtain ⟨⟨first, after⟩, isFirst, rest⟩ := exists_of_bind returns
      obtain ⟨⟨more, last⟩, isMore, ended⟩ := exists_of_bind rest
      cases ended
      have behind := inductionHypothesis (conserves.answer isFirst) isMore
      simpa [streamOf] using behind

end Steps

/-! ## Histories without an overflow -/

section Reach

variable {σ : Type} {scan : σ → Bytes → Scan × σ}

/-- No verdict on bytes of a stream of `total` bytes names a frame that ends
behind the limit. -/
def StaysInReach (scan : σ → Bytes → Scan × σ) (total : Nat) : Prop :=
  ∀ state data length duration track, data.length ≤ total →
    (scan state data).1 = .frame length duration track →
      total - data.length + length < Word.limit

theorem StaysInReach.mono
    {total shorter : Nat}
    (stays : StaysInReach scan total)
    (less : shorter ≤ total) :
    StaysInReach scan shorter := by
  intro state data length duration track within verdict
  have reach := stays state data length duration track (Nat.le_trans within less) verdict
  omega

theorem exists_settled
    {assembler : FrameAssembler}
    {position : Nat}
    (near : assembler.base + position < Word.limit)
    (onto : Array Packet)
    (state : σ) :
    ∃ result, (assembler.settled position).map (onto, state, ·) = .ok result := by
  unfold settled
  rw [Word.sum_of_lt near]
  exact ⟨_, rfl⟩

theorem exists_framesOnto
    {onto : Array Packet}
    {state : σ}
    {position : Nat}
    {assembler : FrameAssembler}
    (stays : StaysInReach scan (position + assembler.pending.length))
    (near : assembler.base + position + assembler.pending.length < Word.limit)
    (few : assembler.skipped + assembler.pending.length < Word.limit) :
    ∃ result, framesOnto scan onto state position assembler = .ok result := by
  fun_induction FrameAssembler.framesOnto scan onto state position assembler with
  | case1 => exact exists_settled (by omega) _ _
  | case2 => exact exists_settled (by omega) _ _
  | case3 onto state position assembler _ length duration track after verdict _ fault overflows =>
      have reach := stays state assembler.pending length duration track (by omega)
        (congrArg Prod.fst verdict)
      rw [Word.sum_of_lt (by omega)] at overflows
      cases overflows
  | case4 onto state position assembler _ length duration track after verdict _ frameEnd _ _ fault
      overflows =>
      rw [Word.sum_of_lt (by omega)] at overflows
      cases overflows
  | case5 onto state position assembler _ length duration track after verdict _ frameEnd isEnd holds
      start isStart inductionHypothesis =>
      obtain ⟨positive, fits⟩ := (holdsFrame_iff assembler length).1 holds
      obtain ⟨rfl, -⟩ := Word.sum_eq_ok_iff.1 isEnd
      have left : (assembler.pending.drop length).length = assembler.pending.length - length :=
        List.length_drop
      apply inductionHypothesis
      · exact stays.mono (by dsimp only; omega)
      · dsimp only
        omega
      · dsimp only
        omega
  | case6 => exact exists_settled (by omega) _ _
  | case7 => exact exists_settled (by omega) _ _
  | case8 onto state position assembler _ count after verdict dropped fault overflows =>
      have within : dropped ≤ assembler.pending.length := by
        simp only [dropped, Bytes.dropUpTo_eq]
        exact Nat.min_le_right _ _
      rw [Word.sum_of_lt (by omega)] at overflows
      cases overflows
  | case9 onto state position assembler _ count after verdict dropped skipped isSkipped
      inductionHypothesis =>
      obtain ⟨rfl, -⟩ := Word.sum_eq_ok_iff.1 isSkipped
      have left : (Bytes.dropUpTo (max count 1) assembler.pending).2.length
          = assembler.pending.length - dropped := by
        simp only [dropped, Bytes.dropUpTo_eq, List.length_drop]
        omega
      have within : dropped ≤ assembler.pending.length := by
        simp only [dropped, Bytes.dropUpTo_eq]
        exact Nat.min_le_right _ _
      apply inductionHypothesis
      · exact stays.mono (by dsimp only; omega)
      · dsimp only
        omega
      · dsimp only
        omega

/-- Where nothing leaves its range, a pass is one that minds no range. -/
theorem frames_eq_cut
    {assembler : FrameAssembler}
    (stays : StaysInReach scan assembler.pending.length)
    (near : assembler.base + assembler.pending.length < Word.limit)
    (few : assembler.skipped + assembler.pending.length < Word.limit)
    (state : σ) :
    assembler.frames scan state = .ok (assembler.cut scan state) := by
  obtain ⟨result, returns⟩ : ∃ result, framesOnto scan #[] state 0 assembler = .ok result :=
    exists_framesOnto (by rwa [Nat.zero_add]) near few
  exact returns.trans (congrArg Except.ok (eq_cutOnto_of_framesOnto returns))

/-- The verdicts of a request stay in reach of a stream of `total` bytes. -/
def Call.StaysInReach (total : Nat) : Call → Prop
  | .push _ => True
  | .frames scan _ => FrameAssembler.StaysInReach scan total
  | .rest _ => True

variable {offset : Nat} {stream : Bytes} {found : List Packet} {assembler : FrameAssembler}

theorem Conserves.frames_eq_cut
    (conserves : Conserves offset stream found assembler)
    (near : offset + stream.length < Word.limit)
    (stays : StaysInReach scan stream.length)
    (state : σ) :
    assembler.frames scan state = .ok (assembler.cut scan state) := by
  have base := conserves.base
  have total := conserves.total
  have short := conserves.isSuffix.length_le
  exact FrameAssembler.frames_eq_cut (stays.mono short) (by omega) (by omega) state

theorem Conserves.rest_eq_takeRest
    (conserves : Conserves offset stream found assembler)
    (near : offset + stream.length < Word.limit)
    (track : Nat) :
    assembler.rest track = .ok (assembler.takeRest track) := by
  have base := conserves.base
  unfold FrameAssembler.rest FrameAssembler.takeRest
  split
  · rfl
  · dsimp only
    rw [Word.sum_of_lt (by omega), FrameAssembler.behindFrame, List.drop_length]
    rfl

/-- In a stream that ends before the limit a request overflows only by its
verdicts. -/
theorem Conserves.exists_answer
    {call : Call}
    (conserves : Conserves offset stream found assembler)
    (near : offset + stream.length < Word.limit)
    (stays : call.StaysInReach stream.length) :
    ∃ packets behind, call.answer assembler = .ok (packets, behind) := by
  cases call with
  | push chunk => exact ⟨_, _, rfl⟩
  | frames scan state =>
      exact ⟨_, _, bind_of_ok (conserves.frames_eq_cut near stays state)⟩
  | rest track =>
      exact ⟨_, _, bind_of_ok (conserves.rest_eq_takeRest near track)⟩

theorem Conserves.exists_answers
    {calls : List Call}
    (conserves : Conserves offset stream found assembler)
    (near : offset + (stream ++ streamOf calls).length < Word.limit)
    (stay : ∀ call ∈ calls, call.StaysInReach (stream ++ streamOf calls).length) :
    ∃ packets behind, assembler.answers calls = .ok (packets, behind) := by
  induction calls generalizing stream found assembler with
  | nil => exact ⟨_, _, rfl⟩
  | cons call later inductionHypothesis =>
      have stream_cons : stream ++ streamOf (call :: later)
          = stream ++ call.pushed ++ streamOf later := by
        simp [streamOf]
      rw [stream_cons] at near stay
      have lengths : (stream ++ call.pushed ++ streamOf later).length
          = stream.length + call.pushed.length + (streamOf later).length := by
        rw [List.length_append, List.length_append]
      have first : call.StaysInReach stream.length := by
        have whole := stay call List.mem_cons_self
        cases call with
        | push chunk => exact trivial
        | frames scan state => exact StaysInReach.mono whole (by omega)
        | rest track => exact trivial
      obtain ⟨packets, after, isFirst⟩ := conserves.exists_answer (by omega) first
      obtain ⟨more, last, isMore⟩ := inductionHypothesis (conserves.answer isFirst) near
        fun other member => stay other (List.mem_cons_of_mem _ member)
      exact ⟨packets ++ more, last, (bind_of_ok isFirst).trans (bind_of_ok isMore)⟩

end Reach

/-! ## How often verdicts are asked for -/

section Counting

variable {σ : Type}

/-- The same verdicts, with a count of how often they were asked for. -/
def counting (scan : σ → Bytes → Scan × σ) : σ × Nat → Bytes → Scan × (σ × Nat) :=
  fun (state, asked) data =>
    let (verdict, state) := scan state data
    (verdict, state, asked + 1)

/-- Counting changes nothing, and the count grows by no more than the number of
pending bytes. -/
theorem exists_framesOnto_counting
    (scan : σ → Bytes → Scan × σ)
    (found : Array Packet)
    (state : σ)
    (position : Nat)
    (assembler : FrameAssembler)
    (before : Nat) :
    ∃ asked ≤ assembler.pending.length,
      framesOnto (counting scan) found (state, before) position assembler
        = (framesOnto scan found state position assembler).map fun (found, after, behind) =>
            (found, (after, before + asked), behind) := by
  have settles : ∀ (found : Array Packet) (state : σ) (position asked : Nat)
      (assembler : FrameAssembler),
      (assembler.settled position).map (found, (state, asked), ·)
        = ((assembler.settled position).map (found, state, ·)).map fun (found, after, behind) =>
            (found, (after, asked), behind) := by
    intro found state position asked assembler
    cases assembler.settled position <;> rfl
  fun_induction FrameAssembler.framesOnto scan found state position assembler
      generalizing before with
  | case1 found state position assembler isEmpty =>
      refine ⟨0, Nat.zero_le _, ?_⟩
      rw [framesOnto, if_pos isEmpty]
      exact settles _ _ _ _ _
  | case2 found state position assembler nonempty duration track after verdict =>
      refine ⟨1, List.length_pos_iff.2 nonempty, ?_⟩
      rw [framesOnto, if_neg nonempty]
      simp only [counting, verdict]
      exact settles _ _ _ _ _
  | case3 found state position assembler nonempty length duration track after verdict positive
      fault overflows =>
      refine ⟨1, List.length_pos_iff.2 nonempty, ?_⟩
      rw [framesOnto, if_neg nonempty]
      simp only [counting, verdict, if_neg positive, overflows]
      rfl
  | case4 found state position assembler nonempty length duration track after verdict positive
      frameEnd isEnd holds fault overflows =>
      refine ⟨1, List.length_pos_iff.2 nonempty, ?_⟩
      rw [framesOnto, if_neg nonempty]
      simp only [counting, verdict, if_neg positive, isEnd, if_pos holds, overflows]
      rfl
  | case5 found state position assembler nonempty length duration track after verdict positive
      frameEnd isEnd holds start isStart inductionHypothesis =>
      obtain ⟨asked, bound, same⟩ := inductionHypothesis (before + 1)
      obtain ⟨some, fits⟩ := (holdsFrame_iff assembler length).1 holds
      refine ⟨asked + 1, ?_, ?_⟩
      · simp only [List.length_drop] at bound
        omega
      · rw [framesOnto, if_neg nonempty]
        simp only [counting, verdict, if_neg positive, isEnd, if_pos holds, isStart]
        rw [same, Nat.add_assoc, Nat.add_comm 1]
  | case6 found state position assembler nonempty length duration track after verdict positive
      frameEnd isEnd lacks =>
      refine ⟨1, List.length_pos_iff.2 nonempty, ?_⟩
      rw [framesOnto, if_neg nonempty]
      simp only [counting, verdict, if_neg positive, isEnd, if_neg lacks]
      exact settles _ _ _ _ _
  | case7 found state position assembler nonempty after verdict =>
      refine ⟨1, List.length_pos_iff.2 nonempty, ?_⟩
      rw [framesOnto, if_neg nonempty]
      simp only [counting, verdict]
      exact settles _ _ _ _ _
  | case8 found state position assembler nonempty count after verdict dropped fault overflows =>
      refine ⟨1, List.length_pos_iff.2 nonempty, ?_⟩
      rw [framesOnto, if_neg nonempty]
      simp only [counting, verdict]
      rw [overflows]
      rfl
  | case9 found state position assembler nonempty count after verdict dropped skipped isSkipped
      inductionHypothesis =>
      obtain ⟨asked, bound, same⟩ := inductionHypothesis (before + 1)
      have some := List.length_pos_iff.2 nonempty
      refine ⟨asked + 1, ?_, ?_⟩
      · simp only [Bytes.dropUpTo_eq, List.length_drop] at bound
        omega
      · rw [framesOnto, if_neg nonempty]
        simp only [counting, verdict]
        rw [isSkipped]
        dsimp only
        rw [same, Nat.add_assoc, Nat.add_comm 1]

end Counting

/-- Whatever the verdicts are, a pass of cutting comes back, with packets or with
an overflow, and has asked for at most one verdict for each pending byte. -/
def EndsCutting (assembler : FrameAssembler) : Prop :=
  ∀ {σ : Type} (scan : σ → Bytes → Scan × σ) (state : σ),
    ∃ asked ≤ assembler.pending.length,
      assembler.frames (counting scan) (state, 0)
        = (assembler.frames scan state).map fun (found, after, behind) =>
            (found, (after, asked), behind)

theorem endsCutting (assembler : FrameAssembler) : assembler.EndsCutting := by
  intro σ scan state
  obtain ⟨asked, bound, same⟩ := exists_framesOnto_counting scan #[] state 0 assembler 0
  rw [Nat.zero_add] at same
  exact ⟨asked, bound, same⟩

/-- In every history of requests that overflows nowhere, whatever verdicts the
passes bring, each packet holds a range of the stream, the ranges follow one
another, and what is in no packet was dropped or is the pending end of the stream.
Any further pass ends. A history overflows nowhere if the stream ends before the
limit and no verdict names a frame that ends behind it. -/
theorem conserves_answers (offset : Nat) (calls : List Call) :
    (∀ found assembler, (startingAt offset).answers calls = .ok (found, assembler) →
        Conserves offset (streamOf calls) found assembler ∧ assembler.EndsCutting)
      ∧ (offset + (streamOf calls).length < Word.limit →
        (∀ call ∈ calls, call.StaysInReach (streamOf calls).length) →
          ∃ found assembler, (startingAt offset).answers calls = .ok (found, assembler)) := by
  constructor
  · intro found assembler returns
    exact ⟨(conserves_startingAt offset).answers returns, endsCutting assembler⟩
  · intro near stay
    exact (conserves_startingAt offset).exists_answers near stay

/-- Verdicts that drop a byte, and then name a frame of `length` bytes. -/
def dropThenFrame (length : Nat) : Bool → Bytes → Scan × Bool
  | false, _ => (.skip 1, true)
  | true, _ => (.frame length none 0, true)

theorem staysInReach_dropThenFrame {length total : Nat} (near : total + length < Word.limit) :
    StaysInReach (dropThenFrame length) total := by
  intro state data named duration track _ verdict
  cases state with
  | false => cases verdict
  | true =>
      cases verdict
      omega

theorem conserves_answers_dropThenFrame :
    ∃ found assembler,
      (startingAt 7).answers
          [.push [1, 2, 3], .frames (dropThenFrame 4) false, .push [4, 5], .rest 1]
        = .ok (found, assembler)
      ∧ Conserves 7 [1, 2, 3, 4, 5] found assembler ∧ assembler.EndsCutting := by
  have conserves := conserves_answers 7
    [.push [1, 2, 3], .frames (dropThenFrame 4) false, .push [4, 5], .rest 1]
  obtain ⟨found, assembler, returns⟩ := conserves.2 (by decide) (by
    intro call member
    simp only [List.mem_cons, List.not_mem_nil, or_false] at member
    rcases member with rfl | rfl | rfl | rfl
    · exact trivial
    · exact staysInReach_dropThenFrame (by decide)
    · exact trivial
    · exact trivial)
  exact ⟨found, assembler, returns, conserves.1 found assembler returns⟩

/-- A pass overflows where the stream goes on behind the limit, and where a frame
is named that ends there. -/
theorem overflow_answers_dropThenFrame :
    (startingAt (Word.limit - 1)).answers [.push [0, 0], .frames (dropThenFrame 1) false]
        = .error .overflow
      ∧ (startingAt 0).answers [.push [0, 0], .frames (dropThenFrame (Word.limit - 1)) false]
        = .error .overflow := by
  constructor
  · decide +kernel
  · decide +kernel

end MediaSplit.FrameAssembler

import Mathlib.Order.Bounds.Basic
import MediaSplit.ProgramStream.Navigator
import MediaSplit.ProgramStream.Structure
import MediaSplit.Proofs.Source

/-!
Contract: the start codes of a source.

Owns: `HasStartCode`, a place where a start code stands; `startCodesBehind`, all
such places behind another; and that the search for a start code finds the first
of them.

The search shifts one byte after the other into a word, so the bytes with which
it starts can be part of the code that it finds. What it finds is therefore
stated by the places of the source, with no mention of the word.
-/

set_option autoImplicit false

namespace MediaSplit.ProgramStream

theorem toNumber_startCode (id : Nat) : Bytes.toNumber (startCode id) = 2 ^ 8 + id % 2 ^ 8 := by
  simp only [startCode, Bytes.toNumber, List.foldl_cons, List.foldl_nil, UInt8.toNat_ofNat']
  rfl

/-- A start code stands at the offset. -/
def HasStartCode (source : Source) (offset : Nat) : Prop :=
  offset + 4 ≤ source.size ∧ source.bytesAt offset 3 = [0, 0, 1]

instance (source : Source) (offset : Nat) : Decidable (HasStartCode source offset) :=
  inferInstanceAs (Decidable (_ ∧ _))

/-- The places behind `offset` where start codes stand. -/
def startCodesBehind (source : Source) (offset : Nat) : Set Nat :=
  {place | offset < place ∧ HasStartCode source place}

section Search

variable {source : Source} {offset word : Nat}

theorem hasStartCode_iff (number : source.numberAt? offset 4 = some word) :
    HasStartCode source offset ↔ isStartCode word = true := by
  obtain ⟨inside, spelled⟩ := Source.numberAt?_eq_some_iff.1 number
  have three : (source.bytesAt offset 3).length = 3 := by
    rw [Source.length_bytesAt]
    omega
  have one : (source.bytesAt (offset + 3) 1).length = 1 := by
    rw [Source.length_bytesAt]
    omega
  have high : word / 256 = Bytes.toNumber (source.bytesAt offset 3) := by
    have below := Bytes.toNumber_lt (source.bytesAt (offset + 3) 1)
    rw [one] at below
    rw [← spelled, Source.bytesAt_add source offset 3 1, Bytes.toNumber_append, one]
    omega
  unfold isStartCode HasStartCode
  rw [high, beq_iff_eq]
  constructor
  · rintro ⟨-, code⟩
    rw [code]
    rfl
  · intro isOne
    exact ⟨inside, Bytes.eq_ofNumber three isOne⟩

theorem isLeast_startCodesBehind_succ (stands : HasStartCode source (offset + 1)) :
    IsLeast (startCodesBehind source offset) (offset + 1) :=
  ⟨⟨Nat.lt_succ_self offset, stands⟩, fun _ behind => behind.1⟩

theorem startCodesBehind_succ (missing : ¬ HasStartCode source (offset + 1)) :
    startCodesBehind source offset = startCodesBehind source (offset + 1) := by
  ext place
  constructor
  · rintro ⟨behind, stands⟩
    refine ⟨Nat.lt_of_le_of_ne behind ?_, stands⟩
    rintro rfl
    exact missing stands
  · rintro ⟨behind, stands⟩
    exact ⟨Nat.lt_of_succ_lt behind, stands⟩

/-- What a search finds that stands behind the word at `position - 4`: the bytes
before its position are known to it by their number alone, and the number at
each place that it passes follows from the one before. -/
theorem findStartCode?_spec
    {position : Nat}
    (four : 4 ≤ position)
    (number : source.numberAt? (position - 4) 4 = some word) :
    (∃ first code, IsLeast (startCodesBehind source (position - 4)) first
        ∧ source.numberAt? first 4 = some code
        ∧ findStartCode? source word position = some (code, first + 4))
      ∨ startCodesBehind source (position - 4) = ∅
        ∧ findStartCode? source word position = none := by
  have shifted : ∀ {word position byte : Nat}, 4 ≤ position →
      source.numberAt? (position - 4) 4 = some word →
      source.byteAt? position = some byte →
      source.numberAt? (position - 4 + 1) 4 = some (word % 2 ^ 24 * 256 + byte) := by
    intro word position byte four number present
    have place : position - 4 + (1 + 3) = position := Nat.sub_add_cancel four
    exact Source.numberAt?_moveOn number (by rw [place]; exact present)
  fun_induction findStartCode? source word position with
  | case1 word position missing =>
      right
      refine ⟨Set.eq_empty_of_forall_notMem ?_, rfl⟩
      rintro other ⟨behind, inside, -⟩
      have short := Source.size_le_of_byteAt?_eq_none missing
      omega
  | case2 word position byte present next isCode =>
      have moved := shifted four number present
      left
      refine ⟨position - 4 + 1, next,
        isLeast_startCodesBehind_succ ((hasStartCode_iff moved).2 isCode), moved, ?_⟩
      have place : position - 4 + 1 + 4 = position + 1 := by omega
      rw [place]
  | case3 word position byte present next notCode inductionHypothesis =>
      have moved := shifted four number present
      have missing : ¬ HasStartCode source (position - 4 + 1) := fun stands =>
        notCode ((hasStartCode_iff moved).1 stands)
      rw [startCodesBehind_succ missing, ← Nat.sub_add_comm four]
      rw [← Nat.sub_add_comm four] at moved
      exact inductionHypothesis (Nat.le_succ_of_le four) moved

end Search

end MediaSplit.ProgramStream

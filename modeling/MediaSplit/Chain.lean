import MediaSplit.Bits.Ahead
import MediaSplit.Source

/-!
Contract: what chains of requests ensure.

Owns: `Chain.Ensures`, what holds behind a chain that ends and behind one that
fails, with one rule for each way in which chains are put together; and the
rules of the requests of which headers are made, reading and skipping bits and
reading bytes of a source.

A header format is a chain of many small reads. The rules go through it in the
order in which it is written, so a fact about the whole format is proved read
by read and never by unfolding the chain.
-/

set_option autoImplicit false

namespace MediaSplit

namespace BitReader

@[simp] theorem remainingBits_advance (reader : BitReader) (count : Nat) :
    (reader.advance count).remainingBits = reader.remainingBits - count :=
  (Nat.sub_sub _ _ _).symm

/-- A field of bits that are there is a number of so many bits. -/
theorem fieldAhead_lt (reader : BitReader) {count : Nat} (enough : count ≤ reader.remainingBits) :
    reader.fieldAhead count < 2 ^ count := by
  have below := Bits.toNumber_lt (reader.bitsAhead.take count)
  rwa [List.length_take, length_bitsAhead, Nat.min_eq_left enough,
    ← fieldAhead_eq reader count enough] at below

end BitReader

/-- A chain of requests to a state that ends the chain at the first error. -/
abbrev Chain (ε σ α : Type) := ExceptT ε (StateM σ) α

namespace Chain

variable {ε σ α β : Type} {start : σ} {failed : ε → σ → Prop}

/-- From `start`, the chain ends with `ended` or fails with `failed`. -/
def Ensures
    (chain : Chain ε σ α)
    (start : σ)
    (failed : ε → σ → Prop)
    (ended : α → σ → Prop) : Prop :=
  match chain start with
  | (.ok value, after) => ended value after
  | (.error error, after) => failed error after

theorem run_bind (chain : Chain ε σ α) (next : α → Chain ε σ β) (start : σ) :
    (chain >>= next) start
      = match chain start with
        | (.ok value, after) => next value after
        | (.error error, after) => (.error error, after) := by
  simp only [Bind.bind, ExceptT.bind, ExceptT.mk, StateT.bind]
  rcases chain start with ⟨_ | _, after⟩ <;> rfl

namespace Ensures

theorem mono
    {chain : Chain ε σ α}
    {failed' : ε → σ → Prop}
    {ended ended' : α → σ → Prop}
    (ensures : Ensures chain start failed ended)
    (weakerError : ∀ error after, failed error after → failed' error after)
    (weakerValue : ∀ value after, ended value after → ended' value after) :
    Ensures chain start failed' ended' := by
  unfold Ensures at ensures ⊢
  split at ensures
  · exact weakerValue _ _ ensures
  · exact weakerError _ _ ensures

theorem pure
    {value : α}
    {ended : α → σ → Prop}
    (holds : ended value start) :
    Ensures (Pure.pure value) start failed ended :=
  holds

theorem throw
    {error : ε}
    {ended : α → σ → Prop}
    (holds : failed error start) :
    Ensures (MonadExcept.throw error) start failed ended :=
  holds

theorem bind
    {chain : Chain ε σ α}
    {next : α → Chain ε σ β}
    {middle : α → σ → Prop}
    {ended : β → σ → Prop}
    (first : Ensures chain start failed middle)
    (second : ∀ value after, middle value after → Ensures (next value) after failed ended) :
    Ensures (chain >>= next) start failed ended := by
  unfold Ensures at first ⊢
  rw [run_bind]
  rcases answer : chain start with ⟨error | value, after⟩
  · rw [answer] at first
    exact first
  · rw [answer] at first
    exact second value after first

theorem adapt
    {ε' : Type}
    {change : ε → ε'}
    {chain : Chain ε σ α}
    {failed : ε' → σ → Prop}
    {ended : α → σ → Prop}
    (ensures : Ensures chain start (fun error => failed (change error)) ended) :
    Ensures (ExceptT.adapt change chain) start failed ended := by
  have run : ExceptT.adapt change chain start
      = (Except.mapError change (chain start).1, (chain start).2) :=
    rfl
  unfold Ensures at ensures ⊢
  rw [run]
  rcases answer : chain start with ⟨error | value, after⟩
  · rw [answer] at ensures
    exact ensures
  · rw [answer] at ensures
    exact ensures

end Ensures

/-! ## Reading bits -/

section Bits

variable {reader : BitReader} {failed : Bits.Error → BitReader → Prop}

theorem ensures_readBits
    {count : Nat}
    (fits : count ≤ 32)
    (enough : count ≤ reader.remainingBits) :
    Ensures (BitReader.readBits count) reader failed fun value after =>
      value = reader.fieldAhead count ∧ after = reader.advance count := by
  unfold Ensures BitReader.readBits
  rw [if_neg (Nat.not_lt.2 fits), if_pos ((BitReader.holds_iff _ _).2 enough)]
  exact ⟨rfl, rfl⟩

theorem ensures_readFlag (enough : 1 ≤ reader.remainingBits) :
    Ensures BitReader.readFlag reader failed fun _ after => after = reader.advance 1 := by
  unfold BitReader.readFlag
  apply (ensures_readBits (by omega) enough).bind
  intro value after ended
  exact Ensures.pure ended.2

theorem ensures_skip
    {count : Nat}
    (enough : count ≤ reader.remainingBits) :
    Ensures (BitReader.skip count) reader failed fun _ after => after = reader.advance count := by
  unfold Ensures BitReader.skip
  rw [if_pos ((BitReader.holds_iff _ _).2 enough)]

theorem ensures_readBits_bind
    {count : Nat}
    {next : Nat → Chain Bits.Error BitReader α}
    {ended : α → BitReader → Prop}
    (fits : count ≤ 32)
    (enough : count ≤ reader.remainingBits)
    (rest : ∀ value, value = reader.fieldAhead count →
      Ensures (next value) (reader.advance count) failed ended) :
    Ensures (BitReader.readBits count >>= next) reader failed ended := by
  apply (ensures_readBits fits enough).bind
  intro value after read
  obtain ⟨isField, rfl⟩ := read
  exact rest value isField

theorem ensures_readFlag_bind
    {next : Bool → Chain Bits.Error BitReader α}
    {ended : α → BitReader → Prop}
    (enough : 1 ≤ reader.remainingBits)
    (rest : ∀ flag, Ensures (next flag) (reader.advance 1) failed ended) :
    Ensures (BitReader.readFlag >>= next) reader failed ended := by
  apply (ensures_readFlag enough).bind
  intro flag after moved
  subst moved
  exact rest flag

theorem ensures_skip_bind
    {count : Nat}
    {next : PUnit → Chain Bits.Error BitReader α}
    {ended : α → BitReader → Prop}
    (enough : count ≤ reader.remainingBits)
    (rest : Ensures (next ()) (reader.advance count) failed ended) :
    Ensures (BitReader.skip count >>= next) reader failed ended := by
  apply (ensures_skip enough).bind
  intro _ after moved
  subst moved
  exact rest

end Bits

/-! ## Reading bytes -/

section Bytes

variable {source : Source}

/-- A number is read where all its bytes exist, and nowhere else. -/
theorem ensures_readNumber {width : Nat} (positive : 0 < width) :
    Ensures (Source.readNumber width) source
      (fun fault after => fault = .endOfData ∧ source.size < source.position + width
        ∧ after = source.movedToEnd)
      (fun value after => source.numberAt? source.position width = some value
        ∧ after = source.movedTo (source.position + width)) := by
  have taken : Ensures (Source.readExactly width) source
      (fun fault after => fault = .endOfData ∧ source.size < source.position + width
        ∧ after = source.movedToEnd)
      (fun bytes after => source.position + width ≤ source.size
        ∧ bytes = source.bytesAt source.position width
        ∧ after = source.movedTo (source.position + width)) := by
    unfold Ensures Source.readExactly Source.remaining
    rw [if_neg (by omega)]
    by_cases short : source.size - source.position < width
    · rw [if_pos short]
      exact ⟨rfl, by omega, rfl⟩
    · rw [if_neg short]
      exact ⟨by omega, rfl, rfl⟩
  apply taken.bind
  intro bytes after read
  obtain ⟨fits, rfl, rfl⟩ := read
  refine Ensures.pure ⟨?_, rfl⟩
  rw [Source.numberAt?, if_pos fits]

end Bytes

end Chain

end MediaSplit

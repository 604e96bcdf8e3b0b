import MediaSplit.Bytes

/-!
Contract: what a search over all suffixes finds.

Owns: the two facts about `Bytes.firstSuffix?` that every header search is
judged by: it finds the least offset that is accepted, and it finds nothing
exactly where no offset is accepted.
-/

set_option autoImplicit false

namespace MediaSplit.Bytes

theorem firstSuffixFrom?_eq_some_iff {α : Type} {accepts : Bytes → Option α}
    {offset place : Nat} {bytes : Bytes} {answer : α} :
    firstSuffixFrom? accepts offset bytes = some (place, answer)
      ↔ ∃ distance, place = offset + distance ∧ distance < bytes.length
          ∧ accepts (bytes.drop distance) = some answer
          ∧ ∀ earlier < distance, accepts (bytes.drop earlier) = none := by
  induction bytes generalizing offset with
  | nil => simp [firstSuffixFrom?]
  | cons byte rest ih =>
    rw [firstSuffixFrom?]
    split
    next found here =>
      constructor
      · intro same
        obtain ⟨rfl, rfl⟩ := Prod.mk.inj (Option.some.inj same)
        exact ⟨0, rfl, Nat.succ_pos _, here, fun _ absurd => nomatch absurd⟩
      · rintro ⟨distance, rfl, -, accepted, before⟩
        cases distance with
        | zero =>
          rw [List.drop_zero, here] at accepted
          rw [Option.some.inj accepted, Nat.add_zero]
        | succ distance =>
          have refused := before 0 (Nat.succ_pos _)
          rw [List.drop_zero, here] at refused
          cases refused
    next refused =>
      rw [ih]
      constructor
      · rintro ⟨distance, rfl, inside, accepted, before⟩
        refine ⟨distance + 1, by omega, Nat.succ_lt_succ inside, accepted, ?_⟩
        intro earlier isEarlier
        cases earlier with
        | zero => exact refused
        | succ earlier => exact before earlier (Nat.lt_of_succ_lt_succ isEarlier)
      · rintro ⟨distance, rfl, inside, accepted, before⟩
        cases distance with
        | zero =>
          rw [List.drop_zero, refused] at accepted
          cases accepted
        | succ distance =>
          exact ⟨distance, by omega, Nat.lt_of_succ_lt_succ inside, accepted,
            fun earlier isEarlier => before (earlier + 1) (Nat.succ_lt_succ isEarlier)⟩

/-- The search finds the least offset that is accepted. -/
theorem firstSuffix?_eq_some_iff {α : Type} {accepts : Bytes → Option α} {bytes : Bytes}
    {offset : Nat} {answer : α} :
    firstSuffix? accepts bytes = some (offset, answer)
      ↔ offset < bytes.length ∧ accepts (bytes.drop offset) = some answer
          ∧ ∀ earlier < offset, accepts (bytes.drop earlier) = none := by
  rw [firstSuffix?, firstSuffixFrom?_eq_some_iff]
  constructor
  · rintro ⟨distance, rfl, rest⟩
    rwa [Nat.zero_add]
  · intro rest
    exact ⟨offset, (Nat.zero_add offset).symm, rest⟩

/-- The search finds nothing exactly where no offset is accepted. -/
theorem firstSuffix?_eq_none_iff {α : Type} {accepts : Bytes → Option α} {bytes : Bytes} :
    firstSuffix? accepts bytes = none
      ↔ ∀ offset < bytes.length, accepts (bytes.drop offset) = none := by
  rw [firstSuffix?]
  generalize 0 = start
  induction bytes generalizing start with
  | nil => simp [firstSuffixFrom?]
  | cons byte rest ih =>
    rw [firstSuffixFrom?]
    split
    next found here =>
      simp only [reduceCtorEq, false_iff]
      intro refused
      have := refused 0 (Nat.succ_pos _)
      rw [List.drop_zero, here] at this
      cases this
    next refused =>
      rw [ih]
      constructor
      · intro later offset inside
        cases offset with
        | zero => exact refused
        | succ offset => exact later offset (Nat.lt_of_succ_lt_succ inside)
      · intro all offset inside
        exact all (offset + 1) (Nat.succ_lt_succ inside)

end MediaSplit.Bytes

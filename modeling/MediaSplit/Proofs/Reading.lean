import MediaSplit.ReadStatus

/-!
Contract: reading up to the end.

Owns: `ReadRun`, the calls of `read` up to the first that does not ask for
another one; that there is at most one such run; that there is one wherever
each call that asks for more comes closer to an end; and `ReadRun.endsWithin`,
which computes whether it ends with success.

Does **not** own: what a call does. Every reader of this library is a `read`
in the sense of this module.
-/

set_option autoImplicit false

namespace MediaSplit

theorem exists_of_isOk
    {ε α : Type}
    {outcome : Except ε α}
    (isOk : outcome.isOk = true) :
    ∃ value, outcome = .ok value := by
  cases outcome with
  | error error => cases isOk
  | ok value => exact ⟨value, rfl⟩

theorem toOption_eq_some_iff
    {ε α : Type}
    {outcome : Except ε α}
    {value : α} :
    outcome.toOption = some value ↔ outcome = .ok value := by
  cases outcome with
  | error error => simp [Except.toOption]
  | ok found => simp [Except.toOption]

theorem exists_of_bind
    {ε α β : Type}
    {outcome : Except ε α}
    {next : α → Except ε β}
    {value : β}
    (ended : (outcome >>= next) = .ok value) :
    ∃ middle, outcome = .ok middle ∧ next middle = .ok value := by
  cases outcome with
  | error error => cases ended
  | ok middle => exact ⟨middle, rfl, ended⟩

/-- What goes on behind an outcome that is there. -/
theorem bind_of_ok
    {ε α β : Type}
    {outcome : Except ε α}
    {next : α → Except ε β}
    {value : α}
    (isOk : outcome = .ok value) :
    (outcome >>= next) = next value := by
  rw [isOk]
  rfl

/-- The calls of `read` up to the first that does not ask for more: the readers
behind the calls before it, and what the last one comes to. -/
inductive ReadRun {ρ : Type} (read : ρ → Step ρ) : ρ → List ρ → Step ρ → Prop
  | ended {reader : ρ} {ending : Step ρ}
      (last : read reader = ending)
      (stops : ending.1 ≠ .ok .moreData) : ReadRun read reader [] ending
  | more {reader next : ρ} {visited : List ρ} {ending : Step ρ}
      (step : read reader = (.ok .moreData, next))
      (rest : ReadRun read next visited ending) : ReadRun read reader (next :: visited) ending

namespace ReadRun

variable {ρ : Type} {read : ρ → Step ρ}

theorem unique
    {reader : ρ}
    {visited visited' : List ρ}
    {ending ending' : Step ρ}
    (run : ReadRun read reader visited ending)
    (run' : ReadRun read reader visited' ending') :
    visited = visited' ∧ ending = ending' := by
  induction run generalizing visited' with
  | ended last stops =>
      cases run' with
      | ended last' stops' => exact ⟨rfl, last.symm.trans last'⟩
      | more step rest =>
          rw [step] at last
          exact absurd (congrArg Prod.fst last).symm stops
  | more step rest inductionHypothesis =>
      cases run' with
      | ended last stops =>
          rw [step] at last
          exact absurd (congrArg Prod.fst last).symm stops
      | more step' rest' =>
          rw [step] at step'
          obtain rfl := (Prod.mk.inj step').2
          obtain ⟨sameVisited, sameEnding⟩ := inductionHypothesis rest'
          exact ⟨congrArg _ sameVisited, sameEnding⟩

/-- Reading comes to an end where each call that asks for more leaves less to
do, after at most as many calls as there was to do. -/
theorem exists_of_decreasing
    (left : ρ → Nat)
    (decreases : ∀ reader next, read reader = (.ok .moreData, next) → left next < left reader)
    (reader : ρ) :
    ∃ visited ending, ReadRun read reader visited ending ∧ visited.length ≤ left reader := by
  induction amount : left reader using Nat.strongRecOn generalizing reader with
  | ind amount inductionHypothesis =>
      by_cases asksMore : (read reader).1 = .ok .moreData
      · have step : read reader = (.ok .moreData, (read reader).2) := Prod.ext asksMore rfl
        have closer := decreases _ _ step
        obtain ⟨visited, ending, rest, bound⟩ :=
          inductionHypothesis _ (amount ▸ closer) _ rfl
        refine ⟨_, _, .more step rest, ?_⟩
        rw [List.length_cons]
        omega
      · exact ⟨[], _, .ended rfl asksMore, Nat.zero_le _⟩

/-- Whether reading ends with success, after at most some number of calls that
ask for more. -/
def endsWithin (read : ρ → Step ρ) : Nat → ρ → Bool
  | 0, _ => false
  | calls + 1, reader =>
      match read reader with
      | (.ok .moreData, next) => endsWithin read calls next
      | (.ok .done, _) => true
      | (.error _, _) => false

theorem exists_of_endsWithin
    {calls : Nat}
    {reader : ρ}
    (ends : endsWithin read calls reader = true) :
    ∃ visited last, ReadRun read reader visited (.ok .done, last) := by
  induction calls generalizing reader with
  | zero => cases ends
  | succ calls inductionHypothesis =>
      rw [endsWithin] at ends
      split at ends
      next next step =>
        obtain ⟨visited, last, rest⟩ := inductionHypothesis ends
        exact ⟨next :: visited, last, .more step rest⟩
      next last step => exact ⟨[], last, .ended step nofun⟩
      next => cases ends

end ReadRun

end MediaSplit

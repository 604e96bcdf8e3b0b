import MediaSplit.Schedule.Timestamps

/-!
Contract: the spacing that a schedule of timestamps goes on with.

Owns:
- `Timestamps.IsMostFrequent`, the most frequent of some values, the least one
  of equally frequent ones;
- `Timestamps.Counts`, what the runs of a sorted list say about it, with
  `counts_runsOnto`;
- `isMostFrequent_mostFrequent`.

The values are counted in ascending order and their runs stand in descending
order, so of equally long runs the last one has the least value.
-/

set_option autoImplicit false

namespace MediaSplit.Schedule.Timestamps

/-- Whether a value is the most frequent of some, the least one of equally
frequent ones; 0 is where there is none. -/
def IsMostFrequent (values : List Int) (value : Int) : Prop :=
  (values = [] ∧ value = 0)
    ∨ (value ∈ values
      ∧ ∀ other ∈ values, values.count other ≤ values.count value
        ∧ (values.count other = values.count value → value ≤ other))

theorem IsMostFrequent.unique
    {values : List Int}
    {left right : Int}
    (isLeft : IsMostFrequent values left)
    (isRight : IsMostFrequent values right) :
    left = right := by
  obtain ⟨rfl, rfl⟩ | ⟨leftMember, leftGreatest⟩ := isLeft
  · obtain ⟨-, rfl⟩ | ⟨member, -⟩ := isRight
    · rfl
    · cases member
  · obtain ⟨rfl, -⟩ | ⟨rightMember, rightGreatest⟩ := isRight
    · cases leftMember
    · have rightLeast := leftGreatest right rightMember
      have leftLeast := rightGreatest left leftMember
      have sameCount := Nat.le_antisymm rightLeast.1 leftLeast.1
      exact Int.le_antisymm (rightLeast.2 sameCount) (leftLeast.2 sameCount.symm)

/-- Whether runs tell how often each value occurs, greater values first. -/
structure Counts (values : List Int) (runs : List (Int × Nat)) : Prop where
  descending : runs.Pairwise fun earlier later => later.1 < earlier.1
  count : ∀ run ∈ runs, run.2 = values.count run.1
  mem_of_mem : ∀ run ∈ runs, run.1 ∈ values
  exists_of_mem : ∀ value ∈ values, ∃ run ∈ runs, run.1 = value

theorem counts_nil : Counts [] [] where
  descending := List.Pairwise.nil
  count := fun _ member => nomatch member
  mem_of_mem := fun _ member => nomatch member
  exists_of_mem := fun _ member => nomatch member

section Runs

variable {values : List Int} {value : Int} {runs older : List (Int × Nat)} {count : Nat}

/-- A value that is not less than those counted opens a run. -/
theorem Counts.open
    (counts : Counts values runs)
    (greater : ∀ run ∈ runs, run.1 < value) :
    Counts (values ++ [value]) ((value, 1) :: runs) := by
  have isNew : value ∉ values := fun member => by
    obtain ⟨run, isRun, same⟩ := counts.exists_of_mem value member
    exact absurd (greater run isRun) (by omega)
  constructor
  case descending => exact List.pairwise_cons.2 ⟨greater, counts.descending⟩
  case count =>
    intro run member
    obtain rfl | member := List.mem_cons.1 member
    · rw [List.count_append, List.count_eq_zero_of_not_mem isNew]
      simp
    · have less := greater run member
      rw [List.count_append, ← counts.count run member, List.count_singleton,
        if_neg (by simpa using Int.ne_of_gt less), Nat.add_zero]
  case mem_of_mem =>
    intro run member
    obtain rfl | member := List.mem_cons.1 member
    · exact List.mem_append_right _ List.mem_cons_self
    · exact List.mem_append_left _ (counts.mem_of_mem run member)
  case exists_of_mem =>
    intro other member
    obtain member | isLast := List.mem_append.1 member
    · obtain ⟨run, isRun, same⟩ := counts.exists_of_mem other member
      exact ⟨run, List.mem_cons_of_mem _ isRun, same⟩
    · exact ⟨_, List.mem_cons_self, (List.mem_singleton.1 isLast).symm⟩

/-- A value that was counted last makes its run longer. -/
theorem Counts.extend
    (counts : Counts values ((value, count) :: older)) :
    Counts (values ++ [value]) ((value, count + 1) :: older) := by
  obtain ⟨greater, descending⟩ := List.pairwise_cons.1 counts.descending
  constructor
  case descending => exact List.pairwise_cons.2 ⟨greater, descending⟩
  case count =>
    intro run member
    obtain rfl | member := List.mem_cons.1 member
    · rw [List.count_append, ← counts.count _ List.mem_cons_self]
      simp
    · have less := greater run member
      rw [List.count_append, ← counts.count run (List.mem_cons_of_mem _ member),
        List.count_singleton, if_neg (by simpa using Int.ne_of_gt less), Nat.add_zero]
  case mem_of_mem =>
    intro run member
    obtain rfl | member := List.mem_cons.1 member
    · exact List.mem_append_right _ List.mem_cons_self
    · exact List.mem_append_left _ (counts.mem_of_mem run (List.mem_cons_of_mem _ member))
  case exists_of_mem =>
    intro other member
    obtain member | isLast := List.mem_append.1 member
    · obtain ⟨run, isRun, same⟩ := counts.exists_of_mem other member
      obtain rfl | isOlder := List.mem_cons.1 isRun
      · exact ⟨_, List.mem_cons_self, same⟩
      · exact ⟨run, List.mem_cons_of_mem _ isOlder, same⟩
    · exact ⟨_, List.mem_cons_self, (List.mem_singleton.1 isLast).symm⟩

/-- Values in ascending order behind the counted ones are counted on. -/
theorem Counts.runsOnto
    {counted rest : List Int}
    (counts : Counts counted runs)
    (ascending : (counted ++ rest).Pairwise (· ≤ ·)) :
    Counts (counted ++ rest) (runsOnto runs rest) := by
  induction rest generalizing counted runs with
  | nil =>
      rw [List.append_nil]
      exact counts
  | cons value rest inductionHypothesis =>
      have split : counted ++ value :: rest = counted ++ [value] ++ rest := by simp
      have reached : ∀ earlier ∈ counted, earlier ≤ value := fun earlier member =>
        (List.pairwise_append.1 ascending).2.2 earlier member value List.mem_cons_self
      rw [split] at ascending ⊢
      cases runs with
      | nil =>
          rw [Timestamps.runsOnto]
          exact inductionHypothesis (counts.open fun _ member => nomatch member) ascending
      | cons run older =>
          obtain ⟨current, count⟩ := run
          rw [Timestamps.runsOnto]
          split
          next same =>
            subst same
            exact inductionHypothesis counts.extend ascending
          next other =>
            refine inductionHypothesis (counts.open fun run member => ?_) ascending
            have atMost := reached current (counts.mem_of_mem _ List.mem_cons_self)
            obtain rfl | member := List.mem_cons.1 member
            · exact Int.lt_iff_le_and_ne.2 ⟨atMost, other⟩
            · have less := (List.pairwise_cons.1 counts.descending).1 run member
              exact Int.lt_of_lt_of_le less atMost

/-- The longest of some runs, the last one of equally long ones. -/
theorem mostCounted_spec
    (nonempty : runs ≠ [])
    (positive : ∀ run ∈ runs, 0 < run.2)
    (descending : runs.Pairwise fun earlier later => later.1 < earlier.1) :
    mostCounted runs ∈ runs
      ∧ ∀ run ∈ runs, run.2 ≤ (mostCounted runs).2
        ∧ (run.2 = (mostCounted runs).2 → (mostCounted runs).1 ≤ run.1) := by
  induction runs with
  | nil => exact absurd rfl nonempty
  | cons run rest inductionHypothesis =>
      obtain ⟨greater, descendingRest⟩ := List.pairwise_cons.1 descending
      cases rest with
      | nil =>
          have longer := positive run List.mem_cons_self
          rw [mostCounted, mostCounted, if_pos longer]
          refine ⟨List.mem_cons_self, fun other member => ?_⟩
          obtain rfl := List.mem_singleton.1 member
          exact ⟨Nat.le_refl _, fun _ => Int.le_refl _⟩
      | cons next rest =>
          obtain ⟨isRun, isBest⟩ := inductionHypothesis (List.cons_ne_nil _ _)
            (fun other member => positive other (List.mem_cons_of_mem _ member)) descendingRest
          rw [mostCounted]
          split
          next longer =>
            refine ⟨List.mem_cons_self, fun other member => ?_⟩
            obtain rfl | member := List.mem_cons.1 member
            · exact ⟨Nat.le_refl _, fun _ => Int.le_refl _⟩
            · have bound := (isBest other member).1
              exact ⟨by omega, fun same => by omega⟩
          next shorter =>
            refine ⟨List.mem_cons_of_mem _ isRun, fun other member => ?_⟩
            obtain rfl | member := List.mem_cons.1 member
            · exact ⟨Nat.not_lt.1 shorter, fun _ => Int.le_of_lt (greater _ isRun)⟩
            · exact isBest other member

end Runs

theorem ascending_mergeSort (values : List Int) :
    (values.mergeSort fun left right => left ≤ right).Pairwise (· ≤ ·) := by
  have transitive (left middle right : Int)
      (before : decide (left ≤ middle) = true)
      (behind : decide (middle ≤ right) = true) : decide (left ≤ right) = true :=
    decide_eq_true (Int.le_trans (of_decide_eq_true before) (of_decide_eq_true behind))
  have total (left right : Int) : (decide (left ≤ right) || decide (right ≤ left)) = true := by
    simpa using Int.le_total left right
  exact (List.pairwise_mergeSort transitive total values).imp of_decide_eq_true

theorem isMostFrequent_mostFrequent (values : List Int) :
    IsMostFrequent values (mostFrequent values) := by
  unfold mostFrequent
  have perm := List.mergeSort_perm values fun left right => left ≤ right
  generalize sortedIs : values.mergeSort (fun left right => left ≤ right) = sorted at perm ⊢
  have counts : Counts sorted (runsOnto [] sorted) := by
    have ascending := ascending_mergeSort values
    rw [sortedIs] at ascending
    exact counts_nil.runsOnto ascending
  by_cases empty : values = []
  · subst empty
    rw [List.Perm.eq_nil perm]
    exact .inl ⟨rfl, rfl⟩
  · obtain ⟨value, member⟩ := List.exists_mem_of_ne_nil values empty
    obtain ⟨run, isRun, -⟩ := counts.exists_of_mem value (perm.mem_iff.2 member)
    have positive : ∀ run ∈ runsOnto [] sorted, 0 < run.2 := fun run isRun => by
      rw [counts.count run isRun]
      exact List.count_pos_iff.2 (counts.mem_of_mem run isRun)
    obtain ⟨isBest, best⟩ := mostCounted_spec (List.ne_nil_of_mem isRun) positive counts.descending
    refine .inr ⟨perm.mem_iff.1 (counts.mem_of_mem _ isBest), fun other isOther => ?_⟩
    obtain ⟨run, isRun, rfl⟩ := counts.exists_of_mem other (perm.mem_iff.2 isOther)
    have bound := best run isRun
    rw [counts.count run isRun, counts.count _ isBest, perm.count_eq, perm.count_eq] at bound
    exact bound

end MediaSplit.Schedule.Timestamps

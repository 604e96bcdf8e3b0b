import MediaSplit.Proofs.Bytes

/-!
Contract: searches in a run of bytes, and what it means that they are exact.

Owns:
- `FindsLeast`, a search that finds the least place at which anything is
  accepted;
- that the search over all suffixes is such a search;
- `Bytes.LeadsTo`, what a search from candidate to candidate asks of its
  candidates, and that it then finds what the search over all suffixes finds.

Does **not** own: what is looked for.
-/

set_option autoImplicit false

namespace MediaSplit

/-- What is found is what is accepted at the least place at which anything is;
nothing is found exactly where nothing is accepted. -/
structure FindsLeast {α : Type}
    (accepted : Nat → α → Prop)
    (found : Option (Nat × α)) : Prop where
  some_iff : ∀ place answer, found = some (place, answer)
    ↔ accepted place answer ∧ ∀ earlier < place, ∀ other, ¬ accepted earlier other
  none_iff : found = none ↔ ∀ place answer, ¬ accepted place answer

theorem FindsLeast.congr {α : Type}
    {accepted accepted' : Nat → α → Prop}
    {found : Option (Nat × α)}
    (finds : FindsLeast accepted found)
    (same : ∀ place answer, accepted place answer ↔ accepted' place answer) :
    FindsLeast accepted' found := by
  obtain rfl : accepted = accepted' :=
    funext fun place => funext fun answer => propext (same place answer)
  exact finds

namespace Bytes

variable {α : Type} {accepts : Bytes → Option α} {candidate? : Bytes → Option Nat}

/-- The search over all suffixes finds the least one that is accepted. -/
theorem findsLeast_firstSuffix? (accepts : Bytes → Option α) (data : Bytes) :
    FindsLeast
      (fun place answer => place < data.length ∧ accepts (data.drop place) = some answer)
      (firstSuffix? accepts data) where
  some_iff place answer := by
    rw [firstSuffix?_eq_some_iff, and_assoc]
    constructor
    · rintro ⟨inside, accepted, before⟩
      refine ⟨inside, accepted, ?_⟩
      rintro earlier isEarlier other ⟨-, early⟩
      rw [before earlier isEarlier] at early
      cases early
    · rintro ⟨inside, accepted, before⟩
      refine ⟨inside, accepted, ?_⟩
      intro earlier isEarlier
      apply Option.eq_none_iff_forall_ne_some.2
      intro other early
      exact before earlier isEarlier other ⟨Nat.lt_trans isEarlier inside, early⟩
  none_iff := by
    rw [firstSuffix?_eq_none_iff]
    constructor
    · rintro refused place answer ⟨inside, accepted⟩
      rw [refused place inside] at accepted
      cases accepted
    · intro refused place inside
      apply Option.eq_none_iff_forall_ne_some.2
      intro answer accepted
      exact refused place answer ⟨inside, accepted⟩

/-! ## From candidate to candidate -/

/-- Nothing is accepted in front of a candidate, and nothing at all where there is
no candidate. -/
structure LeadsTo (candidate? : Bytes → Option Nat) (accepts : Bytes → Option α) : Prop where
  nowhere : ∀ {data : Bytes}, candidate? data = none →
    ∀ place, accepts (data.drop place) = none
  before : ∀ {data : Bytes} {distance : Nat}, candidate? data = some distance →
    distance < data.length ∧ ∀ earlier < distance, accepts (data.drop earlier) = none

/-- A search for suffixes leads to all that pass its test. -/
theorem leadsTo_of_search {β : Type}
    {search : Bytes → Option (Nat × β)}
    {test : Bytes → Option β}
    (searches : ∀ data, search data = firstSuffix? test data)
    (refusedUntested : ∀ {data : Bytes}, test data = none → accepts data = none)
    (nothing : test [] = none) :
    LeadsTo (fun data => (search data).map (·.1)) accepts where
  nowhere {data} noCandidate place := by
    rw [Option.map_eq_none_iff, searches, firstSuffix?_eq_none_iff] at noCandidate
    apply refusedUntested
    by_cases inside : place < data.length
    · exact noCandidate place inside
    · rw [List.drop_eq_nil_of_le (Nat.le_of_not_lt inside)]
      exact nothing
  before {data distance} isCandidate := by
    obtain ⟨⟨place, answer⟩, found, rfl⟩ := Option.map_eq_some_iff.1 isCandidate
    rw [searches, firstSuffix?_eq_some_iff] at found
    exact ⟨found.1, fun earlier isEarlier => refusedUntested (found.2.2 earlier isEarlier)⟩

/-- A search for marks leads to all that has one. -/
theorem leadsTo_of_mark
    {mark : Bytes → Bool}
    (marked : ∀ {data : Bytes} {answer : α}, accepts data = some answer → mark data = true)
    (nothing : mark [] = false) :
    LeadsTo
      (fun data => (firstSuffix? (fun suffix => if mark suffix then some () else none) data).map
        (·.1))
      accepts := by
  apply leadsTo_of_search (fun _ => rfl)
  · intro data unmarked
    apply Option.eq_none_iff_forall_ne_some.2
    intro answer accepted
    rw [if_pos (marked accepted)] at unmarked
    cases unmarked
  · rw [nothing]
    rfl

/-- What accepts no short data asks for no candidates in it. -/
theorem LeadsTo.within {count : Nat}
    (leads : LeadsTo candidate? accepts)
    (refusedShort : ∀ {data : Bytes}, data.length < count → accepts data = none) :
    LeadsTo (fun data => if hasAtLeast count data then candidate? data else none) accepts where
  nowhere {data} noCandidate place := by
    split at noCandidate
    next => exact leads.nowhere noCandidate place
    next short =>
      rw [hasAtLeast_iff] at short
      apply refusedShort
      rw [List.length_drop]
      omega
  before {data distance} isCandidate := by
    split at isCandidate
    next => exact leads.before isCandidate
    next => cases isCandidate

/-- A search that passes over bytes only where nothing is accepted misses
nothing. -/
theorem firstAmongFrom?_eq
    (leads : LeadsTo candidate? accepts)
    (offset : Nat)
    (data : Bytes) :
    firstAmongFrom? candidate? accepts offset data
      = (firstSuffix? accepts data).map fun found => (offset + found.1, found.2) := by
  fun_induction firstAmongFrom? candidate? accepts offset data with
  | case1 offset => rfl
  | case2 offset byte rest noCandidate =>
      symm
      rw [Option.map_eq_none_iff, firstSuffix?_eq_none_iff]
      exact fun place _ => leads.nowhere noCandidate place
  | case3 offset byte rest distance isCandidate answer accepted =>
      obtain ⟨inside, before⟩ := leads.before isCandidate
      rw [firstSuffix?_eq_some_iff.2 ⟨inside, accepted, before⟩]
      rfl
  | case4 offset byte rest distance isCandidate refused inductionHypothesis =>
      obtain ⟨-, before⟩ := leads.before isCandidate
      have skipped : ∀ place < distance + 1, accepts ((byte :: rest).drop place) = none := by
        intro place upTo
        rcases Nat.lt_succ_iff_lt_or_eq.1 upTo with earlier | rfl
        · exact before place earlier
        · exact refused
      rw [inductionHypothesis, firstSuffix?_of_skipped skipped, List.drop_succ_cons,
        Option.map_map]
      congr 1
      funext found
      exact Prod.ext (by simp only [Function.comp_apply]; omega) rfl

/-- A search from candidate to candidate finds what a search over all suffixes
finds. -/
theorem firstAmong?_eq_firstSuffix? (leads : LeadsTo candidate? accepts) (data : Bytes) :
    firstAmong? candidate? accepts data = firstSuffix? accepts data := by
  rw [firstAmong?, firstAmongFrom?_eq leads]
  simp

end Bytes

end MediaSplit

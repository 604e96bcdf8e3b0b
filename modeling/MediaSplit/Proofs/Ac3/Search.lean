import MediaSplit.Proofs.Ac3.Header
import MediaSplit.Proofs.Bytes.Search
import MediaSplit.Proofs.Reading

/-!
Contract: what the searches for AC-3 headers find.

Owns:
- that searching from sync word to sync word misses no header, and searching from
  header to header no chain of headers;
- `Ac3.IsChain`, headers of which each parses where the frame before it ends, and
  that both searches are exact.

A header can stand within what another header takes for its frame. So a search
that fails at one place goes on one byte behind it, not behind its frame, and
whatever it passes over must have failed as well.
-/

set_option autoImplicit false

namespace MediaSplit.Ac3

theorem Header.parse?_eq_some_iff {data : Bytes} {header : Header} :
    parse? data = some header ↔ parse data = .ok header :=
  toOption_eq_some_iff

/-! ## From sync word to sync word -/

/-- All headers stand at sync words. -/
theorem leadsTo_headerCandidate? : Bytes.LeadsTo headerCandidate? Header.parse? := by
  have syncs : Bytes.LeadsTo findSync? Header.parse? :=
    Bytes.leadsTo_of_mark Header.startsWithSync_of_parse? rfl
  exact syncs.within Header.decidedBy_parse?.none_of_short

theorem findHeader?_eq_firstSuffix? (data : Bytes) :
    findHeader? data = Bytes.firstSuffix? Header.parse? data :=
  Bytes.firstAmong?_eq_firstSuffix? leadsTo_headerCandidate? data

/-! ## Chains -/

/-- Headers one behind the other: each parses where the frame of the one before it
ends, the first one at `offset`. -/
inductive IsChain (data : Bytes) : (offset : Nat) → List Header → Prop
  | nil {offset : Nat} : IsChain data offset []
  | cons {offset : Nat} {header : Header} {later : List Header}
      (parsed : Header.parse (data.drop offset) = .ok header)
      (goesOn : IsChain data (offset + header.frameSize) later) :
      IsChain data offset (header :: later)

theorem startsChain_iff {data : Bytes} {count offset : Nat} :
    startsChain count (data.drop offset) = true
      ↔ ∃ headers, headers.length = count ∧ IsChain data offset headers := by
  induction count generalizing offset with
  | zero =>
      refine iff_of_true rfl ⟨[], rfl, .nil⟩
  | succ count inductionHypothesis =>
      rw [startsChain]
      split
      next header parsed =>
        rw [List.drop_drop, inductionHypothesis]
        constructor
        · rintro ⟨later, length, isChain⟩
          exact ⟨header :: later, congrArg Nat.succ length,
            .cons (Header.parse?_eq_some_iff.1 parsed) isChain⟩
        · rintro ⟨headers, length, isChain⟩
          cases isChain with
          | nil => cases length
          | @cons _ first later isFirst goesOn =>
              obtain rfl : first = header :=
                Option.some.inj ((Header.parse?_eq_some_iff.2 isFirst).symm.trans parsed)
              exact ⟨later, Nat.succ.inj length, goesOn⟩
      next refused =>
        refine iff_of_false Bool.false_ne_true ?_
        rintro ⟨headers, length, isChain⟩
        cases isChain with
        | nil => cases length
        | cons isFirst goesOn =>
            rw [Header.parse?_eq_some_iff.2 isFirst] at refused
            cases refused

theorem chainHead?_eq_some_iff {data : Bytes} {count offset : Nat} {header : Header} :
    chainHead? count (data.drop offset) = some header
      ↔ ∃ later, later.length + 1 = max count 1 ∧ IsChain data offset (header :: later) := by
  unfold chainHead?
  constructor
  · intro isHead
    split at isHead
    next starts =>
      obtain ⟨headers, length, isChain⟩ := startsChain_iff.1 starts
      cases isChain with
      | nil => exact absurd length (by rw [List.length_nil]; omega)
      | @cons _ first later isFirst goesOn =>
          obtain rfl : first = header :=
            Option.some.inj ((Header.parse?_eq_some_iff.2 isFirst).symm.trans isHead)
          exact ⟨later, length, .cons isFirst goesOn⟩
    next => cases isHead
  · rintro ⟨later, length, isChain⟩
    rw [if_pos (startsChain_iff.2 ⟨header :: later, length, isChain⟩)]
    cases isChain with
    | cons isFirst goesOn => exact Header.parse?_eq_some_iff.2 isFirst

/-- All chains start with a header. -/
theorem findChain?_eq_firstSuffix? (count : Nat) (data : Bytes) :
    findChain? count data = Bytes.firstSuffix? (chainHead? count) data := by
  apply Bytes.firstAmong?_eq_firstSuffix?
  apply Bytes.leadsTo_of_search findHeader?_eq_firstSuffix?
  · intro rest refused
    unfold chainHead?
    rw [refused, ite_self]
  · rfl

/-! ## Both searches -/

/-- **Both searches are exact**: the one finds the least offset at which a header
parses, the other the least offset at which a chain starts, and each finds nothing
exactly where there is none. -/
theorem findsLeast_findHeader?_findChain? (data : Bytes) :
    FindsLeast
        (fun place header => place + 8 ≤ data.length ∧ Header.parse (data.drop place) = .ok header)
        (findHeader? data)
      ∧ ∀ count, FindsLeast
          (fun place header => ∃ later,
            later.length + 1 = max count 1 ∧ IsChain data place (header :: later))
          (findChain? count data) := by
  have long : ∀ {place header}, Header.parse? (data.drop place) = some header →
      place + 8 ≤ data.length := by
    intro place header parsed
    have enough := Header.decidedBy_parse?.long parsed
    rw [List.length_drop] at enough
    simp only [headerSize] at enough
    omega
  constructor
  · rw [findHeader?_eq_firstSuffix?]
    refine (Bytes.findsLeast_firstSuffix? Header.parse? data).congr fun place header => ?_
    rw [← Header.parse?_eq_some_iff]
    exact and_congr_left fun parsed => iff_of_true (by have := long parsed; omega) (long parsed)
  · intro count
    rw [findChain?_eq_firstSuffix?]
    refine (Bytes.findsLeast_firstSuffix? (chainHead? count) data).congr fun place header => ?_
    rw [← chainHead?_eq_some_iff]
    refine and_iff_right_of_imp fun isHead => ?_
    obtain ⟨later, -, isChain⟩ := chainHead?_eq_some_iff.1 isHead
    cases isChain with
    | cons parsed goesOn =>
        have := long (Header.parse?_eq_some_iff.2 parsed)
        omega

end MediaSplit.Ac3

import MediaSplit.Proofs.Bytes.Search
import MediaSplit.Proofs.Dts.Header
import MediaSplit.Proofs.Reading

/-!
Contract: what the search for a DTS header finds.

Owns:
- `Dts.IsCredible`, what has to stand behind the frame of a header for it to be
  believed;
- that searching from sync word to sync word misses no credible header, and that
  the search is exact.

The search also stops at the sync words of substreams, at which no header parses.
-/

set_option autoImplicit false

namespace MediaSplit.Dts

theorem Header.parse?_eq_some_iff {data : Bytes} {header : Header} :
    parse? data = some header ↔ parse data = .ok header :=
  toOption_eq_some_iff

/-- Whether a header at `place` is believed: the data ends before four bytes are
there behind its frame, or these are a sync word. -/
def IsCredible (data : Bytes) (place : Nat) (header : Header) : Prop :=
  data.length < place + header.frameSize + 4
    ∨ data.slice (place + header.frameSize) 4 = Bytes.ofNumber 4 coreSync
    ∨ data.slice (place + header.frameSize) 4 = Bytes.ofNumber 4 substreamSync

theorem credibleHeader?_eq_some_iff {data : Bytes} {place : Nat} {header : Header} :
    credibleHeader? (data.drop place) = some header
      ↔ Header.parse (data.drop place) = .ok header ∧ IsCredible data place header := by
  have credible : ∀ found : Header,
      (!Bytes.hasAtLeast 4 ((data.drop place).drop found.frameSize)
          || startsWithSync ((data.drop place).drop found.frameSize)) = true
        ↔ IsCredible data place found := by
    intro found
    rw [Bool.or_eq_true, Header.startsWithSync_iff, Bool.not_eq_true', ← Bool.not_eq_true,
      Bytes.hasAtLeast_iff, List.drop_drop, List.length_drop, List.mem_cons, List.mem_singleton]
    exact or_congr_left (by omega)
  rw [← Header.parse?_eq_some_iff, credibleHeader?]
  dsimp only
  split
  next refused => simp [refused]
  next found parsed =>
    rw [parsed, Option.some.injEq, Option.ite_none_right_eq_some, credible, Option.some.injEq,
      and_comm]
    constructor
    · rintro ⟨rfl, isCredible⟩
      exact ⟨rfl, isCredible⟩
    · rintro ⟨rfl, isCredible⟩
      exact ⟨rfl, isCredible⟩

/-- All headers stand at sync words. -/
theorem leadsTo_findSync? : Bytes.LeadsTo findSync? credibleHeader? := by
  refine Bytes.leadsTo_of_mark ?_ rfl
  intro data header isCredible
  have isHead : credibleHeader? (data.drop 0) = some header := isCredible
  have parsed := (credibleHeader?_eq_some_iff.1 isHead).1
  exact Header.startsWithSync_of_parse? (Header.parse?_eq_some_iff.2 parsed)

/-- **The search is exact**: it finds the least offset at which a header parses that
is credible, and nothing exactly where there is none. -/
theorem findsLeast_findHeader? (data : Bytes) :
    FindsLeast
      (fun place header =>
        Header.parse (data.drop place) = .ok header ∧ IsCredible data place header)
      (findHeader? data) := by
  have found : findHeader? data = Bytes.firstSuffix? credibleHeader? data :=
    Bytes.firstAmong?_eq_firstSuffix? leadsTo_findSync? data
  rw [found]
  refine (Bytes.findsLeast_firstSuffix? credibleHeader? data).congr fun place header => ?_
  rw [credibleHeader?_eq_some_iff]
  refine and_iff_right_of_imp fun isCredible => ?_
  have enough := Header.decidedBy_parse?.long (Header.parse?_eq_some_iff.2 isCredible.1)
  rw [List.length_drop] at enough
  simp only [headerSize] at enough
  omega

end MediaSplit.Dts

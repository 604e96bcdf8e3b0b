import Mathlib.Data.List.TakeWhile
import MediaSplit.Proofs.Avc.DecoderConfig
import MediaSplit.Proofs.ProgramStream.Probing
import MediaSplit.Proofs.Video.StartCodes

/-!
Contract: the parameter sets that an AVC probe puts into its record.

Owns:
- `Avc.firstOfType?`, the first unit of a type, and that a search for parameter
  sets keeps the first sequence and the first picture parameter set;
- `Probe.finding_pushAll`, the finding of an AVC probe told by the cut of its
  stream;
- that the record of a finding says just these two sets exactly if both have a
  length that fits into its field.

Does **not** own: what the parameters in a set mean.
-/

set_option autoImplicit false

namespace MediaSplit

namespace Avc

/-! ## The first sets -/

/-- The first unit of a type, without the zero bytes at its end. -/
def firstOfType? (type : Nat) (units : List Bytes) : Option Bytes :=
  (units.map trimmed).find? fun unit => unitType? unit = some type

theorem firstOfType?_cons (type : Nat) (unit : Bytes) (units : List Bytes) :
    firstOfType? type (unit :: units)
      = (if unitType? (trimmed unit) = some type then some (trimmed unit) else none).or
          (firstOfType? type units) := by
  unfold firstOfType?
  rw [List.map_cons, List.find?_cons]
  split
  next same => rw [if_pos (of_decide_eq_true same), Option.some_or]
  next other => rw [if_neg (of_decide_eq_false other), Option.none_or]

theorem trimmed_of_not_mem {unit : Bytes} (noZero : 0 ∉ unit) : trimmed unit = unit := by
  have stays : unit.reverse.dropWhile (· == 0) = unit.reverse := by
    rw [List.dropWhile_eq_self_iff]
    intro nonempty isZero
    exact noZero (List.mem_reverse.1 (beq_iff_eq.1 isZero ▸ List.getElem_mem nonempty))
  rw [trimmed, stays, List.reverse_reverse]

namespace ParameterSets

/-- A unit counts for its type alone, and where none of its type was before. -/
theorem keep_eq (sets : ParameterSets) (unit : Bytes) :
    sets.keep unit
      = ⟨sets.sequenceSet.or (if unitType? unit = some sequenceSetType then some unit else none),
          sets.pictureSet.or
            (if unitType? unit = some pictureSetType then some unit else none)⟩ := by
  unfold keep
  split
  next isSequenceSet =>
    rw [if_neg (by rw [isSequenceSet]; decide), Option.or_none]
  next =>
    split <;> simp

theorem or_of_areBoth {sets : ParameterSets} (both : sets.areBoth = true) (others : ParameterSets) :
    (⟨sets.sequenceSet.or others.sequenceSet, sets.pictureSet.or others.pictureSet⟩ : ParameterSets)
      = sets := by
  obtain ⟨hasSequenceSet, hasPictureSet⟩ := Bool.and_eq_true_iff.1 both
  rw [Option.or_of_isSome hasSequenceSet, Option.or_of_isSome hasPictureSet]

end ParameterSets

theorem seesAll_rules : rules.SeesAll := ⟨rfl, fun _ _ => rfl⟩

theorem takeAll_rules (sets : ParameterSets) (units : List Bytes) :
    rules.takeAll sets units
      = ⟨sets.sequenceSet.or (firstOfType? sequenceSetType units),
          sets.pictureSet.or (firstOfType? pictureSetType units)⟩ := by
  induction units generalizing sets with
  | nil => simp [Units.Rules.takeAll, firstOfType?]
  | cons unit units inductionHypothesis =>
      rw [firstOfType?_cons, firstOfType?_cons, ← Option.or_assoc, ← Option.or_assoc,
        Units.Rules.takeAll, inductionHypothesis]
      have kept : rules.take sets unit = _ := sets.keep_eq (trimmed unit)
      split
      -- a complete search has both sets, so the units behind it have nothing to add
      next enough =>
        have both := ParameterSets.or_of_areBoth enough
          ⟨firstOfType? sequenceSetType units, firstOfType? pictureSetType units⟩
        rw [kept] at both ⊢
        exact both.symm
      next => rw [kept]

end Avc

namespace ProgramStream.Probe

/-! ## The finding -/

/-- What an AVC probe finds, told by the cut of the stream it was given. -/
theorem finding_pushAll
    {payloads pieces : List Bytes}
    (cut : Units.IsCutInto payloads.flatten pieces) :
    (VideoFormat.avc.probe.pushAll payloads).2.finding
      = ofParameterSets
          ⟨Avc.firstOfType? Avc.sequenceSetType (Units.closedUnits pieces),
            Avc.firstOfType? Avc.pictureSetType (Units.closedUnits pieces)⟩ := by
  have through := Units.Search.found_through Avc.seesAll_rules ⟨none, none⟩ cut
  rw [Avc.takeAll_rules, Option.none_or, Option.none_or] at through
  rw [(pushAll_flatten .avc payloads).2, ← through]
  rfl

theorem privateData_of_ofParameterSets
    {sets : Avc.ParameterSets}
    {finding : Finding}
    (succeeds : ofParameterSets sets = .ok finding) :
    ∃ sequenceSet pictureSet, sets = ⟨some sequenceSet, some pictureSet⟩
      ∧ finding.privateData = some (Avc.decoderConfig [sequenceSet] [pictureSet]) := by
  unfold ofParameterSets at succeeds
  split at succeeds
  next sequenceSet pictureSet =>
    split at succeeds
    · cases succeeds
      exact ⟨sequenceSet, pictureSet, rfl, rfl⟩
    · cases succeeds
    · cases succeeds
  next => cases succeeds

/-- **The record of an AVC stream** for which a probe succeeds says, to its last
byte, the first sequence and the first picture parameter set that are closed in
the stream, exactly if both are shorter than `2 ^ 16` bytes. -/
theorem exists_record_iff_of_finding
    {payloads : List Bytes}
    {finding : Finding}
    (succeeds : (VideoFormat.avc.probe.pushAll payloads).2.finding = .ok finding) :
    ∃ pieces sequenceSet pictureSet record,
      Units.IsCutInto payloads.flatten pieces
        ∧ Avc.firstOfType? Avc.sequenceSetType (Units.closedUnits pieces) = some sequenceSet
        ∧ Avc.firstOfType? Avc.pictureSetType (Units.closedUnits pieces) = some pictureSet
        ∧ finding.privateData = some record
        ∧ (Avc.DecoderConfigForm.read? record = some (.ofSets [sequenceSet] [pictureSet], [])
            ↔ sequenceSet.length < 2 ^ 16 ∧ pictureSet.length < 2 ^ 16) := by
  obtain ⟨pieces, cut⟩ := Units.exists_isCutInto payloads.flatten
  rw [finding_pushAll cut] at succeeds
  obtain ⟨sequenceSet, pictureSet, sets, record⟩ := privateData_of_ofParameterSets succeeds
  obtain ⟨isSequenceSet, isPictureSet⟩ := Avc.ParameterSets.mk.inj sets
  refine ⟨pieces, sequenceSet, pictureSet, _, cut, isSequenceSet, isPictureSet, record, ?_⟩
  rw [Avc.read?_decoderConfig_iff]
  simp

/-- A sequence parameter set unit for pictures of 1920 by 1088 pixels. -/
def plainSequenceSet : Bytes := [0x67, 66, 0xC0, 40, 0xF4, 0x03, 0xC0, 0x11, 0x32]

/-- A picture parameter set unit of any length. -/
def filledPictureSet (count : Nat) : Bytes := 0x68 :: List.replicate count 0xFF

/-- A stream with both sets in front of its first picture. -/
def filledStream (count : Nat) : Bytes :=
  Units.startCode.intercalate [[0], plainSequenceSet, filledPictureSet count, [0x65]]

theorem zero_not_mem_filledPictureSet (count : Nat) : 0 ∉ filledPictureSet count := by
  simp [filledPictureSet, List.mem_replicate]

theorem isCutInto_filledStream (count : Nat) :
    Units.IsCutInto [filledStream count].flatten
      [[0], plainSequenceSet, filledPictureSet count, [0x65]] where
  nonempty := List.cons_ne_nil _ _
  joins := List.flatten_singleton.symm
  noCode := by
    have filled : ¬ Units.startCode <:+: filledPictureSet count := fun inside =>
      zero_not_mem_filledPictureSet count (inside.subset (by decide))
    simpa [filled] using ⟨by decide, by decide, by decide⟩

theorem firstOfType?_filledStream (count : Nat) :
    Avc.firstOfType? Avc.sequenceSetType [plainSequenceSet, filledPictureSet count]
        = some plainSequenceSet
      ∧ Avc.firstOfType? Avc.pictureSetType [plainSequenceSet, filledPictureSet count]
          = some (filledPictureSet count) := by
  have plain : Avc.trimmed plainSequenceSet = plainSequenceSet :=
    Avc.trimmed_of_not_mem (by decide)
  have filled : Avc.trimmed (filledPictureSet count) = filledPictureSet count :=
    Avc.trimmed_of_not_mem (zero_not_mem_filledPictureSet count)
  have isSequenceSet : Avc.unitType? plainSequenceSet = some Avc.sequenceSetType := rfl
  have isPictureSet : Avc.unitType? (filledPictureSet count) = some Avc.pictureSetType := rfl
  simp only [Avc.firstOfType?_cons, plain, filled, isSequenceSet, isPictureSet, Option.some.injEq]
  exact ⟨rfl, rfl⟩

theorem finding_filledStream (count : Nat) :
    ∃ finding, (VideoFormat.avc.probe.pushAll [filledStream count]).2.finding = .ok finding
      ∧ finding.privateData
          = some (Avc.decoderConfig [plainSequenceSet] [filledPictureSet count]) := by
  have closed :
      Units.closedUnits [[0], plainSequenceSet, filledPictureSet count, [0x65]]
        = [plainSequenceSet, filledPictureSet count] := rfl
  have parses : (Avc.parseSet plainSequenceSet).isOk := by decide +kernel
  rw [finding_pushAll (isCutInto_filledStream count), closed, (firstOfType?_filledStream count).1,
    (firstOfType?_filledStream count).2]
  cases parsed : Avc.parseSet plainSequenceSet with
  | error _ => simp [parsed, Except.isOk, Except.toBool] at parses
  | ok sps =>
      have found : ofParameterSets ⟨some plainSequenceSet, some (filledPictureSet count)⟩
          = .ok (video .avc sps.params
              (Avc.decoderConfig [plainSequenceSet] [filledPictureSet count]) avcCapacity) := by
        simp only [ofParameterSets, parsed]
      exact ⟨_, found, rfl⟩

/-- A picture parameter set of four bytes is in the record as it is. -/
theorem exists_record_of_filledStream :
    ∃ finding record, (VideoFormat.avc.probe.pushAll [filledStream 3]).2.finding = .ok finding
      ∧ finding.privateData = some record
      ∧ Avc.DecoderConfigForm.read? record
          = some (.ofSets [plainSequenceSet] [filledPictureSet 3], []) := by
  obtain ⟨finding, succeeds, -⟩ := finding_filledStream 3
  obtain ⟨pieces, sequenceSet, pictureSet, record, cut, isSequenceSet, isPictureSet, isRecord,
    reads⟩ := exists_record_iff_of_finding succeeds
  obtain rfl := cut.unique (isCutInto_filledStream 3)
  obtain rfl := Option.some.inj (isSequenceSet.symm.trans (firstOfType?_filledStream 3).1)
  obtain rfl := Option.some.inj (isPictureSet.symm.trans (firstOfType?_filledStream 3).2)
  exact ⟨finding, record, succeeds, isRecord, reads.2 (by decide)⟩

/-- A picture parameter set of `2 ^ 16 + 1` bytes is announced as one byte, which
leaves all others behind the record. -/
theorem not_record_of_filledStream :
    ¬ ∀ payloads finding, (VideoFormat.avc.probe.pushAll payloads).2.finding = .ok finding →
      ∃ record form, finding.privateData = some record
        ∧ Avc.DecoderConfigForm.read? record = some (form, []) := by
  intro readsAll
  obtain ⟨finding, succeeds, isRecord⟩ := finding_filledStream (2 ^ 16)
  obtain ⟨record, form, isRecord', reads⟩ := readsAll _ _ succeeds
  obtain rfl := Option.some.inj (isRecord.symm.trans isRecord')
  have length : (filledPictureSet (2 ^ 16)).length = 2 ^ 16 + 1 := by
    rw [filledPictureSet, List.length_cons, List.length_replicate]
  rw [Avc.read?_decoderConfig_singleton _ (by decide)] at reads
  have left := congrArg List.length (Prod.mk.inj (Option.some.inj reads)).2
  rw [List.length_drop, length] at left
  exact absurd left (by decide)

end ProgramStream.Probe

end MediaSplit

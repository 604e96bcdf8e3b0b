import MediaSplit.Input
import MediaSplit.Proofs.Ac3.Search
import MediaSplit.Proofs.TrueHd.Survey
import MediaSplit.Sink.Journal

/-!
Contract: a raw format that a probe has recognised opens.

Owns:
- that a source with a valid AC-3 or DTS probe opens at the default chunk size;
- that of the sources recognised as TrueHD exactly those open whose first major
  sync unit starts before the trailing tag.

The probe of TrueHD does not know of trailing tags, the opening reader does. A
file that has its major sync units in such a tag only is therefore recognised
and then refused.
-/

set_option autoImplicit false

namespace MediaSplit

namespace Ac3

theorem findHeader?_of_parse? {data : Bytes} {header : Header}
    (parsed : Header.parse? data = some header) :
    findHeader? data = some (0, header) := by
  have nonempty : 0 < data.length :=
    Nat.lt_of_lt_of_le (by decide) (Header.decidedBy_parse?.long parsed)
  rw [findHeader?_eq_firstSuffix?]
  refine Bytes.firstSuffix?_eq_some_iff.2 ⟨nonempty, parsed, ?_⟩
  intro earlier absurd
  cases absurd

/-- The header at the start of a probe's window is the first one of every
longer window. -/
theorem exists_ofSource_of_probe
    {σ : Type}
    {source : Source}
    (probed : probe source = true)
    (chunkSize : Nat) :
    ∃ reader : Reader σ, Reader.ofSource source chunkSize = .ok reader := by
  unfold probe at probed
  dsimp only at probed
  split at probed
  · cases probed
  next header parsed =>
    obtain ⟨more, longer⟩ := Nat.exists_eq_add_of_le (Nat.le_max_right (max chunkSize 1) probeSize)
    have found : findHeader? (source.bytesAt 0 (max (max chunkSize 1) probeSize))
        = some (0, header) := by
      apply findHeader?_of_parse?
      rw [longer, Source.bytesAt_add, Header.decidedBy_parse?.append _
        (Header.decidedBy_parse?.long parsed), parsed]
    unfold Reader.ofSource
    dsimp only
    rw [found]
    exact ⟨_, rfl⟩

end Ac3

namespace Dts

theorem isSome_firstHeader?_eq (stored : Bytes) :
    (Reader.firstHeader? stored).isSome = (Layout.detect? stored).isSome := by
  unfold Reader.firstHeader?
  cases detected : Layout.detect? stored with
  | none => rfl
  | some layout =>
      unfold Layout.detect? at detected
      have decoded : (findHeader? (layout.decode stored)).isSome = true := by
        simpa using List.find?_some detected
      obtain ⟨found, isFound⟩ := Option.isSome_iff_exists.1 decoded
      simp [isFound]

/-- A reader whose chunks are no longer than the window of the probe opens on
just that window. -/
theorem exists_ofSource_of_probe
    {σ : Type}
    {source : Source}
    {size chunkSize : Nat}
    (probed : probe source size = true)
    (short : chunkSize ≤ probeSize) :
    ∃ reader : Reader σ, Reader.ofSource source chunkSize = .ok reader := by
  have window : max (max chunkSize 1) probeSize = probeSize := by
    unfold probeSize at short ⊢
    omega
  have present : (Reader.firstHeader? (source.bytesAt 0 probeSize)).isSome = true := by
    unfold probe at probed
    simp only [Bool.and_eq_true] at probed
    rw [isSome_firstHeader?_eq]
    exact probed.2
  obtain ⟨⟨layout, header⟩, found⟩ := Option.isSome_iff_exists.1 present
  unfold Reader.ofSource
  dsimp only
  rw [window, found]
  exact ⟨_, rfl⟩

end Dts

namespace Input

theorem Format.fits_of_detect? {source : Source} {format : Format}
    (detected : detect? source = some format) :
    format.fits source source.size = true := by
  unfold detect? at detected
  simpa using List.find?_some detected

namespace Reader

variable {σ : Type}

theorem exists_map_eq_ok_iff
    {α : Type}
    {format : Format}
    (wrap : α → Reader σ)
    (isFormat : ∀ inner, (wrap inner).format = format)
    (opened : Except Fault α) :
    (∃ reader, wrap <$> opened = .ok reader ∧ reader.format = format)
      ↔ ∃ inner, opened = .ok inner := by
  cases opened with
  | error fault =>
      constructor
      · rintro ⟨reader, absurd, -⟩
        cases absurd
      · rintro ⟨inner, absurd⟩
        cases absurd
  | ok inner => exact iff_of_true ⟨wrap inner, rfl, isFormat inner⟩ ⟨inner, rfl⟩

/-- A source of a raw format opens as such, except where the first major sync
unit of a TrueHD stream reaches into the trailing tag. -/
theorem exists_ofSourceAs_iff_of_fits
    {source : Source}
    {format : Format}
    (fits : format.fits source source.size = true)
    (isRaw : format ≠ .programStream) :
    (∃ reader : Reader σ, ofSourceAs format source = .ok reader ∧ reader.format = format)
      ↔ (format = .trueHd → TrueHd.SyncsBeforeTag source) := by
  cases format with
  | programStream => exact absurd rfl isRaw
  | trueHd =>
      have opens := TrueHd.Reader.exists_ofSource_iff_of_probe (σ := σ) fits TrueHd.windowSize
      unfold ofSourceAs
      rw [exists_map_eq_ok_iff trueHd (fun _ => rfl), opens]
      exact ⟨fun before _ => before, fun before => before rfl⟩
  | dts =>
      have opens := Dts.exists_ofSource_of_probe (σ := σ) fits
        (by decide : Elementary.defaultChunkSize ≤ Dts.probeSize)
      unfold ofSourceAs
      rw [exists_map_eq_ok_iff dts (fun _ => rfl)]
      exact iff_of_true opens (by simp)
  | ac3 =>
      have opens := Ac3.exists_ofSource_of_probe (σ := σ) fits Elementary.defaultChunkSize
      unfold ofSourceAs
      rw [exists_map_eq_ok_iff ac3 (fun _ => rfl)]
      exact iff_of_true opens (by simp)

/-- **What is recognised opens**, except where the first major sync unit of a
TrueHD stream reaches into the trailing tag. -/
theorem exists_ofSource_iff_of_detected
    {source : Source}
    {format : Format}
    (detected : Format.detect? source = some format)
    (isRaw : format ≠ .programStream) :
    (∃ reader : Reader σ, ofSource source = .ok reader ∧ reader.format = format)
      ↔ (format = .trueHd → TrueHd.SyncsBeforeTag source) := by
  have fits := Format.fits_of_detect? detected
  unfold ofSource
  rw [detected]
  exact exists_ofSourceAs_iff_of_fits fits isRaw

end Reader

/-- A TrueHD stream of two major sync units, before a tag. -/
def twoSyncs : Source :=
  Source.ofBytes
    ([0xF0, 0x06, 0x00, 0x00, 0xF8, 0x72, 0x6F, 0xBA, 0x00, 0x00, 0x00, 0x01,
      0xF0, 0x06, 0x00, 0x00, 0xF8, 0x72, 0x6F, 0xBA, 0x00, 0x00, 0x00, 0x01,
      0x54, 0x41, 0x47] ++ List.replicate 125 0)

theorem Reader.exists_ofSource_twoSyncs :
    Format.detect? twoSyncs = some .trueHd
      ∧ TrueHd.SyncsBeforeTag twoSyncs
      ∧ ∃ reader : Reader Journal, ofSource twoSyncs = .ok reader ∧ reader.format = .trueHd := by
  have detected : Format.detect? twoSyncs = some .trueHd := by decide +kernel
  have first : (TrueHd.Survey.ofBytes
      (twoSyncs.bytesAt (Id3.leadingTagSize twoSyncs) TrueHd.windowSize)).firstSync
        = some (0, TrueHd.trueHdFrame 12 1) := by
    decide +kernel
  have before : TrueHd.SyncsBeforeTag twoSyncs := by
    intro place frame found
    rw [first] at found
    cases found
    decide +kernel
  exact ⟨detected, before,
    (exists_ofSource_iff_of_detected detected (by decide)).2 fun _ => before⟩

/-- A file whose tag holds two major sync units behind the word that starts
it. -/
def syncsInTag : Source :=
  Source.ofBytes
    ([0x00, 0x00, 0x00, 0x00, 0x00, 0x00, 0x00, 0x00, 0x54, 0x41, 0x47,
      0xF0, 0x06, 0x00, 0x00, 0xF8, 0x72, 0x6F, 0xBA, 0x00, 0x00, 0x00, 0x01,
      0xF0, 0x06, 0x00, 0x00, 0xF8, 0x72, 0x6F, 0xBA, 0x00, 0x00, 0x00, 0x01]
      ++ List.replicate 101 0)

/-- Such a file is recognised as TrueHD and does not open. -/
theorem Reader.not_exists_ofSource_syncsInTag :
    Format.detect? syncsInTag = some .trueHd
      ∧ ¬ ∃ reader : Reader Journal, ofSource syncsInTag = .ok reader
          ∧ reader.format = .trueHd := by
  have refused : (ofSource syncsInTag : Except Fault (Reader Journal)).isOk = false := by
    decide +kernel
  refine ⟨by decide +kernel, ?_⟩
  rintro ⟨reader, isOpened, -⟩
  rw [isOpened] at refused
  cases refused

end Input

end MediaSplit

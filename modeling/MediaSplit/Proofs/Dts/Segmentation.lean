import MediaSplit.Dts.Reader
import MediaSplit.Proofs.Dts.Header
import MediaSplit.Proofs.Dts.Layout
import MediaSplit.Proofs.Elementary.Stateless

/-!
Contract: what a reader of a raw DTS file delivers.

Owns: that the verdicts of `Dts.scan` fit `Dts.frameAt?`, and from it that the
frames of a file do not depend on the chunks in which it is read.

A frame is cut only once its length can be told, and then the length is that of
the whole file. Where the file ends before that, the rule of the whole file
falls back on the core frame, and so does the last pass of cutting.
-/

set_option autoImplicit false

namespace MediaSplit.Dts

open Elementary

theorem frameAt?_eq_some {data : Bytes} {shape : FrameShape} (found : frameAt? data = some shape) :
    ∃ header, Header.parse? data = some header
      ∧ shape = ⟨(header.frameLength? data).getD header.frameSize, header.duration⟩ := by
  obtain ⟨header, parsed, rfl⟩ := Option.map_eq_some_iff.1 found
  exact ⟨header, parsed, rfl⟩

theorem frameAt?_of_parse?_eq_none {data : Bytes} (refused : Header.parse? data = none) :
    frameAt? data = none := by
  unfold frameAt?
  rw [refused]
  rfl

theorem isSome_duration_of_frameAt? {data : Bytes} {shape : FrameShape}
    (found : frameAt? data = some shape) :
    shape.duration.isSome = true := by
  obtain ⟨header, parsed, rfl⟩ := frameAt?_eq_some found
  exact (Header.isPlayable_of_parse? parsed).isSome_duration

/-- Every frame starts with a sync word. -/
theorem startsWithSync_frameAt? :
    StartsWithSync startsWithSync
      [Bytes.ofNumber 4 coreSync, Bytes.ofNumber 4 substreamSync] 4 frameAt? where
  spells := by
    intro data
    exact Header.startsWithSync_iff data
  wide := by simp
  starts found := by
    obtain ⟨header, parsed, -⟩ := frameAt?_eq_some found
    exact Header.startsWithSync_of_parse? parsed

/-- A length that is decided on the bytes at hand is that of the whole file. -/
theorem getD_frameLength?_of_decided
    {atEnd : Bool}
    {header : Header}
    {visible hidden : Bytes}
    {length : Nat}
    (closed : atEnd = true → hidden = [])
    (decided : decidedLength? atEnd header visible = some length) :
    (header.frameLength? (visible ++ hidden)).getD header.frameSize = length := by
  unfold decidedLength? at decided
  split at decided
  next told =>
    cases decided
    rw [Header.frameLength?_append told]
    rfl
  next untold =>
    split at decided
    next last =>
      cases decided
      rw [Bool.and_eq_true] at last
      rw [closed last.1, List.append_nil, untold]
      rfl
    next => cases decided

theorem bounds_of_decidedLength?
    {atEnd : Bool}
    {header : Header}
    {data : Bytes}
    {length : Nat}
    (decided : decidedLength? atEnd header data = some length) :
    header.frameSize ≤ length ∧ length ≤ header.frameSize + 2 ^ 20 := by
  unfold decidedLength? at decided
  split at decided
  next told =>
    cases decided
    exact Header.bounds_of_frameLength? told
  next =>
    split at decided
    next =>
      cases decided
      exact ⟨Nat.le_refl _, Nat.le_add_right _ _⟩
    next => cases decided

/-- Where the end of the file does not decide, the core frame is cut off. -/
theorem cutOff_of_undecided
    {header : Header}
    {visible : Bytes}
    (undecided : decidedLength? true header visible = none) :
    header.frameLength? visible = none ∧ visible.length < header.frameSize := by
  unfold decidedLength? at undecided
  split at undecided
  next => cases undecided
  next untold =>
    refine ⟨untold, ?_⟩
    simpa [Bytes.hasAtLeast_iff] using undecided

/-- The verdicts on the bytes at hand are right for the whole file. -/
theorem recognises_scan : Recognises scan frameAt? where
  frame {atEnd visible hidden length duration track} closed verdict := by
    unfold scan at verdict
    split at verdict
    next enough =>
      rw [Bytes.hasAtLeast_iff] at enough
      split at verdict
      next header parsed =>
        split at verdict
        next decided =>
          cases verdict
          have same := getD_frameLength?_of_decided closed decided
          have core := (bounds_of_decidedLength? decided).1
          have positive := (Header.isPlayable_of_parse? parsed).frameSize
          refine ⟨?_, Nat.lt_of_lt_of_le positive core, rfl⟩
          unfold frameAt?
          rw [Header.decidedBy_parse?.append _ enough, parsed, Option.map_some, same]
        next => cases verdict
      next => split at verdict <;> cases verdict
    next => cases verdict
  needMore {visible} verdict offset := by
    unfold scan at verdict
    split at verdict
    next =>
      split at verdict
      next header parsed =>
        split at verdict
        next => cases verdict
        next undecided =>
          obtain ⟨untold, cutOff⟩ := cutOff_of_undecided undecided
          have here : frameAt? visible = some ⟨header.frameSize, header.duration⟩ := by
            unfold frameAt?
            rw [parsed, Option.map_some, untold]
            rfl
          exact segments_of_cutOff offset here cutOff
      next => split at verdict <;> cases verdict
    next short =>
      rw [Bytes.hasAtLeast_iff] at short
      apply segments_of_nowhere
      intro place inside
      apply frameAt?_of_parse?_eq_none
      exact Header.decidedBy_parse?.none_of_short (by rw [List.length_drop]; omega)
  skip {atEnd visible hidden count} closed verdict := by
    unfold scan at verdict
    split at verdict
    next enough =>
      rw [Bytes.hasAtLeast_iff] at enough
      split at verdict
      next => split at verdict <;> cases verdict
      next refused =>
        apply startsWithSync_frameAt?.frameAt?_of_dropped
        · apply frameAt?_of_parse?_eq_none
          rw [Header.decidedBy_parse?.append _ enough, refused]
        · split at verdict
          next distance found =>
            cases verdict
            exact .inl ⟨distance, found, rfl⟩
          next found =>
            cases verdict
            exact .inr ⟨found, by omega⟩
    next => cases verdict

theorem decodesGranules_format (layout : Layout) : (format layout).DecodesGranules where
  positive := layout.granule_pos
  nil := layout.decode_nil
  append back whole := layout.decode_append back whole

/-- A reader comes to the end of a file it can open, whatever its chunk size
is, and delivers the frames of the native bytes of the whole file and at most a
tail of them. Offsets mean nothing where words are padded. -/
theorem Reader.exists_run_dtsSegments
    {source : Source}
    {chunkSize : Nat}
    {opened : Reader Journal}
    (isOpened : ofSource source chunkSize = .ok opened) :
    ∃ visited last,
      ReadRun Elementary.Reader.read (opened.stream.attach 0 .accepting).2 visited
          (.ok .done, last)
        ∧ IsFramesThenTail
            ((segments frameAt? 0 (opened.layout.decode source.toBytes)).map fun packet =>
              if opened.layout.isPadded then { packet with position := none } else packet)
            (opened.layout.decode source.toBytes)
            (last.sinks.accepted 0) := by
  simp only [ofSource] at isOpened
  split at isOpened
  next => cases isOpened
  next layout header found =>
    cases isOpened
    obtain ⟨visited, last, run, delivered⟩ :=
      Elementary.Reader.exists_run_of_recognises recognises_scan (format layout) rfl
        (decodesGranules_format layout) isSome_duration_of_frameAt? source (max chunkSize 1)
        (track header)
    refine ⟨visited, last, run, ?_⟩
    have located : (Elementary.Reader.opened (format layout) () source (max chunkSize 1)
          (track header)).located
        = fun packet =>
            if layout.isPadded then { packet with position := none } else packet := by
      funext packet
      show (if !layout.isPadded then packet else { packet with position := none }) = _
      cases layout.isPadded <;> rfl
    rw [located] at delivered
    exact delivered

/-- One frame with the bytes of each word swapped, and an odd byte behind it. -/
def swappedFile : Source :=
  Source.ofBytes
    ([0xFE, 0x7F, 0x01, 0x80, 0x3C, 0xFC, 0xF0, 0x05, 0x00, 0xB4] ++ List.replicate 87 0)

theorem Reader.exists_run_dtsSegments_swappedFile :
    ∃ opened : Reader Journal,
      ofSource swappedFile 5 = .ok opened
        ∧ ∃ visited last,
            ReadRun Elementary.Reader.read (opened.stream.attach 0 .accepting).2 visited
                (.ok .done, last)
              ∧ IsFramesThenTail
                  ((segments frameAt? 0 (opened.layout.decode swappedFile.toBytes)).map
                    fun packet =>
                      if opened.layout.isPadded then { packet with position := none } else packet)
                  (opened.layout.decode swappedFile.toBytes)
                  (last.sinks.accepted 0) := by
  have isOk : (ofSource swappedFile 5 : Except Fault (Reader Journal)).isOk = true := by
    decide +kernel
  obtain ⟨opened, isOpened⟩ := exists_of_isOk isOk
  exact ⟨opened, isOpened, exists_run_dtsSegments isOpened⟩

end MediaSplit.Dts

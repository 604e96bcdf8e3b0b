import MediaSplit.Ac3.Reader
import MediaSplit.Proofs.Ac3.Header
import MediaSplit.Proofs.Elementary.Stateless

/-!
Contract: what a reader of a raw AC-3 file delivers.

Owns: that the verdicts of `Ac3.scan` fit `Ac3.frameAt?`, and from it that the
frames of a file do not depend on the chunks in which it is read.

The last byte of a chunk without a sync word stays pending, since it may be the
first byte of one.
-/

set_option autoImplicit false

namespace MediaSplit.Ac3

open Elementary

theorem frameAt?_eq_some {data : Bytes} {shape : FrameShape} (found : frameAt? data = some shape) :
    ∃ header, Header.parse? data = some header
      ∧ shape = ⟨header.frameSize, header.duration⟩ := by
  obtain ⟨header, parsed, rfl⟩ := Option.map_eq_some_iff.1 found
  exact ⟨header, parsed, rfl⟩

theorem isSome_duration_of_frameAt? {data : Bytes} {shape : FrameShape}
    (found : frameAt? data = some shape) :
    shape.duration.isSome = true := by
  obtain ⟨header, parsed, rfl⟩ := frameAt?_eq_some found
  exact (Header.isPlayable_of_parse? parsed).isSome_duration

/-- Every frame starts with the sync word. -/
theorem startsWithSync_frameAt? :
    StartsWithSync startsWithSync [Bytes.ofNumber 2 syncWord] 2 frameAt? where
  spells := by
    intro data
    rw [Header.startsWithSync_iff, List.mem_singleton]
  wide := by simp
  starts found := by
    obtain ⟨header, parsed, -⟩ := frameAt?_eq_some found
    exact Header.startsWithSync_of_parse? parsed

/-- The verdicts on the bytes at hand are right for the whole file. -/
theorem recognises_scan : Recognises (fun _ => scan) frameAt? where
  frame {atEnd visible hidden length duration track} closed verdict := by
    unfold scan at verdict
    split at verdict
    next enough =>
      rw [Bytes.hasAtLeast_iff] at enough
      split at verdict
      next header parsed =>
        cases verdict
        refine ⟨?_, (Header.isPlayable_of_parse? parsed).frameSize, rfl⟩
        unfold frameAt?
        rw [Header.decidedBy_parse?.append _ enough, parsed]
        rfl
      next =>
        split at verdict <;> cases verdict
    next => cases verdict
  needMore {visible} verdict offset := by
    unfold scan at verdict
    split at verdict
    next =>
      split at verdict
      next => cases verdict
      next => split at verdict <;> cases verdict
    next short =>
      rw [Bytes.hasAtLeast_iff] at short
      apply segments_of_nowhere
      intro place inside
      unfold frameAt?
      rw [Header.decidedBy_parse?.none_of_short (by rw [List.length_drop]; omega)]
      rfl
  skip {atEnd visible hidden count} closed verdict := by
    unfold scan at verdict
    split at verdict
    next enough =>
      rw [Bytes.hasAtLeast_iff] at enough
      split at verdict
      next => cases verdict
      next refused =>
        apply startsWithSync_frameAt?.frameAt?_of_dropped
        · unfold frameAt?
          rw [Header.decidedBy_parse?.append _ enough, refused]
          rfl
        · split at verdict
          next distance found =>
            cases verdict
            exact .inl ⟨distance, found, rfl⟩
          next found =>
            cases verdict
            exact .inr ⟨found, by omega⟩
    next => cases verdict

theorem decodesGranules_format : format.DecodesGranules where
  positive := Nat.zero_lt_one
  nil := rfl
  append _ _ := rfl

/-- A reader comes to the end of a file it can open, whatever its chunk size
is, and delivers the frames of the file and at most a tail of it. -/
theorem Reader.exists_run_ac3Segments
    {source : Source}
    {chunkSize : Nat}
    {opened : Reader Journal}
    (isOpened : ofSource source chunkSize = .ok opened) :
    ∃ visited last,
      ReadRun Elementary.Reader.read (opened.stream.attach 0 .accepting).2 visited
          (.ok .done, last)
        ∧ IsFramesThenTail (segments frameAt? 0 source.toBytes) source.toBytes
            (last.sinks.accepted 0) := by
  simp only [ofSource] at isOpened
  split at isOpened
  next => cases isOpened
  next offset header found =>
    cases isOpened
    obtain ⟨visited, last, run, delivered⟩ :=
      Elementary.Reader.exists_run_of_recognises recognises_scan format rfl
        decodesGranules_format isSome_duration_of_frameAt? source (max chunkSize 1) (track header)
    refine ⟨visited, last, run, ?_⟩
    have located : (Elementary.Reader.opened format () source (max chunkSize 1)
        (track header)).located = id := rfl
    rw [located, List.map_id] at delivered
    exact delivered

/-- A stray byte, two short frames of E-AC-3 and the start of a sync word. -/
def strayFile : Source :=
  Source.ofBytes [
    0xFF,
    0x0B, 0x77, 0x00, 0x03, 0x34, 0x80, 0x00, 0x00,
    0x0B, 0x77, 0x00, 0x03, 0x34, 0x80, 0x00, 0x00,
    0x0B]

theorem Reader.exists_run_ac3Segments_strayFile :
    ∃ opened : Reader Journal,
      ofSource strayFile 5 = .ok opened
        ∧ ∃ visited last,
            ReadRun Elementary.Reader.read (opened.stream.attach 0 .accepting).2 visited
                (.ok .done, last)
              ∧ IsFramesThenTail (segments frameAt? 0 strayFile.toBytes) strayFile.toBytes
                  (last.sinks.accepted 0) := by
  have isOk : (ofSource strayFile 5 : Except Fault (Reader Journal)).isOk = true := by
    decide +kernel
  obtain ⟨opened, isOpened⟩ := exists_of_isOk isOk
  exact ⟨opened, isOpened, exists_run_ac3Segments isOpened⟩

end MediaSplit.Ac3

import MediaSplit.Proofs.Elementary.Run
import MediaSplit.Proofs.Elementary.Segments
import MediaSplit.Proofs.TrueHd.Unit
import MediaSplit.TrueHd.Reader

/-!
Contract: what a reader of a raw TrueHD or MLP file delivers.

Owns:
- that cutting chunk by chunk finds `TrueHd.segments` of the whole payload and
  leaves the bytes behind the last unit;
- `TrueHd.payloadPackets`, the units of a payload and those bytes as one more
  packet, and that the sinks of a reader are given these packets, each those of
  its track, whatever the chunks were.

A unit whose end is not at hand is classified again after every chunk, each
time by a classifier that has seen it before. The invariant of the inductions
is that the rest of the stream is cut as the classifier of the first look would
cut it.
-/

set_option autoImplicit false

namespace MediaSplit

namespace FrameAssembler

open TrueHd

/-- A pass of cutting takes the next units off the rest of the stream, of which
`hidden` has not been seen yet, and stops where no unit is complete. -/
theorem truehdSegments_of_cutOnto
    (hidden : Bytes)
    (found : Array Packet)
    (classifier : Classifier)
    (assembler : FrameAssembler) :
    ∃ packets last after,
      cutOnto Classifier.scan found classifier assembler = (found ++ packets, last, after)
        ∧ after.base + after.pending.length = assembler.base + assembler.pending.length
        ∧ segments classifier assembler.base (assembler.pending ++ hidden)
            = (segments last after.base (after.pending ++ hidden)).map (packets.toList ++ ·) id
        ∧ segments last after.base after.pending = ([], after.pending) := by
  fun_induction cutOnto Classifier.scan found classifier assembler with
  | case1 found classifier assembler isEmpty =>
      refine ⟨#[], classifier, assembler, by simp, rfl, rfl, ?_⟩
      rw [isEmpty]
      exact segments_nil _ _
  | case2 found classifier assembler nonempty length duration track last verdict holds
      inductionHypothesis =>
      obtain ⟨packets, final, after, cut, ends, same, stuck⟩ := inductionHypothesis
      obtain ⟨frame, classified, rfl, rfl, rfl⟩ := Classifier.classify_of_scan_frame verdict
      have whole := Classifier.classify_append hidden classified (by simp)
      obtain ⟨positive, inside⟩ := (holdsFrame_iff assembler frame.size).1 holds
      have fits : 0 < frame.size ∧ frame.size ≤ (assembler.pending ++ hidden).length := by
        rw [List.length_append]
        omega
      have packet : assembler.frameAhead frame.size frame.duration frame.track
          = frame.packet assembler.base (assembler.pending ++ hidden) := by
        unfold frameAhead Frame.packet FrameShape.packet
        rw [List.take_append_of_le_length inside]
      simp only [behindFrame] at ends same
      refine ⟨#[assembler.frameAhead frame.size frame.duration frame.track] ++ packets, final, after,
        ?_, ?_, ?_, stuck⟩
      · rw [cut]
        simp
      · rw [ends, List.length_drop]
        omega
      · rw [segments_of_frame _ (congrArg Prod.fst whole) fits, whole,
          List.drop_append_of_le_length inside, same]
        simp [Prod.map, packet]
  | case3 found classifier assembler nonempty length duration track last verdict lacks =>
      -- the verdict is kept, and the classifier has seen a unit that stays pending
      obtain ⟨frame, classified, rfl, rfl, rfl⟩ := Classifier.classify_of_scan_frame verdict
      rw [holdsFrame_iff] at lacks
      refine ⟨#[], last, assembler, by simp, rfl, ?_, ?_⟩
      · rw [segments_of_classified assembler.base hidden classified]
        rfl
      · have again := segments_of_classified assembler.base [] classified
        rw [List.append_nil] at again
        rw [again, segments_of_cutOff _ (congrArg Prod.fst classified) lacks]
  | case4 found classifier assembler nonempty last verdict =>
      have classified := Classifier.classify_of_scan_needMore verdict
      have waits := congrArg Prod.fst classified
      obtain rfl : classifier = last := by
        rw [Classifier.classify_of_needMore waits] at classified
        exact (Prod.mk.inj classified).2
      exact ⟨#[], classifier, assembler, by simp, rfl, rfl, segments_of_needMore _ waits⟩
  | case5 found classifier assembler nonempty count last verdict inductionHypothesis =>
      obtain ⟨packets, final, after, cut, ends, same, stuck⟩ := inductionHypothesis
      obtain ⟨classified, rfl⟩ := Classifier.classify_of_scan_skip verdict
      have whole := Classifier.classify_append hidden classified (by simp)
      obtain ⟨byte, rest, isPending⟩ := List.exists_cons_of_ne_nil nonempty
      simp only [dropping, Bytes.dropUpTo_eq, isPending] at ends same
      refine ⟨packets, final, after, cut, ?_, ?_, stuck⟩
      · rw [ends, isPending]
        simp
        omega
      · rw [isPending, List.cons_append] at whole ⊢
        rw [segments_of_noFrame _ byte _ (congrArg Prod.fst whole), whole]
        simpa using same

/-- Whatever the chunks are, cutting finds the units of the whole stream and
leaves the bytes behind the last of them. -/
theorem cutChunks_eq_truehdSegments
    (chunks : List Bytes)
    (classifier : Classifier)
    (assembler : FrameAssembler) :
    ∃ packets after,
      cutChunks (fun _ => Classifier.scan) chunks classifier assembler = (packets, after)
        ∧ after.base + after.pending.length
            = assembler.base + (assembler.pending ++ chunks.flatten).length
        ∧ segments classifier assembler.base (assembler.pending ++ chunks.flatten)
            = (packets, after.pending) := by
  induction chunks generalizing classifier assembler with
  | nil =>
      obtain ⟨packets, last, after, cut, ends, same, stuck⟩ :=
        truehdSegments_of_cutOnto [] #[] classifier assembler
      refine ⟨packets.toList, after, ?_, ?_, ?_⟩
      · simp [cutChunks, FrameAssembler.cut, cut]
      · simpa using ends
      · rw [List.flatten_nil, same, List.append_nil, stuck]
        simp
  | cons chunk rest inductionHypothesis =>
      obtain ⟨packets, last, after, cut, ends, same, -⟩ :=
        truehdSegments_of_cutOnto rest.flatten #[] classifier (assembler.push chunk)
      obtain ⟨later, final, cutLater, endsLater, sameLater⟩ := inductionHypothesis last after
      simp only [push, List.append_assoc] at ends same
      refine ⟨packets.toList ++ later, final, ?_, ?_, ?_⟩
      · simp [cutChunks, FrameAssembler.cut, cut, cutLater]
      · rw [endsLater]
        simp only [List.length_append, List.flatten_cons] at ends ⊢
        omega
      · rw [List.flatten_cons, same, sameLater]
        rfl

end FrameAssembler

namespace TrueHd

open Elementary

/-! ## Payloads -/

/-- The packets of a payload that starts at `offset`: its units, and whatever
is behind the last of them as one more packet. -/
def payloadPackets (offset : Nat) (data : Bytes) : List Packet :=
  let (units, rest) := segments .initial offset data
  units
    ++ if rest = [] then []
      else [{ Packet.ofPayload rest with position := some (offset + data.length - rest.length) }]

/-- The bytes between the tags of a source; a tag at the start wins where the
two overlap. -/
def payload (source : Source) : Bytes :=
  let start := Id3.leadingTagSize source
  source.bytesAt start (max (source.size - Id3.trailingTagSize source) start - start)

/-- Whether AC-3 frames are found between the units when a source is opened. -/
def carriesAc3 (source : Source) : Bool :=
  (Survey.ofBytes ((payload source).take windowSize)).firstAc3.isSome

/-- A stream before its first chunk, at the payload of `source`. -/
structure Begins (stream : Elementary.Reader Journal Classifier) (source : Source) : Prop where
  format : stream.format = format
  classifier : stream.classifier = .initial
  assembler : stream.assembler = .startingAt (Id3.leadingTagSize source)
  unread : stream.unread = payload source
  sinks : stream.sinks = .ofTracks stream.tracks.length
  notDone : stream.isDone = false
  hasTrack : ∀ track,
    track < stream.tracks.length ↔ track = 0 ∨ track = 1 ∧ carriesAc3 source = true

theorem begins_ofSource
    {source : Source}
    {chunkSize : Nat}
    {opened : Reader Journal}
    (isOpened : Reader.ofSource source chunkSize = .ok opened) :
    Begins opened.stream source := by
  simp only [Reader.ofSource] at isOpened
  split at isOpened
  next => cases isOpened
  next sync _ =>
    cases isOpened
    refine
      { format := rfl
        classifier := rfl
        assembler := rfl
        unread := rfl
        sinks := rfl
        notDone := rfl
        hasTrack := fun track => ?_ }
    unfold carriesAc3 payload
    rw [Source.take_bytesAt, Nat.min_comm]
    simp only [Elementary.Reader.starting, Reader.tracks, List.length_cons]
    cases (Survey.ofBytes _).firstAc3 with
    | none => simp
    | some frame => simp; omega

/-- Whatever the chunks are, they come to the packets of the payload. -/
theorem Begins.outcome
    {stream : Elementary.Reader Journal Classifier}
    {source : Source}
    (begins : Begins stream source)
    (chunks : List Bytes) :
    stream.outcome chunks = payloadPackets (Id3.leadingTagSize source) chunks.flatten := by
  obtain ⟨packets, after, cut, ends, same⟩ :=
    FrameAssembler.cutChunks_eq_truehdSegments chunks .initial
      (.startingAt (Id3.leadingTagSize source))
  simp only [FrameAssembler.startingAt, List.nil_append] at ends same
  have located : stream.located = id := by
    funext packet
    unfold Elementary.Reader.located
    rw [begins.format]
    rfl
  have scans : TrueHd.format.scan = fun _ => Classifier.scan := rfl
  have base : after.base
      = Id3.leadingTagSize source + chunks.flatten.length - after.pending.length := by
    omega
  unfold Elementary.Reader.outcome payloadPackets
  rw [located, begins.classifier, begins.assembler, begins.format, scans, cut, same]
  simp only [List.map_id, FrameAssembler.takeRest]
  by_cases nothing : after.pending = []
  · rw [if_pos nothing, if_pos nothing]
    rfl
  · rw [if_neg nothing, if_neg nothing, ← base]
    simp [FrameAssembler.frameAhead, Packet.ofPayload]

theorem decode_format (data : Bytes) : format.decode data = data := rfl

theorem decodesGranules_format : format.DecodesGranules where
  positive := Nat.zero_lt_one
  nil := rfl
  append _ _ := rfl

/-! ## Readers -/

/-- A reader comes to the end of a file it can open, whatever its chunk size
is, and each of its tracks is given its packets of the payload. -/
theorem Reader.exists_run_payloadPackets
    {source : Source}
    {chunkSize : Nat}
    {opened : Reader Journal}
    (isOpened : ofSource source chunkSize = .ok opened) :
    ∃ visited last,
      ReadRun Elementary.Reader.read opened.stream.attachedToAll visited (.ok .done, last)
        ∧ ∀ track, last.sinks.accepted track
            = if track = 0 ∨ track = 1 ∧ carriesAc3 source then
                (payloadPackets (Id3.leadingTagSize source) (payload source)).filter
                  (·.track = track)
              else [] := by
  have begins := begins_ofSource isOpened
  have decodes : opened.stream.format.DecodesGranules := by
    rw [begins.format]
    exact decodesGranules_format
  obtain ⟨visited, last, chunks, run, flatten, received⟩ :=
    opened.stream.exists_run_attachedToAll decodes begins.sinks begins.notDone
  have whole : chunks.flatten = payload source := by
    rw [flatten, begins.format, begins.unread, decode_format]
  refine ⟨visited, last, run, fun track => ?_⟩
  rw [received, begins.outcome, whole]
  simp only [begins.hasTrack]

/-- A leading tag, a stray byte, a major sync unit, an AC-3 frame, a unit
without a major sync, three bytes that are no unit, and a trailing tag. -/
def taggedFile : Source :=
  Source.ofBytes
    ([0x49, 0x44, 0x33, 3, 0, 0, 0, 0, 0, 0, 0x00,
      0xF0, 0x06, 0x00, 0x00, 0xF8, 0x72, 0x6F, 0xBA, 0x00, 0x00, 0x00, 0x00,
      0x0B, 0x77, 0x00, 0x03, 0x34, 0x80, 0x00, 0x00,
      0xF0, 0x06, 0x00, 0x00, 0x00, 0x00, 0x00, 0x00, 0x00, 0x00, 0x00, 0x00,
      0x01, 0x02, 0x03, 0x54, 0x41, 0x47] ++ List.replicate 125 0)

theorem Reader.exists_run_payloadPackets_taggedFile :
    ∃ opened : Reader Journal,
      ofSource taggedFile 5 = .ok opened
        ∧ ∃ visited last,
            ReadRun Elementary.Reader.read opened.stream.attachedToAll visited (.ok .done, last)
              ∧ ∀ track, last.sinks.accepted track
                  = if track = 0 ∨ track = 1 ∧ carriesAc3 taggedFile then
                      (payloadPackets (Id3.leadingTagSize taggedFile) (payload taggedFile)).filter
                        (·.track = track)
                    else [] := by
  have isOk : (ofSource taggedFile 5 : Except Fault (Reader Journal)).isOk = true := by
    decide +kernel
  obtain ⟨opened, isOpened⟩ := exists_of_isOk isOk
  exact ⟨opened, isOpened, exists_run_payloadPackets isOpened⟩

end TrueHd

end MediaSplit

import MediaSplit.Elementary.Reader
import MediaSplit.Proofs.Elementary.Segments
import MediaSplit.Proofs.Reading
import MediaSplit.Proofs.Sink.Delivery
import MediaSplit.Proofs.Source

/-!
Contract: what a reader of a raw stream delivers up to its end.

Owns:
- `Elementary.Format.DecodesGranules`, the one thing a reader needs to know
  about stored layouts;
- `Reader.unread`, the part of the stream that is still to be read, and how one
  call of `read` shortens it;
- `Reader.exists_run`: reading ends, and what it delivers is what
  `FrameAssembler.cutChunks` makes of some chunks of the unread bytes;
- `Reader.attachedToAll`, a reader with a journal on each track, and what each
  journal is given.

Does **not** own: which frames these are.

All but the last chunk are whole numbers of granules, so the native bytes of
the chunks are the native bytes of the whole stream. The last chunk is known by
being short or by reaching a given end of the stream.
-/

set_option autoImplicit false

namespace MediaSplit.Elementary

/-- Stored bytes are converted granule by granule. -/
structure Format.DecodesGranules {τ : Type} (format : Format τ) : Prop where
  positive : 0 < format.granule
  nil : format.decode [] = []
  append :
    ∀ {front : Bytes} (back : Bytes),
      format.granule ∣ front.length →
      format.decode (front ++ back) = format.decode front ++ format.decode back

namespace Reader

variable {σ τ : Type}

/-! ## What is still to be read -/

/-- The stored bytes of the stream behind the read position. -/
def unread (reader : Reader σ τ) : Bytes :=
  reader.source.bytesAt reader.source.position
    (reader.streamEnd.getD reader.source.size - reader.source.position)

/-- The size of a chunk that no end cuts short. -/
def fullChunk (reader : Reader σ τ) : Nat :=
  max (reader.chunkSize / reader.format.granule) 1 * reader.format.granule

theorem fullChunk_pos (reader : Reader σ τ) (positive : 0 < reader.format.granule) :
    0 < reader.fullChunk :=
  Nat.mul_pos (Nat.lt_of_lt_of_le Nat.zero_lt_one (Nat.le_max_right _ _)) positive

theorem wanted_le_fullChunk (reader : Reader σ τ) : reader.wanted ≤ reader.fullChunk := by
  unfold wanted fullChunk
  cases reader.streamEnd with
  | none => exact Nat.le_refl _
  | some streamEnd => exact Nat.min_le_left _ _

/-- The stored bytes of the next chunk. -/
def nextChunk (reader : Reader σ τ) : Bytes := reader.unread.take reader.fullChunk

theorem length_nextChunk (reader : Reader σ τ) :
    reader.nextChunk.length = min reader.fullChunk reader.unread.length :=
  List.length_take

/-- The next chunk is the start of what is still to be read. -/
theorem bytesAt_wanted (reader : Reader σ τ) :
    reader.source.bytesAt reader.source.position reader.wanted
      = reader.nextChunk := by
  unfold nextChunk unread wanted fullChunk
  rw [Source.take_bytesAt]
  cases reader.streamEnd with
  | some streamEnd => rfl
  | none =>
      have bounded : ∀ count,
          reader.source.bytesAt reader.source.position
              (min count (reader.source.size - reader.source.position))
            = reader.source.bytesAt reader.source.position count := by
        intro count
        by_cases short : count ≤ reader.source.size - reader.source.position
        · rw [Nat.min_eq_left short]
        · rw [Nat.min_eq_right (by omega), Source.bytesAt_of_size_le _ (by omega),
            Source.bytesAt_of_size_le _ (by omega)]
      exact (bounded _).symm

/-- Taking in a chunk shortens what is still to be read, and leaves all but the
source and the assembler alone. -/
theorem exists_takeChunk (reader : Reader σ τ) :
    ∃ source,
      reader.takeChunk
        = (reader.nextChunk.length,
            { reader with
              source := source
              assembler :=
                reader.assembler.push (reader.format.decode reader.nextChunk) })
      ∧ source.size = reader.source.size
      ∧ source.position
          = reader.source.position + reader.nextChunk.length
      ∧ ({ reader with source := source } : Reader σ τ).unread
          = reader.unread.drop reader.nextChunk.length := by
  refine ⟨reader.source.movedTo
    (reader.source.position + reader.nextChunk.length), ?_, rfl, rfl, ?_⟩
  · unfold takeChunk
    rw [bytesAt_wanted]
  · unfold unread
    rw [Source.drop_bytesAt, Nat.sub_sub]
    rfl

/-- Behind a chunk that is not full, and at the end of the stream, nothing is
left to be read. -/
theorem drop_unread_of_last
    (reader : Reader σ τ)
    (last : reader.nextChunk.length < reader.wanted ∨
      ∃ streamEnd, reader.streamEnd = some streamEnd ∧
        streamEnd ≤ reader.source.position + reader.nextChunk.length) :
    reader.unread.drop reader.nextChunk.length = [] := by
  rw [List.drop_eq_nil_iff, length_nextChunk]
  rcases last with short | ⟨streamEnd, isEnd, reached⟩
  · have bound := reader.wanted_le_fullChunk
    rw [length_nextChunk] at short
    omega
  · have length : reader.unread.length ≤ streamEnd - reader.source.position := by
      unfold unread
      rw [isEnd, Source.length_bytesAt]
      exact Nat.min_le_left _ _
    rw [length_nextChunk] at reached
    omega

/-- A full chunk that is not the last one is a whole number of granules. -/
theorem granule_dvd_of_full
    (reader : Reader σ τ)
    (full : reader.wanted ≤ reader.nextChunk.length)
    (goesOn : ∀ streamEnd, reader.streamEnd = some streamEnd →
      reader.source.position + reader.nextChunk.length < streamEnd) :
    reader.format.granule ∣ reader.nextChunk.length
      ∧ reader.nextChunk.length = reader.fullChunk := by
  have bound : reader.nextChunk.length ≤ reader.fullChunk := by
    rw [length_nextChunk]
    exact Nat.min_le_left _ _
  have same : reader.nextChunk.length = reader.fullChunk := by
    cases isEnd : reader.streamEnd with
    | none =>
        have wanted : reader.wanted = reader.fullChunk := by
          unfold wanted fullChunk
          rw [isEnd]
        omega
    | some streamEnd =>
        have wanted : reader.wanted
            = min reader.fullChunk (streamEnd - reader.source.position) := by
          unfold wanted fullChunk
          rw [isEnd]
        have later := goesOn streamEnd isEnd
        omega
  rw [same]
  exact ⟨Nat.dvd_mul_left _ _, rfl⟩

/-! ## What is delivered -/

section Deliveries

variable (reader : Reader Journal τ)

/-- The packets of all frames in some native chunks behind the pending bytes,
and of the tail they leave. -/
def outcome (chunks : List Bytes) : List Packet :=
  let (frames, assembler) :=
    reader.assembler.cutChunks reader.format.scan chunks reader.classifier
  frames.map reader.located ++ (assembler.takeRest 0).1.toList

/-- The first chunk gives its frames, and the rest is up to the reader that has
delivered them. -/
theorem outcome_cons
    (chunk : Bytes)
    (chunks : List Bytes)
    (sinks : SinkTable Journal)
    (source : Source) :
    let cut := (reader.assembler.push chunk).cut (reader.format.scan false) reader.classifier
    reader.outcome (chunk :: chunks)
      = cut.1.toList.map reader.located
          ++ ({ reader with
                source := source
                sinks := sinks
                classifier := cut.2.1
                assembler := cut.2.2 }).outcome chunks := by
  simp only [outcome, FrameAssembler.cutChunks, List.map_append, List.append_assoc]
  rfl

/-- What a pass of cutting leaves once its frames are delivered. -/
theorem deliverFrames_of_delivered
    {reader : Reader Journal τ}
    {atEnd : Bool}
    {sinks : SinkTable Journal}
    (delivered : reader.sinks.deliverAll
        ((reader.assembler.cut (reader.format.scan atEnd) reader.classifier).1.toList.map
          reader.located)
      = (.ok (), sinks)) :
    reader.deliverFrames atEnd
      = (.ok (), { reader with
          sinks := sinks
          classifier := (reader.assembler.cut (reader.format.scan atEnd) reader.classifier).2.1
          assembler :=
            (reader.assembler.cut (reader.format.scan atEnd) reader.classifier).2.2 }) := by
  unfold deliverFrames
  revert delivered
  rcases reader.assembler.cut (reader.format.scan atEnd) reader.classifier with
    ⟨packets, classifier, assembler⟩
  intro delivered
  simp only [delivered]

/-- Finishing delivers the last frames and the tail. -/
theorem exists_finish
    (accepting : reader.sinks.IsAccepting)
    (notDone : reader.isDone = false) :
    ∃ last, reader.finish = (.ok .done, last) ∧
      reader.sinks.Gains last.sinks (reader.outcome []) := by
  obtain ⟨first, delivered, gains⟩ := accepting.takesPackets.exists_deliverAll
    ((reader.assembler.cut (reader.format.scan true) reader.classifier).1.toList.map reader.located)
  have still := gains.isAccepting accepting
  obtain ⟨second, rest, gainsRest⟩ := still.takesPackets.exists_deliverAll
    (((reader.assembler.cut (reader.format.scan true) reader.classifier).2.2.takeRest 0).1.toList)
  obtain ⟨third, flushed, gainsNone⟩ := (gainsRest.isAccepting still).exists_flushAll
  have frames : ({ reader with isDone := true }).deliverFrames true
      = (.ok (), { reader with
          isDone := true
          sinks := first
          classifier := (reader.assembler.cut (reader.format.scan true) reader.classifier).2.1
          assembler :=
            (reader.assembler.cut (reader.format.scan true) reader.classifier).2.2 }) :=
    deliverFrames_of_delivered delivered
  unfold finish
  rw [notDone, if_neg Bool.false_ne_true, frames]
  simp only [deliverRest, rest, flush, flushed]
  refine ⟨_, rfl, ?_⟩
  have all := (gains.append gainsRest).append gainsNone
  rwa [List.append_nil] at all

/-! ## One call -/

/-- Where nothing is left to be read, the reader finishes with what is pending. -/
theorem exists_read_of_nil
    (decodes : reader.format.DecodesGranules)
    (accepting : reader.sinks.IsAccepting)
    (notDone : reader.isDone = false)
    (isEmpty : reader.unread = []) :
    ∃ last, reader.read = (.ok .done, last)
      ∧ reader.sinks.Gains last.sinks (reader.outcome []) := by
  obtain ⟨source, taken, -⟩ := reader.exists_takeChunk
  have nothing : reader.nextChunk = [] := by
    unfold nextChunk
    rw [isEmpty, List.take_nil]
  rw [nothing, List.length_nil, decodes.nil] at taken
  obtain ⟨last, finished, gains⟩ := exists_finish
    { reader with source := source, assembler := reader.assembler.push [] } accepting notDone
  refine ⟨last, ?_, ?_⟩
  · unfold Reader.read
    rw [notDone, if_neg Bool.false_ne_true, taken]
    exact finished
  · simp only [outcome, FrameAssembler.push, List.append_nil] at gains
    exact gains

/-- `next` has taken in the next chunk and delivered its frames, and the call
of `read` finishes there if the chunk is the last one. -/
structure TakesChunk (reader next : Reader Journal τ) (frames : List Packet) : Prop where
  format : next.format = reader.format
  notDone : next.isDone = false
  unread : next.unread = reader.unread.drop reader.nextChunk.length
  gains : reader.sinks.Gains next.sinks frames
  outcome : ∀ chunks,
    reader.outcome (reader.format.decode reader.nextChunk :: chunks)
      = frames ++ next.outcome chunks
  hasReachedEnd : next.hasReachedEnd = true ↔ ∃ streamEnd, reader.streamEnd = some streamEnd ∧
    streamEnd ≤ reader.source.position + reader.nextChunk.length
  read : reader.read
    = if reader.nextChunk.length < reader.wanted || next.hasReachedEnd then
        next.finish
      else (.ok .moreData, next)

theorem exists_takesChunk
    (decodes : reader.format.DecodesGranules)
    (accepting : reader.sinks.IsAccepting)
    (notDone : reader.isDone = false)
    (nonempty : reader.unread ≠ []) :
    ∃ next frames, reader.TakesChunk next frames := by
  obtain ⟨source, taken, -, moved, behind⟩ := reader.exists_takeChunk
  have positive := reader.fullChunk_pos decodes.positive
  have ahead : 0 < reader.unread.length := List.length_pos_iff.2 nonempty
  obtain ⟨count, isCount⟩ : ∃ count,
      reader.nextChunk.length = count + 1 :=
    Nat.exists_eq_succ_of_ne_zero (by rw [length_nextChunk]; omega)
  generalize isNative :
    reader.format.decode reader.nextChunk = native at taken
  let cut := (reader.assembler.push native).cut (reader.format.scan false) reader.classifier
  obtain ⟨sinks, delivered, gains⟩ :=
    accepting.takesPackets.exists_deliverAll (cut.1.toList.map reader.located)
  let next : Reader Journal τ :=
    { reader with
      source := source, sinks := sinks, classifier := cut.2.1, assembler := cut.2.2 }
  have frames : ({ reader with
      source := source, assembler := reader.assembler.push native }).deliverFrames false
        = (.ok (), next) := deliverFrames_of_delivered delivered
  refine ⟨next, cut.1.toList.map reader.located, ?_⟩
  constructor
  · rfl
  · exact notDone
  · exact behind
  · exact gains
  · intro chunks
    rw [isNative]
    exact reader.outcome_cons native chunks sinks source
  · rw [← moved]
    unfold hasReachedEnd
    rw [Option.any_eq_true]
    simp only [decide_eq_true_eq]
    rfl
  · unfold Reader.read
    rw [notDone, if_neg Bool.false_ne_true, taken, isCount]
    simp only [frames]

namespace TakesChunk

variable {reader} {next : Reader Journal τ} {frames : List Packet}
  (takes : reader.TakesChunk next frames)

include takes

/-- The last chunk is all that was left to be read, and the reader finishes
behind it. -/
theorem exists_last
    (accepting : reader.sinks.IsAccepting)
    (last : (reader.nextChunk.length < reader.wanted
      || next.hasReachedEnd) = true) :
    ∃ final, reader.read = (.ok .done, final)
      ∧ reader.nextChunk = reader.unread
      ∧ reader.sinks.Gains final.sinks
          (reader.outcome [reader.format.decode reader.nextChunk]) := by
  obtain ⟨final, finished, gainsLast⟩ :=
    next.exists_finish (takes.gains.isAccepting accepting) takes.notDone
  refine ⟨final, ?_, ?_, ?_⟩
  · rw [takes.read, if_pos last]
    exact finished
  · have nothing := reader.drop_unread_of_last (by
      rw [← takes.hasReachedEnd]
      simpa using last)
    rw [List.drop_eq_nil_iff, length_nextChunk] at nothing
    exact List.take_of_length_le (by omega)
  · rw [takes.outcome]
    exact takes.gains.append gainsLast

/-- A chunk that is not the last one is a whole number of granules, so what it
decodes to is the start of what is left. -/
theorem more
    (decodes : reader.format.DecodesGranules)
    (goesOn : ¬ (reader.nextChunk.length < reader.wanted
      || next.hasReachedEnd) = true) :
    reader.read = (.ok .moreData, next)
      ∧ next.unread.length = reader.unread.length - reader.fullChunk
      ∧ reader.format.decode reader.unread
          = reader.format.decode reader.nextChunk
              ++ reader.format.decode next.unread := by
  have read := takes.read
  rw [if_neg goesOn] at read
  rw [Bool.or_eq_true, decide_eq_true_eq, not_or, Nat.not_lt, takes.hasReachedEnd] at goesOn
  obtain ⟨granules, isFull⟩ := reader.granule_dvd_of_full goesOn.1 (by
    intro streamEnd isEnd
    exact Nat.lt_of_not_le fun reached => goesOn.2 ⟨streamEnd, isEnd, reached⟩)
  have behind := takes.unread
  rw [isFull] at behind
  refine ⟨read, ?_, ?_⟩
  · rw [behind, List.length_drop]
  · have joined := List.take_append_drop reader.fullChunk reader.unread
    rw [behind, ← decodes.append _ granules]
    exact congrArg _ joined.symm

end TakesChunk

/-! ## All calls -/

/-- Reading comes to its end, and delivers what cutting makes of some chunks of
the unread bytes. -/
theorem exists_run
    (decodes : reader.format.DecodesGranules)
    (accepting : reader.sinks.IsAccepting)
    (notDone : reader.isDone = false) :
    ∃ visited last chunks,
      ReadRun Reader.read reader visited (.ok .done, last)
        ∧ chunks.flatten = reader.format.decode reader.unread
        ∧ reader.sinks.Gains last.sinks (reader.outcome chunks) := by
  induction amount : reader.unread.length using Nat.strongRecOn generalizing reader with
  | ind amount inductionHypothesis =>
      by_cases isEmpty : reader.unread = []
      · obtain ⟨last, read, gains⟩ := reader.exists_read_of_nil decodes accepting notDone isEmpty
        refine ⟨[], last, [], .ended read nofun, ?_, gains⟩
        rw [isEmpty, decodes.nil]
        rfl
      · obtain ⟨next, frames, takes⟩ :=
          reader.exists_takesChunk decodes accepting notDone isEmpty
        by_cases isLast : (reader.nextChunk.length < reader.wanted
          || next.hasReachedEnd) = true
        · obtain ⟨final, read, whole, gains⟩ := takes.exists_last accepting isLast
          refine ⟨[], final, _, .ended read nofun, ?_, gains⟩
          rw [List.flatten_singleton, whole]
        · obtain ⟨read, shorter, split⟩ := takes.more decodes isLast
          have positive := reader.fullChunk_pos decodes.positive
          have ahead : 0 < reader.unread.length := List.length_pos_iff.2 isEmpty
          obtain ⟨visited, last, chunks, run, flatten, gains⟩ :=
            inductionHypothesis next.unread.length (by omega) next (takes.format ▸ decodes)
              (takes.gains.isAccepting accepting) takes.notDone rfl
          refine ⟨next :: visited, last, reader.format.decode reader.nextChunk :: chunks,
            .more read run, ?_, ?_⟩
          · rw [List.flatten_cons, flatten, takes.format, split]
          · rw [takes.outcome]
            exact takes.gains.append gains

end Deliveries

/-! ## Journals on every track -/

section Attached

variable (reader : Reader Journal τ)

/-- Attaches a new journal that refuses nothing to each track. -/
def attachedToAll : Reader Journal τ :=
  (List.range reader.tracks.length).foldl
    (fun reader track => (reader.attach track .accepting).2) reader

theorem attachedToAll_eq :
    reader.attachedToAll
      = { reader with
          sinks := reader.sinks.attachAll
            ((List.range reader.tracks.length).map fun track => (track, fun _ => none)) } := by
  unfold attachedToAll SinkTable.attachAll
  generalize List.range reader.tracks.length = numbers
  induction numbers generalizing reader with
  | nil => rfl
  | cons first rest inductionHypothesis => exact inductionHypothesis _

/-- With journals on all tracks, each is given the packets of its track. -/
theorem exists_run_attachedToAll
    (decodes : reader.format.DecodesGranules)
    (fresh : reader.sinks = .ofTracks reader.tracks.length)
    (notDone : reader.isDone = false) :
    ∃ visited last chunks,
      ReadRun Reader.read reader.attachedToAll visited (.ok .done, last)
        ∧ chunks.flatten = reader.format.decode reader.unread
        ∧ ∀ track, last.sinks.accepted track
            = if track < reader.tracks.length then
                (reader.outcome chunks).filter (·.track = track)
              else [] := by
  rw [attachedToAll_eq, fresh]
  generalize isPolicies : (List.range reader.tracks.length).map
    (fun track => (track, fun _ : List SinkRequest => (none : Option Fault))) = policies
  have isNew := SinkTable.attachAll_ofTracks reader.tracks.length policies
  have accepting : ((SinkTable.ofTracks reader.tracks.length).attachAll policies).IsAccepting := by
    intro track policy isPolicy requests
    have member := (isNew track).2 policy isPolicy
    rw [← isPolicies, List.mem_map] at member
    obtain ⟨_, -, same⟩ := member
    rw [← (Prod.mk.inj same).2]
  obtain ⟨visited, last, chunks, run, flatten, gains⟩ :=
    ({ reader with
        sinks := (SinkTable.ofTracks reader.tracks.length).attachAll policies }).exists_run
      decodes accepting notDone
  refine ⟨visited, last, chunks, run, flatten, fun track => ?_⟩
  have isAttached : ((SinkTable.ofTracks reader.tracks.length).attachAll policies).isAttached track
      = decide (track < reader.tracks.length) := by
    rw [SinkTable.isAttached_attachAll, SinkTable.isAttached_ofTracks, ← isPolicies]
    simp [SinkTable.ofTracks]
  rw [gains.accepted, isAttached, (isNew track).1, List.nil_append]
  simp only [decide_eq_true_eq]
  rfl

end Attached

end Reader

end MediaSplit.Elementary

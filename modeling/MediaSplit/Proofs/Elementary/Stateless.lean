import MediaSplit.Proofs.Elementary.Run

/-!
Contract: formats whose frames are recognised by their first bytes alone.

Owns:
- `Elementary.IsFramesThenTail`, what a sink may be given: the frames, in
  order, and at most one tail without a duration behind them;
- `Reader.exists_run_of_recognises`: a sink on the only track of such a format
  is given the segments of the native bytes, whatever the chunks were.

Does **not** own: any one format. Each shows that its verdicts fit its rule.

A tail is told from a frame by its duration, so every frame of a format has to
play for a known time.
-/

set_option autoImplicit false

namespace MediaSplit.Elementary

/-- Packets that are `frames` with at most one more behind them: some last
bytes of `data`, without a duration, which is what tells it from the frames. -/
structure IsFramesThenTail (frames : List Packet) (data : Bytes) (packets : List Packet) : Prop where
  timed : packets.filter (·.duration.isSome) = frames
  tail :
    ∃ tail : Option Packet, packets = frames ++ tail.toList ∧
      ∀ packet ∈ tail, packet.duration = none ∧ packet.payload <:+ data

/-- Frames that all have a duration are told from a tail that has none. -/
theorem isFramesThenTail_append
    {frames : List Packet}
    {data : Bytes}
    {tail : Option Packet}
    (timed : ∀ packet ∈ frames, packet.duration.isSome = true)
    (untimed : ∀ packet ∈ tail, packet.duration = none ∧ packet.payload <:+ data) :
    IsFramesThenTail frames data (frames ++ tail.toList) := by
  refine ⟨?_, tail, rfl, untimed⟩
  have noTail : tail.toList.filter (·.duration.isSome) = [] := by
    rw [List.filter_eq_nil_iff]
    intro packet member
    rw [(untimed packet (Option.mem_toList.1 member)).1]
    exact Bool.false_ne_true
  rw [List.filter_append, noTail, List.append_nil]
  exact List.filter_eq_self.2 timed

/-- The tail of some pending bytes is all of them. -/
theorem tail_of_takeRest
    {assembler : FrameAssembler}
    {packet : Packet}
    (member : packet ∈ (assembler.takeRest 0).1) :
    packet.duration = none ∧ packet.payload = assembler.pending ∧ packet.track = 0 := by
  unfold FrameAssembler.takeRest at member
  split at member
  · cases member
  · obtain rfl := Option.mem_some_iff.1 member
    exact ⟨rfl, List.take_length, rfl⟩

namespace Reader

variable {τ : Type}

@[simp] theorem duration_located (reader : Reader Journal τ) (packet : Packet) :
    (reader.located packet).duration = packet.duration := by
  unfold located
  split <;> rfl

@[simp] theorem track_located (reader : Reader Journal τ) (packet : Packet) :
    (reader.located packet).track = packet.track := by
  unfold located
  split <;> rfl

section OneTrack

variable (format : Format τ) (classifier : τ) (source : Source) (chunkSize : Nat) (track : Track)

/-- A reader from the start of a source to its end, with a sink on its only
track that refuses nothing. -/
def opened : Reader Journal τ :=
  ((starting format classifier (source.movedTo 0) chunkSize none [track]).attach 0 .accepting).2

theorem isAccepting_opened :
    (opened format classifier source chunkSize track).sinks.IsAccepting := by
  intro slot policy isPolicy
  cases slot with
  | zero =>
      obtain rfl := Option.some.inj isPolicy
      intro requests
      rfl
  | succ slot => cases isPolicy

theorem unread_opened :
    (opened format classifier source chunkSize track).unread = source.toBytes := by
  show source.bytesAt 0 (source.size - 0) = source.toBytes
  rw [Source.bytesAt_eq_slice, Source.size_eq_length]
  simp [Bytes.slice]

end OneTrack

variable {scan : Bool → Bytes → Scan} {frameAt? : Bytes → Option FrameShape}

/-- What a reader delivers is the segments of the rest of the stream, and at
most a tail of it. -/
theorem exists_tail_of_recognises
    (recognises : Recognises scan frameAt?)
    (reader : Reader Journal Unit)
    (scans : reader.format.scan = fun atEnd _ data => (scan atEnd data, ()))
    (chunks : List Bytes) :
    ∃ tail : Option Packet,
      reader.outcome chunks
          = (segments frameAt? reader.assembler.base
              (reader.assembler.pending ++ chunks.flatten)).map reader.located ++ tail.toList
        ∧ ∀ packet ∈ tail, packet.duration = none ∧ packet.track = 0
            ∧ packet.payload <:+ reader.assembler.pending ++ chunks.flatten := by
  obtain ⟨found, suffix⟩ :=
    FrameAssembler.cutChunks_eq_segments recognises chunks reader.assembler
  rw [← scans] at found suffix
  refine ⟨_, congrArg (fun frames => frames.map reader.located ++ _) found, ?_⟩
  intro packet member
  obtain ⟨untimed, payload, onTrack⟩ := tail_of_takeRest member
  rw [payload]
  exact ⟨untimed, onTrack, suffix⟩

/-- Whatever the chunk size is, reading comes to an end, and the sink is given
the segments of the native bytes and at most a tail of them. -/
theorem exists_run_of_recognises
    (recognises : Recognises scan frameAt?)
    (format : Format Unit)
    (scans : format.scan = fun atEnd _ data => (scan atEnd data, ()))
    (decodes : format.DecodesGranules)
    (timed : ∀ {data : Bytes} {shape : FrameShape}, frameAt? data = some shape →
      shape.duration.isSome = true)
    (source : Source)
    (chunkSize : Nat)
    (track : Track) :
    ∃ visited last,
      ReadRun Reader.read (opened format () source chunkSize track) visited (.ok .done, last)
        ∧ IsFramesThenTail
            ((segments frameAt? 0 (format.decode source.toBytes)).map
              (opened format () source chunkSize track).located)
            (format.decode source.toBytes)
            (last.sinks.accepted 0) := by
  obtain ⟨visited, last, chunks, run, flatten, gains⟩ :=
    (opened format () source chunkSize track).exists_run decodes
      (isAccepting_opened format () source chunkSize track) rfl
  obtain ⟨tail, outcome, isTail⟩ :=
    (opened format () source chunkSize track).exists_tail_of_recognises recognises scans chunks
  refine ⟨visited, last, run, ?_⟩
  rw [unread_opened] at flatten
  have native : (opened format () source chunkSize track).assembler.pending ++ chunks.flatten
      = format.decode source.toBytes := flatten
  rw [native] at outcome isTail
  have received : last.sinks.accepted 0
      = ((opened format () source chunkSize track).outcome chunks).filter (·.track = 0) :=
    gains.accepted 0
  have onTrack : ∀ packet ∈ (opened format () source chunkSize track).outcome chunks,
      packet.track = 0 := by
    rw [outcome]
    intro packet member
    rcases List.mem_append.1 member with frame | isLast
    · obtain ⟨segment, isSegment, rfl⟩ := List.mem_map.1 frame
      rw [track_located]
      exact track_of_mem_segments isSegment
    · exact (isTail packet (Option.mem_toList.1 isLast)).2.1
  rw [received, List.filter_eq_self.2 (by simpa using onTrack), outcome]
  apply isFramesThenTail_append
  · intro packet member
    obtain ⟨segment, isSegment, rfl⟩ := List.mem_map.1 member
    obtain ⟨suffix, shape, isFrame, sameDuration⟩ := exists_frame_of_mem_segments isSegment
    rw [duration_located, sameDuration]
    exact timed isFrame
  · intro packet member
    obtain ⟨untimed, -, suffix⟩ := isTail packet member
    exact ⟨untimed, suffix⟩

end Reader

end MediaSplit.Elementary

import MediaSplit.Proofs.Elementary.Run
import MediaSplit.Proofs.Sink.Moving

/-!
Contract: a raw stream that lies further behind in its source.

Owns:
- that cutting frames does not depend on where the pending bytes lie;
- `Elementary.Reader.Moves`, a reader of the same stream bytes at another place,
  and that every call keeps it so and answers the same.

Does **not** own: how two sources come to hold the same stream.

All that tells a reader where it is are its position, the known end of the stream
and the base of the assembler, and these three move together. What lies before
and behind the stream is never read: that is in `unread`, which both readers share.
-/

set_option autoImplicit false

namespace MediaSplit

namespace FrameAssembler

/-- The same pending bytes, further behind in the stream. -/
def movedBy (distance : Nat) (assembler : FrameAssembler) : FrameAssembler :=
  { assembler with base := assembler.base + distance }

variable {distance : Nat}

theorem frameAhead_movedBy
    (assembler : FrameAssembler)
    (length : Nat)
    (duration : Option Int)
    (track : Nat) :
    (assembler.movedBy distance).frameAhead length duration track
      = (assembler.frameAhead length duration track).movedBy distance := rfl

theorem behindFrame_movedBy (assembler : FrameAssembler) (length : Nat) :
    (assembler.movedBy distance).behindFrame length
      = (assembler.behindFrame length).movedBy distance := by
  simp only [behindFrame, movedBy, Nat.add_right_comm]

theorem dropping_movedBy (assembler : FrameAssembler) (count : Nat) :
    (assembler.movedBy distance).dropping count
      = (assembler.dropping count).movedBy distance := by
  simp only [dropping, movedBy, Nat.add_right_comm]

theorem takeRest_movedBy (assembler : FrameAssembler) (track : Nat) :
    (assembler.movedBy distance).takeRest track
      = ((assembler.takeRest track).1.map (·.movedBy distance),
          (assembler.takeRest track).2.movedBy distance) := by
  have same : (assembler.movedBy distance).pending = assembler.pending := rfl
  unfold takeRest
  dsimp only
  rw [same, behindFrame_movedBy, frameAhead_movedBy]
  split <;> rfl

/-- Frames are cut alike wherever the bytes lie. -/
theorem cutOnto_movedBy
    {σ : Type}
    (scan : σ → Bytes → Scan × σ)
    (found : Array Packet)
    (state : σ)
    (assembler : FrameAssembler) :
    cutOnto scan (found.map (·.movedBy distance)) state (assembler.movedBy distance)
      = ((cutOnto scan found state assembler).1.map (·.movedBy distance),
          (cutOnto scan found state assembler).2.1,
          (cutOnto scan found state assembler).2.2.movedBy distance) := by
  have same : ∀ assembler : FrameAssembler,
      (assembler.movedBy distance).pending = assembler.pending := fun _ => rfl
  fun_induction cutOnto scan found state assembler with
  | case1 found state assembler isEmpty =>
      rw [cutOnto, same, if_pos isEmpty]
  | case2 found state assembler nonempty length duration track after verdict holds
      inductionHypothesis =>
      rw [cutOnto, same, if_neg nonempty, verdict]
      dsimp only
      rw [if_pos (show (assembler.movedBy distance).holdsFrame length = true from holds),
        frameAhead_movedBy, behindFrame_movedBy, ← Array.map_push, inductionHypothesis]
  | case3 found state assembler nonempty length duration track after verdict lacks =>
      rw [cutOnto, same, if_neg nonempty, verdict]
      exact if_neg lacks
  | case4 found state assembler nonempty after verdict =>
      rw [cutOnto, same, if_neg nonempty, verdict]
  | case5 found state assembler nonempty count after verdict inductionHypothesis =>
      rw [cutOnto, same, if_neg nonempty, verdict]
      dsimp only
      rw [dropping_movedBy, inductionHypothesis]

theorem cut_movedBy
    {σ : Type}
    (scan : σ → Bytes → Scan × σ)
    (state : σ)
    (assembler : FrameAssembler) :
    (assembler.movedBy distance).cut scan state
      = ((assembler.cut scan state).1.map (·.movedBy distance), (assembler.cut scan state).2.1,
          (assembler.cut scan state).2.2.movedBy distance) := by
  have whole := @cutOnto_movedBy distance σ scan #[] state assembler
  rwa [Array.map_empty] at whole

end FrameAssembler

namespace Elementary.Reader

variable {τ : Type} {distance : Nat} {reader moved : Reader Journal τ}

/-- A reader of the same stream, which lies `distance` bytes further behind in the
source of `moved`. -/
structure Moves (distance : Nat) (reader moved : Reader Journal τ) : Prop where
  format : moved.format = reader.format
  chunkSize : moved.chunkSize = reader.chunkSize
  tracks : moved.tracks = reader.tracks
  classifier : moved.classifier = reader.classifier
  isDone : moved.isDone = reader.isDone
  streamEnd : moved.streamEnd = reader.streamEnd.map (· + distance)
  position : moved.source.position = reader.source.position + distance
  unread : moved.unread = reader.unread
  assembler : moved.assembler = reader.assembler.movedBy distance
  sinks : reader.sinks.Moves distance moved.sinks

theorem located_movedBy (packet : Packet) :
    reader.located (packet.movedBy distance) = (reader.located packet).movedBy distance := by
  unfold located
  split <;> rfl

namespace Moves

variable (moves : Moves distance reader moved)

include moves

theorem wanted : moved.wanted = reader.wanted := by
  unfold Reader.wanted
  rw [moves.format, moves.chunkSize, moves.streamEnd, moves.position]
  cases reader.streamEnd with
  | none => rfl
  | some streamEnd =>
      dsimp only [Option.map_some]
      rw [Nat.add_sub_add_right]

theorem hasReachedEnd : moved.hasReachedEnd = reader.hasReachedEnd := by
  unfold Reader.hasReachedEnd
  rw [moves.streamEnd, moves.position, Option.any_map]
  congr 1
  funext streamEnd
  simp

theorem nextChunk : moved.nextChunk = reader.nextChunk := by
  unfold Reader.nextChunk fullChunk
  rw [moves.unread, moves.format, moves.chunkSize]

theorem attach (track : Nat) (policy : List SinkRequest → Option Fault) :
    AnswersAlike (Moves distance)
      (reader.attach track (.ofPolicy fun requests => policy (requests.map (·.movedBy distance))))
      (moved.attach track (.ofPolicy policy)) := by
  have attached := moves.sinks.attach track policy
  exact ⟨attached.answer, { moves with sinks := attached.after }⟩

theorem map_located (packets : List Packet) :
    (packets.map reader.located).map (·.movedBy distance)
      = (packets.map (·.movedBy distance)).map moved.located := by
  have located : moved.located = reader.located := by
    unfold Reader.located
    rw [moves.format]
  rw [located, List.map_map, List.map_map]
  congr 1
  funext packet
  exact (located_movedBy packet).symm

theorem deliverFrames (atEnd : Bool) :
    AnswersAlike (Moves distance) (reader.deliverFrames atEnd) (moved.deliverFrames atEnd) := by
  unfold Reader.deliverFrames
  rw [moves.assembler, moves.format, moves.classifier, FrameAssembler.cut_movedBy]
  obtain ⟨packets, classifier, assembler⟩ :=
    reader.assembler.cut (reader.format.scan atEnd) reader.classifier
  have delivered := moves.sinks.deliverAll (packets.toList.map reader.located)
  rw [moves.map_located] at delivered
  dsimp only
  rw [Array.toList_map]
  exact ⟨delivered.answer,
    { moves with format := rfl, classifier := rfl, assembler := rfl, sinks := delivered.after }⟩

theorem deliverRest :
    AnswersAlike (Moves distance) reader.deliverRest moved.deliverRest := by
  unfold Reader.deliverRest
  rw [moves.assembler, FrameAssembler.takeRest_movedBy]
  have delivered := moves.sinks.deliverAll (reader.assembler.takeRest 0).1.toList
  rw [← Option.toList_map] at delivered
  exact ⟨delivered.answer, { moves with sinks := delivered.after, assembler := rfl }⟩

theorem flush : AnswersAlike (Moves distance) reader.flush moved.flush := by
  have flushed := moves.sinks.flushAll
  exact ⟨flushed.answer, { moves with sinks := flushed.after }⟩

theorem finish : AnswersAlike (Moves distance) reader.finish moved.finish := by
  unfold Reader.finish
  rw [moves.isDone]
  split
  · exact ⟨rfl, moves⟩
  have ended : Moves distance { reader with isDone := true } { moved with isDone := true } :=
    { moves with isDone := rfl }
  rcases (ended.deliverFrames true).error_or_ok with
    ⟨fault, after, otherAfter, isStep, isOther, still⟩
      | ⟨done, framed, otherFramed, isStep, isOther, still⟩
  · rw [isStep, isOther]
    exact ⟨rfl, still⟩
  rw [isStep, isOther]
  dsimp only
  rcases still.deliverRest.error_or_ok with ⟨fault, after, otherAfter, isStep, isOther, still⟩
    | ⟨done, emptied, otherEmptied, isStep, isOther, still⟩
  · rw [isStep, isOther]
    exact ⟨rfl, still⟩
  rw [isStep, isOther]
  dsimp only
  rcases still.flush.error_or_ok with ⟨fault, after, otherAfter, isStep, isOther, still⟩
    | ⟨done, flushed, otherFlushed, isStep, isOther, still⟩
  · rw [isStep, isOther]
    exact ⟨rfl, still⟩
  · rw [isStep, isOther]
    exact ⟨rfl, still⟩

/-- Both take in the same bytes. -/
theorem takeChunk : AnswersAlike (Moves distance) reader.takeChunk moved.takeChunk := by
  obtain ⟨source, taken, -, position, unread⟩ := reader.exists_takeChunk
  obtain ⟨otherSource, otherTaken, -, otherPosition, otherUnread⟩ := moved.exists_takeChunk
  rw [taken, otherTaken, moves.nextChunk, moves.format]
  refine ⟨rfl, { moves with format := rfl, position := ?_, unread := ?_, assembler := ?_ }⟩
  · dsimp only
    rw [position, otherPosition, moves.position, moves.nextChunk]
    omega
  · rw [moves.unread, moves.nextChunk] at otherUnread
    exact otherUnread.trans unread.symm
  · dsimp only
    rw [moves.assembler]
    rfl

theorem read : AnswersAlike (Moves distance) reader.read moved.read := by
  have taken := moves.takeChunk
  unfold Reader.read
  rw [moves.isDone, moves.wanted]
  split
  · exact ⟨rfl, moves⟩
  generalize reader.takeChunk = step, moved.takeChunk = other at taken
  obtain ⟨count, next⟩ := step
  obtain ⟨otherCount, otherNext⟩ := other
  obtain rfl : otherCount = count := taken.answer
  have still : Moves distance next otherNext := taken.after
  cases otherCount with
  | zero => exact still.finish
  | succ count =>
      rcases (still.deliverFrames false).error_or_ok with
        ⟨fault, after, otherAfter, isStep, isOther, still⟩
          | ⟨done, after, otherAfter, isStep, isOther, still⟩
      · simp only [isStep, isOther]
        exact ⟨rfl, still⟩
      · simp only [isStep, isOther, still.hasReachedEnd]
        split
        · exact still.finish
        · exact ⟨rfl, still⟩

theorem attachedToAll : Moves distance reader.attachedToAll moved.attachedToAll := by
  unfold Reader.attachedToAll
  rw [moves.tracks]
  induction List.range reader.tracks.length generalizing reader moved with
  | nil => exact moves
  | cons track rest inductionHypothesis =>
      exact inductionHypothesis (moves.attach track fun _ => none).after

end Moves

end Elementary.Reader

end MediaSplit

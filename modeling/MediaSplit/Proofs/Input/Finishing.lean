import MediaSplit.Input
import MediaSplit.Proofs.ProgramStream.Run
import MediaSplit.Proofs.Sink.Protocol

/-!
Contract: how readers end.

Owns, for readers of raw streams, of programs and of any input:
- `IsOpen`, a reader that has not finished and has flushed no sink;
- that `finish` marks the reader as done, and what it makes of the sinks of an
  open one, a refusal at any point included;
- that a call of `read` hands over to `finish` or leaves the reader open;
- that a reader that is done answers so and does nothing.

Does **not** own: what is delivered before the end.
-/

set_option autoImplicit false

namespace MediaSplit

/-- What a call of `read` comes to: the step of `finish` from an open reader, or
one that leaves the reader open and does not say that it is done. -/
inductive ReadsOn {ρ : Type} (IsOpen : ρ → Prop) (finish : ρ → Step ρ) : Step ρ → Prop where
  | ends {pending : ρ} (isOpen : IsOpen pending) : ReadsOn IsOpen finish (finish pending)
  | goesOn {answer : Except Fault ReadStatus} {after : ρ}
      (isOpen : IsOpen after)
      (notDone : answer ≠ .ok .done) :
      ReadsOn IsOpen finish (answer, after)

/-- A reader that wraps another one reads on as that one does. -/
theorem ReadsOn.map
    {ρ τ : Type}
    {IsOpen : ρ → Prop}
    {IsOpenWrapped : τ → Prop}
    {finish : ρ → Step ρ}
    {finishWrapped : τ → Step τ}
    {step : Step ρ}
    (wrap : ρ → τ)
    (opens : ∀ reader, IsOpen reader → IsOpenWrapped (wrap reader))
    (finishes : ∀ reader, finishWrapped (wrap reader) = (finish reader).map id wrap)
    (readsOn : ReadsOn IsOpen finish step) :
    ReadsOn IsOpenWrapped finishWrapped (step.map id wrap) := by
  cases readsOn with
  | ends isOpen =>
      rw [← finishes]
      exact .ends (opens _ isOpen)
  | goesOn isOpen notDone => exact .goesOn (opens _ isOpen) notDone

/-! ## Raw streams -/

namespace Elementary.Reader

variable {τ : Type} {reader : Reader Journal τ}

/-- Whether the reader has not finished and no sink has been flushed. -/
structure IsOpen (reader : Reader Journal τ) : Prop where
  notDone : reader.isDone = false
  sinks : reader.sinks.IsOpen

/-- Whether a part of the work only delivers packets. -/
structure Delivers (reader : Reader Journal τ) (work : Reply (Reader Journal τ)) : Prop where
  delivered : ∃ packets, reader.sinks.deliverAll packets = (work.1, work.2.sinks)
  isDone : work.2.isDone = reader.isDone

theorem delivers_deliverFrames (reader : Reader Journal τ) (atEnd : Bool) :
    reader.Delivers (reader.deliverFrames atEnd) :=
  ⟨⟨_, rfl⟩, rfl⟩

theorem delivers_deliverRest (reader : Reader Journal τ) : reader.Delivers reader.deliverRest :=
  ⟨⟨_, rfl⟩, rfl⟩

theorem Delivers.sinks
    {work : Reply (Reader Journal τ)}
    (delivers : reader.Delivers work)
    (isOpen : reader.sinks.IsOpen) :
    work.2.sinks.IsOpen := by
  obtain ⟨packets, delivered⟩ := delivers.delivered
  exact isOpen.deliverAll delivered

theorem Delivers.isOpen
    {work : Reply (Reader Journal τ)}
    (delivers : reader.Delivers work)
    (isOpen : reader.IsOpen) :
    work.2.IsOpen :=
  ⟨delivers.isDone.trans isOpen.notDone, delivers.sinks isOpen.sinks⟩

theorem Delivers.closedWith
    {fault : Fault}
    {after : Reader Journal τ}
    (delivers : reader.Delivers (.error fault, after))
    (isOpen : reader.sinks.IsOpen) :
    after.sinks.ClosedWith (.error fault) := by
  obtain ⟨packets, refused⟩ := delivers.delivered
  exact isOpen.closedWith_of_refused refused

theorem closedWith_flush (isOpen : reader.sinks.IsOpen) :
    reader.flush.2.sinks.ClosedWith (reader.flush.1.map fun _ => .done) :=
  isOpen.flushAll rfl

/-- A reader has finished whatever its sinks refuse, and open sinks have been
closed as far as they let it. -/
theorem finish_of_notDone (notDone : reader.isDone = false) :
    reader.finish.2.isDone = true
      ∧ (reader.sinks.IsOpen → reader.finish.2.sinks.ClosedWith reader.finish.1) := by
  unfold finish
  rw [notDone, if_neg Bool.false_ne_true]
  have frames := delivers_deliverFrames { reader with isDone := true } true
  split
  next fault after refused =>
    rw [refused] at frames
    exact ⟨frames.isDone, fun isOpen => frames.closedWith isOpen⟩
  next after accepted =>
    rw [accepted] at frames
    have rest := delivers_deliverRest after
    split
    next fault last refused =>
      rw [refused] at rest
      exact ⟨rest.isDone.trans frames.isDone, fun isOpen => rest.closedWith (frames.sinks isOpen)⟩
    next last acceptedRest =>
      rw [acceptedRest] at rest
      have marked : last.flush.2.isDone = true := rest.isDone.trans frames.isDone
      have flushed := fun isOpen => closedWith_flush (rest.sinks (frames.sinks isOpen))
      split
      next fault final refused =>
        rw [refused] at marked flushed
        exact ⟨marked, flushed⟩
      next final acceptedFlush =>
        rw [acceptedFlush] at marked flushed
        exact ⟨marked, flushed⟩

theorem isDone_finish (reader : Reader Journal τ) : reader.finish.2.isDone = true := by
  cases isDone : reader.isDone with
  | true =>
      rw [finish, if_pos isDone]
      exact isDone
  | false => exact (finish_of_notDone isDone).1

theorem closedWith_finish (isOpen : reader.IsOpen) :
    reader.finish.2.sinks.ClosedWith reader.finish.1 :=
  (finish_of_notDone isOpen.notDone).2 isOpen.sinks

theorem readsOn_read (isOpen : reader.IsOpen) : ReadsOn IsOpen finish reader.read := by
  unfold read
  rw [isOpen.notDone, if_neg Bool.false_ne_true]
  dsimp only
  have taken : reader.takeChunk.2.IsOpen := ⟨isOpen.notDone, isOpen.sinks⟩
  split
  next after isEmpty =>
    rw [isEmpty] at taken
    exact .ends taken
  next count after _ isChunk =>
    rw [isChunk] at taken
    have delivered := (delivers_deliverFrames after false).isOpen taken
    split
    next fault last refused =>
      rw [refused] at delivered
      exact .goesOn delivered (by simp)
    next last accepted =>
      rw [accepted] at delivered
      split
      · exact .ends delivered
      · exact .goesOn delivered (by simp)

theorem read_of_isDone (isDone : reader.isDone = true) : reader.read = (.ok .done, reader) :=
  if_pos isDone

theorem finish_of_isDone (isDone : reader.isDone = true) : reader.finish = (.ok .done, reader) :=
  if_pos isDone

end Elementary.Reader

/-! ## Programs -/

namespace ProgramStream.Reader

variable {reader : Reader Journal}

/-- Whether the reader has not finished and no sink has been flushed. -/
structure IsOpen (reader : Reader Journal) : Prop where
  notDone : reader.isDone = false
  sinks : reader.sinks.IsOpen

theorem closedWith_finish (isOpen : reader.IsOpen) :
    reader.finish.2.sinks.ClosedWith reader.finish.1 := by
  rw [finish_eq isOpen.notDone]
  split
  next fault sinks refused => exact isOpen.sinks.closedWith_of_refused refused
  next sinks delivered =>
    have stillOpen := isOpen.sinks.deliverAll delivered
    split
    next fault last refused => exact stillOpen.flushAll refused
    next last flushed => exact stillOpen.flushAll flushed

theorem readsOn_read (isOpen : reader.IsOpen) : ReadsOn IsOpen finish reader.read := by
  rw [read_eq isOpen.notDone]
  split
  next error walk failed => exact .goesOn ⟨isOpen.notDone, isOpen.sinks⟩ (by simp)
  next walk nothing => exact .ends ⟨isOpen.notDone, isOpen.sinks⟩
  next delivery walk found =>
    have notDone : (reader.takeIn delivery).2.isDone = false := by
      rw [takeIn_eq]
      exact isOpen.notDone
    split
    next fault _ => exact .goesOn ⟨isOpen.notDone, isOpen.sinks⟩ (by simp)
    next timecode _ =>
    split
    next fault sinks refused => exact .goesOn ⟨notDone, isOpen.sinks.deliverAll refused⟩ (by simp)
    next sinks accepted => exact .goesOn ⟨notDone, isOpen.sinks.deliverAll accepted⟩ (by simp)

theorem read_of_isDone (isDone : reader.isDone = true) : reader.read = (.ok .done, reader) :=
  if_pos isDone

theorem finish_of_isDone (isDone : reader.isDone = true) : reader.finish = (.ok .done, reader) :=
  if_pos isDone

end ProgramStream.Reader

/-! ## Any input -/

namespace Input.Reader

/-- Whether the reader has finished. -/
def isDone {σ : Type} : Reader σ → Bool
  | programStream reader => reader.isDone
  | trueHd reader => reader.stream.isDone
  | dts reader => reader.stream.isDone
  | ac3 reader => reader.stream.isDone

/-- Whether the reader has not finished and no sink has been flushed. -/
structure IsOpen (reader : Reader Journal) : Prop where
  notDone : reader.isDone = false
  sinks : reader.sinks.IsOpen

/-- Whether reading and finishing only say that the end has been reached. -/
structure IsSettled (reader : Reader Journal) : Prop where
  read : reader.read = (.ok .done, reader)
  finish : reader.finish = (.ok .done, reader)

variable {reader : Reader Journal}

theorem isDone_finish (reader : Reader Journal) : reader.finish.2.isDone = true := by
  cases reader with
  | programStream reader => exact reader.isDone_finish
  | trueHd reader => exact reader.stream.isDone_finish
  | dts reader => exact reader.stream.isDone_finish
  | ac3 reader => exact reader.stream.isDone_finish

theorem closedWith_finish (isOpen : reader.IsOpen) :
    reader.finish.2.sinks.ClosedWith reader.finish.1 := by
  obtain ⟨notDone, sinks⟩ := isOpen
  cases reader with
  | programStream reader => exact ProgramStream.Reader.closedWith_finish ⟨notDone, sinks⟩
  | trueHd reader => exact Elementary.Reader.closedWith_finish ⟨notDone, sinks⟩
  | dts reader => exact Elementary.Reader.closedWith_finish ⟨notDone, sinks⟩
  | ac3 reader => exact Elementary.Reader.closedWith_finish ⟨notDone, sinks⟩

theorem readsOn_read (isOpen : reader.IsOpen) : ReadsOn IsOpen finish reader.read := by
  obtain ⟨notDone, sinks⟩ := isOpen
  cases reader with
  | programStream reader =>
      exact (ProgramStream.Reader.readsOn_read ⟨notDone, sinks⟩).map programStream
        (fun _ isOpen => ⟨isOpen.notDone, isOpen.sinks⟩) (fun _ => rfl)
  | trueHd reader =>
      exact (Elementary.Reader.readsOn_read ⟨notDone, sinks⟩).map
        (fun stream => trueHd { reader with stream := stream })
        (fun _ isOpen => ⟨isOpen.notDone, isOpen.sinks⟩) (fun _ => rfl)
  | dts reader =>
      exact (Elementary.Reader.readsOn_read ⟨notDone, sinks⟩).map
        (fun stream => dts { reader with stream := stream })
        (fun _ isOpen => ⟨isOpen.notDone, isOpen.sinks⟩) (fun _ => rfl)
  | ac3 reader =>
      exact (Elementary.Reader.readsOn_read ⟨notDone, sinks⟩).map
        (fun stream => ac3 { reader with stream := stream })
        (fun _ isOpen => ⟨isOpen.notDone, isOpen.sinks⟩) (fun _ => rfl)

theorem isSettled_of_isDone (isDone : reader.isDone = true) : reader.IsSettled := by
  cases reader with
  | programStream reader =>
      constructor
      · rw [read, ProgramStream.Reader.read_of_isDone isDone]
        rfl
      · rw [finish, ProgramStream.Reader.finish_of_isDone isDone]
        rfl
  | trueHd reader =>
      constructor
      · rw [read, Elementary.Reader.read_of_isDone isDone]
        rfl
      · rw [finish, Elementary.Reader.finish_of_isDone isDone]
        rfl
  | dts reader =>
      constructor
      · rw [read, Elementary.Reader.read_of_isDone isDone]
        rfl
      · rw [finish, Elementary.Reader.finish_of_isDone isDone]
        rfl
  | ac3 reader =>
      constructor
      · rw [read, Elementary.Reader.read_of_isDone isDone]
        rfl
      · rw [finish, Elementary.Reader.finish_of_isDone isDone]
        rfl

end Input.Reader

end MediaSplit

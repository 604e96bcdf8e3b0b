import MediaSplit.Proofs.Input.Finishing
import MediaSplit.Proofs.Input.Opening
import MediaSplit.Proofs.ProgramStream.Opening

/-!
Contract: the order in which the sinks of a reader are asked, over every
sequence of calls.

Owns:
- `Input.Call`, one call of a reader's user, and `Reader.afterAll`, a reader
  after some calls;
- `Reader.IsOrderly`, which every call keeps: no sink is asked behind its
  flush, and before the reader is done no sink has been flushed;
- `Reader.KeepsProtocol`, what follows for every sequence of calls, and that
  every opened reader does so.

Attaching is a call like the others, so a sink may come at any time, in place
of another one and after the end too. What a replaced sink has been asked is
what it had been asked when it was replaced.
-/

set_option autoImplicit false

namespace MediaSplit.Input

/-- A call of a reader's user. A sink is attached with the answers it is going
to give. -/
inductive Call where
  | attach (track : Nat) (policy : List SinkRequest → Option Fault)
  | read
  | finish

namespace Call

/-- The reader after a call. -/
def after (reader : Reader Journal) : Call → Reader Journal
  | attach track policy => (reader.attach track (.ofPolicy policy)).2
  | read => reader.read.2
  | finish => reader.finish.2

/-- What a call that does work answers. -/
def answer? (reader : Reader Journal) : Call → Option (Except Fault ReadStatus)
  | attach _ _ => none
  | read => some reader.read.1
  | finish => some reader.finish.1

/-- Whether a call is one of `finish`, or one of `read` that ends in one. -/
def Finishes (reader : Reader Journal) : Call → Prop
  | attach _ _ => False
  | read => ∃ pending : Reader Journal, reader.read = pending.finish
  | finish => True

end Call

namespace Reader

/-- The reader after some calls, one after the other. -/
def afterAll (reader : Reader Journal) (calls : List Call) : Reader Journal :=
  calls.foldl Call.after reader

/-- Whether a reader is one of the four, opened on a source in some way. -/
inductive OpenedFrom {σ : Type} (source : Source) : Reader σ → Prop where
  | programStream {config : ProgramStream.Config} {reader : ProgramStream.Reader σ}
      (isOpened : ProgramStream.Reader.ofSource source config = .ok reader) :
      OpenedFrom source (.programStream reader)
  | trueHd {chunkSize : Nat} {reader : TrueHd.Reader σ}
      (isOpened : TrueHd.Reader.ofSource source chunkSize = .ok reader) :
      OpenedFrom source (.trueHd reader)
  | dts {chunkSize : Nat} {reader : Dts.Reader σ}
      (isOpened : Dts.Reader.ofSource source chunkSize = .ok reader) :
      OpenedFrom source (.dts reader)
  | ac3 {chunkSize : Nat} {reader : Ac3.Reader σ}
      (isOpened : Ac3.Reader.ofSource source chunkSize = .ok reader) :
      OpenedFrom source (.ac3 reader)

/-- How a reader treats its sinks, whatever calls are made. -/
structure KeepsProtocol (opened : Reader Journal) : Prop where
  /-- A sink is flushed at most once, and nothing is asked behind that. -/
  closed : ∀ calls, (opened.afterAll calls).sinks.EachJournal fun journal =>
    journal.IsClosedByFlush ∧ journal.flushCount ≤ 1
  /-- Once `finish` has run, whatever it has answered, nothing more is done. -/
  settled : ∀ before call later, Call.Finishes (opened.afterAll before) call →
    (opened.afterAll (before ++ call :: later)).IsSettled
  /-- Unless a request has been refused, at the first `done` each sink has been
  flushed, behind all its packets. -/
  complete : ∀ calls call,
    (∀ earlier, earlier <+: calls ++ [call] → ¬ (opened.afterAll earlier).sinks.HasRefused) →
    (∀ earlier next, earlier ++ [next] <+: calls →
      Call.answer? (opened.afterAll earlier) next ≠ some (.ok .done)) →
    Call.answer? (opened.afterAll calls) call = some (.ok .done) →
      (opened.afterAll (calls ++ [call])).sinks.EachJournal Journal.IsComplete

/-! ## One call -/

variable {reader : Reader Journal}

/-- What holds between calls. -/
structure IsOrderly (reader : Reader Journal) : Prop where
  shape : reader.sinks.EachJournal fun journal => journal.IsOpen ∨ journal.IsComplete
  isOpen : reader.isDone = false → reader.IsOpen

theorem IsOpen.isOrderly (isOpen : reader.IsOpen) : reader.IsOrderly :=
  ⟨fun track journal present => Or.inl (isOpen.sinks.journals track journal present),
    fun _ => isOpen⟩

theorem isDone_attach (reader : Reader Journal) (track : Nat) (sink : Journal) :
    (reader.attach track sink).2.isDone = reader.isDone := by
  cases reader <;> rfl

theorem sinks_attach (reader : Reader Journal) (track : Nat) (sink : Journal) :
    (reader.attach track sink).2.sinks = (reader.sinks.attach track sink).2 := by
  cases reader <;> rfl

/-- A call leaves an open reader open or ends it. -/
theorem IsOpen.after_cases (isOpen : reader.IsOpen) (call : Call) :
    ((call.after reader).IsOpen ∧ call.answer? reader ≠ some (.ok .done))
      ∨ ((call.after reader).isDone = true
          ∧ ∃ outcome, call.answer? reader = some outcome
            ∧ (call.after reader).sinks.ClosedWith outcome) := by
  cases call with
  | attach track policy =>
      refine Or.inl ⟨⟨(isDone_attach reader track _).trans isOpen.notDone, ?_⟩, ?_⟩
      · exact (sinks_attach reader track _).symm ▸ isOpen.sinks.attach policy track
      · simp [Call.answer?]
  | read =>
      have readsOn := readsOn_read isOpen
      unfold Call.after Call.answer?
      dsimp only
      generalize reader.read = step at readsOn ⊢
      cases readsOn with
      | ends pendingIsOpen =>
          exact Or.inr ⟨isDone_finish _, _, rfl, closedWith_finish pendingIsOpen⟩
      | goesOn stillOpen notDone =>
          exact Or.inl ⟨stillOpen, fun same => notDone (Option.some.inj same)⟩
  | finish => exact Or.inr ⟨isDone_finish reader, _, rfl, closedWith_finish isOpen⟩

theorem isDone_after_of_isDone (isDone : reader.isDone = true) (call : Call) :
    (call.after reader).isDone = true := by
  have settled := isSettled_of_isDone isDone
  cases call with
  | attach track policy => exact (isDone_attach reader track _).trans isDone
  | read => exact (congrArg (·.2.isDone) settled.read).trans isDone
  | finish => exact (congrArg (·.2.isDone) settled.finish).trans isDone

/-- `finish` is run once, from wherever it is called. -/
theorem isDone_after_of_finishes
    {call : Call}
    (finishes : call.Finishes reader) :
    (call.after reader).isDone = true := by
  cases call with
  | attach track policy => exact finishes.elim
  | read =>
      obtain ⟨pending, ends⟩ := finishes
      exact (congrArg (·.2.isDone) ends).trans (isDone_finish pending)
  | finish => exact isDone_finish reader

/-- Every call keeps the order. -/
theorem IsOrderly.after (orderly : reader.IsOrderly) (call : Call) :
    (call.after reader).IsOrderly := by
  cases isDone : reader.isDone with
  | true =>
      have settled := isSettled_of_isDone isDone
      refine ⟨?_, fun notDone => ?_⟩
      · cases call with
        | attach track policy =>
            have attached := orderly.shape.attach
              (Or.inl (Journal.isOpen_ofPolicy policy)) track
            exact (sinks_attach reader track _).symm ▸ attached
        | read => exact (congrArg (·.2.sinks) settled.read).symm ▸ orderly.shape
        | finish => exact (congrArg (·.2.sinks) settled.finish).symm ▸ orderly.shape
      · rw [isDone_after_of_isDone isDone call] at notDone
        cases notDone
  | false =>
      rcases (orderly.isOpen isDone).after_cases call with
        ⟨isOpen, -⟩ | ⟨ended, outcome, -, closed⟩
      · exact isOpen.isOrderly
      · refine ⟨closed.shape, fun notDone => ?_⟩
        rw [ended] at notDone
        cases notDone

/-! ## All calls -/

theorem afterAll_append (reader : Reader Journal) (before later : List Call) :
    reader.afterAll (before ++ later) = (reader.afterAll before).afterAll later :=
  List.foldl_append

theorem IsOrderly.afterAll (orderly : reader.IsOrderly) (calls : List Call) :
    (reader.afterAll calls).IsOrderly := by
  induction calls generalizing reader with
  | nil => exact orderly
  | cons call rest inductionHypothesis => exact inductionHypothesis (orderly.after call)

theorem isDone_afterAll_of_isDone (isDone : reader.isDone = true) (calls : List Call) :
    (reader.afterAll calls).isDone = true := by
  induction calls generalizing reader with
  | nil => exact isDone
  | cons call rest inductionHypothesis =>
      exact inductionHypothesis (isDone_after_of_isDone isDone call)

/-- Without a refusal, a reader is open until it says that it is done. -/
theorem IsOpen.afterAll
    {calls : List Call}
    (isOpen : reader.IsOpen)
    (accepting : ∀ earlier, earlier <+: calls → ¬ (reader.afterAll earlier).sinks.HasRefused)
    (undone : ∀ earlier next, earlier ++ [next] <+: calls →
      Call.answer? (reader.afterAll earlier) next ≠ some (.ok .done)) :
    (reader.afterAll calls).IsOpen := by
  induction calls generalizing reader with
  | nil => exact isOpen
  | cons call rest inductionHypothesis =>
      apply inductionHypothesis
      · rcases isOpen.after_cases call with ⟨stillOpen, -⟩ | ⟨-, outcome, answered, closed⟩
        · exact stillOpen
        · have unlikeDone := undone [] call (List.prefix_append [call] rest)
          have refused := closed.refused fun isDone => unlikeDone (isDone ▸ answered)
          exact absurd refused (accepting [call] (List.prefix_append [call] rest))
      · intro earlier isPrefix
        exact accepting (call :: earlier) (List.cons_prefix_cons.2 ⟨rfl, isPrefix⟩)
      · intro earlier next isPrefix
        exact undone (call :: earlier) next (List.cons_prefix_cons.2 ⟨rfl, isPrefix⟩)

/-! ## Opened readers -/

theorem OpenedFrom.isOpen
    {source : Source}
    (isOpened : reader.OpenedFrom source) :
    reader.IsOpen := by
  cases isOpened with
  | programStream isOpened =>
      obtain ⟨registry, walk, tracks, -, -, -, rfl⟩ :=
        ProgramStream.Reader.ofSource_eq_ok_iff.1 isOpened
      exact ⟨rfl, SinkTable.isOpen_ofTracks _⟩
  | trueHd isOpened =>
      simp only [TrueHd.Reader.ofSource] at isOpened
      split at isOpened
      · cases isOpened
      · cases isOpened
        exact ⟨rfl, SinkTable.isOpen_ofTracks _⟩
  | dts isOpened =>
      simp only [Dts.Reader.ofSource] at isOpened
      split at isOpened
      · cases isOpened
      · cases isOpened
        exact ⟨rfl, SinkTable.isOpen_ofTracks _⟩
  | ac3 isOpened =>
      simp only [Ac3.Reader.ofSource] at isOpened
      split at isOpened
      · cases isOpened
      · cases isOpened
        exact ⟨rfl, SinkTable.isOpen_ofTracks _⟩

/-- **No sink is asked behind its flush**, whichever reader has been opened,
whatever is called and whatever is refused; and where nothing is refused, the
first `done` means that every sink has been flushed. -/
theorem keepsProtocol_of_openedFrom
    {source : Source}
    {opened : Reader Journal}
    (isOpened : opened.OpenedFrom source) :
    opened.KeepsProtocol := by
  have isOpen := isOpened.isOpen
  refine ⟨?_, ?_, ?_⟩
  · intro calls track journal present
    have shape := (isOpen.isOrderly.afterAll calls).shape track journal present
    have closed := Journal.isClosedByFlush_of_isOpen_or_isComplete shape
    exact ⟨closed, Journal.flushCount_le_one_of_isClosedByFlush closed⟩
  · intro before call later finishes
    rw [afterAll_append]
    have isDone := isDone_after_of_finishes finishes
    exact isSettled_of_isDone (isDone_afterAll_of_isDone isDone later)
  · intro calls call accepting undone answered
    have stillOpen : (opened.afterAll calls).IsOpen := by
      refine isOpen.afterAll ?_ undone
      intro earlier isPrefix
      exact accepting earlier (isPrefix.trans (List.prefix_append calls [call]))
    rw [afterAll_append]
    rcases stillOpen.after_cases call with ⟨-, unlikeDone⟩ | ⟨-, outcome, isAnswer, closed⟩
    · exact absurd answered unlikeDone
    · rw [isAnswer] at answered
      exact closed.done (Option.some.inj answered)

theorem keepsProtocol_twoSyncs :
    ∃ opened : Reader Journal, opened.OpenedFrom twoSyncs ∧ opened.KeepsProtocol := by
  have isOk : (TrueHd.Reader.ofSource twoSyncs 5 : Except Fault (TrueHd.Reader Journal)).isOk
      = true := by
    decide +kernel
  obtain ⟨stream, isOpened⟩ := exists_of_isOk isOk
  exact ⟨_, .trueHd isOpened, keepsProtocol_of_openedFrom (.trueHd isOpened)⟩

end Reader

end MediaSplit.Input

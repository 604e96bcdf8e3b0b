import MediaSplit.Proofs.Sink.Delivery
import MediaSplit.ReadStatus

/-!
Contract: in which order the sinks of a table are asked.

Owns:
- the two shapes that the record of a journal may have, `Journal.IsOpen`
  before its flush and `Journal.IsComplete` behind it, and what both exclude;
- `SinkTable.IsOpen`, a table of which no sink has been flushed, and that
  deliveries and new sinks keep it so;
- `SinkTable.ClosedWith`, what the one flush of such a table makes of it.

Does **not** own: readers, which decide when to deliver and when to flush.
-/

set_option autoImplicit false

namespace MediaSplit

/-! ## Records -/

namespace Journal

variable {journal : Journal}

/-- Whether only packets have been offered. -/
def IsOpen (journal : Journal) : Prop :=
  ∃ packets : List Packet, journal.requests = packets.map .process

/-- Whether one flush has been asked for, behind all packets. -/
def IsComplete (journal : Journal) : Prop :=
  ∃ packets : List Packet, journal.requests = packets.map .process ++ [.flush]

/-- Whether any request has been refused. -/
def HasRefused (journal : Journal) : Prop :=
  ∃ request fault, (request, some fault) ∈ journal.entries

theorem isOpen_ofPolicy (policy : List SinkRequest → Option Fault) :
    (ofPolicy policy).IsOpen :=
  ⟨[], rfl⟩

theorem IsOpen.process (isOpen : journal.IsOpen) (packet : Packet) :
    (PacketSink.process journal packet).2.IsOpen := by
  obtain ⟨packets, record⟩ := isOpen
  refine ⟨packets ++ [packet], ?_⟩
  rw [requests_process, record, List.map_append]
  rfl

theorem IsOpen.flush (isOpen : journal.IsOpen) : (PacketSink.flush journal).2.IsComplete := by
  obtain ⟨packets, record⟩ := isOpen
  exact ⟨packets, by rw [requests_flush, record]⟩

/-- A refusal is on record. -/
theorem hasRefused_of_note
    {request : SinkRequest}
    {fault : Fault}
    {after : Journal}
    (refused : journal.note request = (.error fault, after)) :
    after.HasRefused := by
  unfold note at refused
  dsimp only at refused
  cases answer : journal.policy (journal.requests ++ [request]) with
  | none =>
      rw [answer] at refused
      cases refused
  | some reason =>
      rw [answer] at refused
      cases refused
      exact ⟨request, _, List.mem_cons_self⟩

theorem flush_not_mem_map_process (packets : List Packet) :
    SinkRequest.flush ∉ packets.map .process := by
  simp

/-- Nothing is asked behind a flush. -/
theorem isClosedByFlush_of_isOpen_or_isComplete
    (shape : journal.IsOpen ∨ journal.IsComplete) :
    journal.IsClosedByFlush := by
  intro before behind record
  rcases shape with ⟨packets, isOpen⟩ | ⟨packets, isComplete⟩
  · have asked : SinkRequest.flush ∈ packets.map .process := by
      rw [← isOpen, record]
      exact List.mem_append_right _ List.mem_cons_self
    exact absurd asked (flush_not_mem_map_process packets)
  · rw [isComplete, List.append_eq_append_iff] at record
    rcases record with ⟨gap, -, last⟩ | ⟨gap, split, rest⟩
    · have length := congrArg List.length last
      simp only [List.length_nil, List.length_append, List.length_cons] at length
      exact List.length_eq_zero_iff.1 (by omega)
    · cases gap with
      | nil => exact (List.cons.inj rest).2
      | cons request gap =>
          -- the flush would be one of the packets
          have asked : SinkRequest.flush ∈ packets.map .process := by
            rw [split, ← (List.cons.inj rest).1]
            exact List.mem_append_right _ List.mem_cons_self
          exact absurd asked (flush_not_mem_map_process packets)

theorem flushCount_le_one_of_isClosedByFlush (closed : journal.IsClosedByFlush) :
    journal.flushCount ≤ 1 := by
  unfold flushCount
  by_cases asked : SinkRequest.flush ∈ journal.requests
  · obtain ⟨before, behind, record, first⟩ := List.eq_append_cons_of_mem asked
    rw [record, closed before behind record, List.count_append, List.count_eq_zero.2 first]
    exact Nat.le_refl 1
  · rw [List.count_eq_zero.2 asked]
    exact Nat.zero_le 1

end Journal

/-! ## Tables -/

namespace SinkTable

variable {table after : SinkTable Journal} {property : Journal → Prop}

/-- Whether all attached journals have a property. -/
def EachJournal (table : SinkTable Journal) (property : Journal → Prop) : Prop :=
  ∀ track journal, table.sink? track = some journal → property journal

/-- Whether the journal of any track has refused a request. -/
def HasRefused (table : SinkTable Journal) : Prop :=
  ∃ track journal, table.sink? track = some journal ∧ journal.HasRefused

/-- Whether no sink has been told to flush. -/
structure IsOpen (table : SinkTable Journal) : Prop where
  unflushed : table.isFlushed = false
  journals : table.EachJournal Journal.IsOpen

/-- What a flush makes of an open table, if it ends with this outcome. -/
structure ClosedWith (table : SinkTable Journal) (outcome : Except Fault ReadStatus) : Prop where
  shape : table.EachJournal fun journal => journal.IsOpen ∨ journal.IsComplete
  done : outcome = .ok .done → table.EachJournal Journal.IsComplete
  refused : outcome ≠ .ok .done → table.HasRefused

theorem eachJournal_ofTracks (tracks : Nat) (property : Journal → Prop) :
    (ofTracks tracks).EachJournal property := by
  intro track journal present
  rw [sink?_ofTracks] at present
  cases present

theorem isOpen_ofTracks (tracks : Nat) : (ofTracks tracks : SinkTable Journal).IsOpen :=
  ⟨rfl, eachJournal_ofTracks tracks _⟩

theorem EachJournal.attach
    (each : table.EachJournal property)
    {journal : Journal}
    (isNew : property journal)
    (track : Nat) :
    (table.attach track journal).2.EachJournal property := by
  intro other found present
  rw [sink?_attach] at present
  split at present
  · cases present
    exact isNew
  · exact each other found present

theorem IsOpen.attach
    (isOpen : table.IsOpen)
    (policy : List SinkRequest → Option Fault)
    (track : Nat) :
    (table.attach track (.ofPolicy policy)).2.IsOpen := by
  refine ⟨?_, isOpen.journals.attach (Journal.isOpen_ofPolicy policy) track⟩
  unfold SinkTable.attach
  split
  · exact isOpen.unflushed
  · exact isOpen.unflushed

theorem IsOpen.deliver (isOpen : table.IsOpen) (packet : Packet) :
    (table.deliver packet).2.IsOpen := by
  refine ⟨isOpen.unflushed, ?_⟩
  intro track journal present
  rw [sink?_deliver] at present
  split at present
  · obtain ⟨before, wasPresent, rfl⟩ := Option.map_eq_some_iff.1 present
    exact (isOpen.journals track before wasPresent).process packet
  · exact isOpen.journals track journal present

theorem hasRefused_of_deliver
    {packet : Packet}
    {fault : Fault}
    (refused : table.deliver packet = (.error fault, after)) :
    after.HasRefused := by
  have answer := fst_deliver table packet
  have there := sink?_deliver table packet packet.track
  rw [refused] at answer there
  rw [if_pos rfl] at there
  cases present : table.sink? packet.track with
  | none =>
      rw [present] at answer
      cases answer
  | some journal =>
      rw [present] at answer there
      exact ⟨packet.track, _, there, Journal.hasRefused_of_note (Prod.ext answer.symm rfl)⟩

/-- Deliveries leave a table open. -/
theorem IsOpen.deliverAll
    {packets : List Packet}
    {reply : Except Fault Unit}
    (isOpen : table.IsOpen)
    (delivered : table.deliverAll packets = (reply, after)) :
    after.IsOpen := by
  induction packets generalizing table with
  | nil =>
      cases delivered
      exact isOpen
  | cons packet rest inductionHypothesis =>
      have next := isOpen.deliver packet
      rw [SinkTable.deliverAll] at delivered
      split at delivered
      next middle first =>
        rw [first] at next
        exact inductionHypothesis next delivered
      next fault middle refused =>
        rw [refused] at next
        cases delivered
        exact next

theorem hasRefused_of_deliverAll
    {packets : List Packet}
    {fault : Fault}
    (refused : table.deliverAll packets = (.error fault, after)) :
    after.HasRefused := by
  induction packets generalizing table with
  | nil => cases refused
  | cons packet rest inductionHypothesis =>
      rw [SinkTable.deliverAll] at refused
      split at refused
      next middle first => exact inductionHypothesis refused
      next here middle first =>
        cases refused
        exact hasRefused_of_deliver first

/-! ## The flush -/

/-- A flush that is not refused reaches every sink. -/
theorem sink?_flushAll_of_ok
    (unflushed : table.isFlushed = false)
    (accepted : table.flushAll = (.ok (), after))
    (track : Nat) :
    after.sink? track = (table.sink? track).map fun sink => (PacketSink.flush sink).2 := by
  have noneRefuses := any_refusesFlush_of_unflushed unflushed
  have reached := sink?_flushAll_of_unflushed unflushed track
  rw [accepted] at noneRefuses reached
  have noneBefore : (table.slots.take track).any refusesFlush = false :=
    List.any_eq_false.2 fun slot member =>
      List.any_eq_false.1 noneRefuses slot (List.mem_of_mem_take member)
  rwa [noneBefore, if_neg Bool.false_ne_true] at reached

theorem hasRefused_of_flushAll
    {fault : Fault}
    (refused : table.flushAll = (.error fault, after)) :
    after.HasRefused := by
  have unflushed : table.isFlushed = false := by
    cases flag : table.isFlushed with
    | false => rfl
    | true =>
        unfold flushAll at refused
        rw [flag] at refused
        cases refused
  have anyRefuses := any_refusesFlush_of_unflushed unflushed
  rw [refused] at anyRefuses
  obtain ⟨track, journal, present, refuses, noneBefore⟩ := exists_first_refusal anyRefuses
  have reached := sink?_flushAll_of_unflushed unflushed track
  rw [noneBefore, if_neg Bool.false_ne_true, refused] at reached
  have wasPresent : table.sink? track = some journal := congrArg Option.join present
  rw [wasPresent] at reached
  refine ⟨track, _, reached, ?_⟩
  cases answer : (PacketSink.flush journal).1 with
  | ok done => simp [refusesFlush, answer, Except.isOk, Except.toBool] at refuses
  | error reason => exact Journal.hasRefused_of_note (Prod.ext answer rfl)

/-- The first refusal of a flush is on record, and without one each sink has
been flushed. -/
theorem IsOpen.flushAll
    {reply : Except Fault Unit}
    (isOpen : table.IsOpen)
    (flushed : table.flushAll = (reply, after)) :
    after.ClosedWith (reply.map fun _ => .done) where
  shape := by
    intro track journal present
    have slotwise := sink?_flushAll table track
    rw [flushed] at slotwise
    rcases slotwise with same | asked
    · rw [same] at present
      exact Or.inl (isOpen.journals track journal present)
    · rw [asked] at present
      obtain ⟨before, wasPresent, rfl⟩ := Option.map_eq_some_iff.1 present
      exact Or.inr (isOpen.journals track before wasPresent).flush
  done := by
    intro isDone track journal present
    cases reply with
    | error fault => cases isDone
    | ok answer =>
        rw [sink?_flushAll_of_ok isOpen.unflushed flushed] at present
        obtain ⟨before, wasPresent, rfl⟩ := Option.map_eq_some_iff.1 present
        exact (isOpen.journals track before wasPresent).flush
  refused := by
    intro notDone
    cases reply with
    | error fault => exact hasRefused_of_flushAll flushed
    | ok answer => exact absurd rfl notDone

/-- A refused packet ends the work before the flush. -/
theorem IsOpen.closedWith_of_refused
    {packets : List Packet}
    {fault : Fault}
    (isOpen : table.IsOpen)
    (refused : table.deliverAll packets = (.error fault, after)) :
    after.ClosedWith (.error fault) where
  shape := by
    intro track journal present
    exact Or.inl ((isOpen.deliverAll refused).journals track journal present)
  done := by simp
  refused _ := hasRefused_of_deliverAll refused

end SinkTable

end MediaSplit

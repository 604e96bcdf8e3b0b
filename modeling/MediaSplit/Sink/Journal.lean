import MediaSplit.Sink

/-!
Contract: sinks that keep a record of what they are asked.

Owns: `SinkRequest`, one request to a sink, and `Journal`, the sink that writes
every request down and answers as its policy says.

A sink answers by what it has been asked so far and by nothing else, so a
journal stands for any sink: what a reader or a packetizer does to every
journal, it does to every sink.
-/

set_option autoImplicit false

namespace MediaSplit

/-- One request to a sink. -/
inductive SinkRequest where
  | process (packet : Packet)
  | flush
  deriving DecidableEq, Repr, Inhabited

/-- The packet that a request offers. -/
def SinkRequest.packet? : SinkRequest → Option Packet
  | .process packet => some packet
  | .flush => none

/-- A sink with a record of its requests. -/
structure Journal where
  /-- The answer to the last of some requests: a fault refuses it. -/
  policy : List SinkRequest → Option Fault
  /-- All requests, newest first, with the answer to each. -/
  entries : List (SinkRequest × Option Fault)

namespace Journal

/-- A journal without entries. -/
def ofPolicy (policy : List SinkRequest → Option Fault) : Journal := ⟨policy, []⟩

/-- A journal that refuses nothing. -/
def accepting : Journal := ofPolicy fun _ => none

/-- All requests, oldest first. -/
def requests (journal : Journal) : List SinkRequest := (journal.entries.map (·.1)).reverse

/-- The packets offered, oldest first. -/
def offered (journal : Journal) : List Packet :=
  journal.requests.filterMap SinkRequest.packet?

/-- The packets offered and not refused, oldest first. -/
def accepted (journal : Journal) : List Packet :=
  journal.entries.reverse.filterMap fun (request, answer) =>
    if answer.isNone then request.packet? else none

/-- How often the journal was told to flush. -/
def flushCount (journal : Journal) : Nat := journal.requests.count .flush

/-- Whether nothing was asked behind the first flush. -/
def IsClosedByFlush (journal : Journal) : Prop :=
  ∀ before behind, journal.requests = before ++ .flush :: behind → behind = []

/-- Writes a request down and answers it. -/
def note (journal : Journal) (request : SinkRequest) : Reply Journal :=
  let answer := journal.policy (journal.requests ++ [request])
  (answer.elim (.ok ()) .error, { journal with entries := (request, answer) :: journal.entries })

instance : PacketSink Journal where
  process journal packet := journal.note (.process packet)
  flush journal := journal.note .flush

@[simp] theorem requests_process (journal : Journal) (packet : Packet) :
    (PacketSink.process journal packet).2.requests = journal.requests ++ [.process packet] := by
  simp [PacketSink.process, note, requests]

@[simp] theorem requests_flush (journal : Journal) :
    (PacketSink.flush journal).2.requests = journal.requests ++ [.flush] := by
  simp [PacketSink.flush, note, requests]

@[simp] theorem offered_process (journal : Journal) (packet : Packet) :
    (PacketSink.process journal packet).2.offered = journal.offered ++ [packet] := by
  simp [offered, SinkRequest.packet?]

@[simp] theorem offered_flush (journal : Journal) :
    (PacketSink.flush journal).2.offered = journal.offered := by
  simp [offered, SinkRequest.packet?]

theorem accepted_process (journal : Journal) (packet : Packet) :
    (PacketSink.process journal packet).2.accepted
      = journal.accepted
          ++ if (PacketSink.process journal packet).1.isOk then [packet] else [] := by
  rcases (journal.policy (journal.requests ++ [.process packet])).eq_none_or_eq_some with
    answer | ⟨fault, answer⟩ <;>
    simp [PacketSink.process, note, accepted, answer, SinkRequest.packet?, Except.isOk,
      Except.toBool]

@[simp] theorem accepted_flush (journal : Journal) :
    (PacketSink.flush journal).2.accepted = journal.accepted := by
  simp [PacketSink.flush, note, accepted, SinkRequest.packet?]

end Journal

end MediaSplit

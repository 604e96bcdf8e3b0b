import MediaSplit.ProgramStream.Payload
import MediaSplit.ProgramStream.Registry

/-!
Contract: finding the tracks of a program.

Owns: `discover`, which goes through the packets in a window at the start of a
program and gives every stream it can identify to a registry.

The first packet of a stream decides the probe; where that needs more payloads,
they are looked up ahead, and the walk then comes back. A stream that cannot be
identified is refused for good. Packets of a known stream only tell their
timestamps.
-/

set_option autoImplicit false

namespace MediaSplit.ProgramStream

/-- Feeds payloads from further packets to a probe until it has enough or
there are none. -/
def Probe.feed (probe : Probe) (walk : Navigator) (id key limit : Nat) :
    Except Error (Probe × Navigator) :=
  match _found : walk.nextPayload id key limit with
  | .error error => .error error
  | .ok (none, walk) => .ok (probe, walk)
  | .ok (some payload, behind) =>
      match probe.push payload with
      | (true, probe) => .ok (probe, behind)
      | (false, probe) => probe.feed behind id key limit
termination_by walk.source.size - walk.position
decreasing_by
  have forward := Navigator.position_lt_of_nextPayload _found
  omega

/-- A walk that has looked ahead, back where `walk` passed the start code of a
packet. -/
def Navigator.comeBack (ahead walk : Navigator) (start : PacketStart) : Navigator :=
  { ahead with source := walk.source.movedTo (start.offset + 4) }

namespace Registry

/-- Identifies the stream of `key` from its first payload and those that
follow. -/
def identify (registry : Registry) (walk : Navigator) (limit : Nat) (header : PesHeader)
    (first : Bytes) : Except Error (Registry × Navigator) :=
  match Probe.ofKey header.key first with
  | .error _ => .ok (registry.refuse header.key, walk)
  | .ok probe => do
      let (probe, walk) ← match probe.push first with
        | (true, probe) => pure (probe, walk)
        | (false, probe) => probe.feed walk header.streamId header.key limit
      match probe.finding with
      | .ok finding => return (registry.insert header.key finding header.timestamp, walk)
      | .error .overflow => throw .overflow
      | .error _ => return (registry.refuse header.key, walk)

/-- Takes in a packet with a payload, which starts at the position of the
walk. -/
def meet (registry : Registry) (walk : Navigator) (limit : Nat) (header : PesHeader) :
    Except Error (Registry × Navigator) :=
  if header.streamId = StreamId.privateStream1 ∧ header.subId = none then .ok (registry, walk)
  else if registry.isRefused header.key then .ok (registry, walk)
  else
    match registry.index? header.key with
    | some index => .ok (registry.observe index header.timestamp, walk)
    | none =>
        match walk.takePayload header.payloadLength with
        | (.error error, _) => .error error
        | (.ok none, walk) => .ok (registry.refuse header.key, walk)
        | (.ok (some first), walk) => registry.identify walk limit header first

/-- Takes in the packet that a walk has come upon. -/
def meetPacket (registry : Registry) (walk : Navigator) (limit : Nat) (start : PacketStart) :
    Except Error (Registry × Navigator) :=
  if StreamId.isDemuxable start.id then
    match walk.readContent start with
    | (.error error, _) => .error error
    | (.ok (some (.payload header)), stopped) => registry.meet stopped limit header
    | (.ok _, stopped) => .ok (registry.refuse start.id, stopped)
  else .ok (registry, walk)

/-- Takes in packet after packet, no further than `limit`. The walk comes back
to each packet before it goes on, with what it has learned ahead. -/
def meetPackets (registry : Registry) (walk : Navigator) (limit : Nat) :
    Except Error (Registry × Navigator) :=
  match _found : walk.nextPacket (some limit) with
  | (none, after) => .ok (registry, after)
  | (some start, after) =>
      match registry.meetPacket after limit start with
      | .error error => .error error
      | .ok (registry, ahead) =>
          match _skipped : (ahead.comeBack after start).skipPacket with
          | (true, behind) => registry.meetPackets behind limit
          | (false, atEnd) => .ok (registry, atEnd)
termination_by walk.source.size - walk.position
decreasing_by
  have forward := Navigator.position_lt_of_nextPacket _found
  have stands := Navigator.offset_of_nextPacket _found
  have onward := Navigator.position_of_skipPacket _skipped
  simp only [Navigator.position, Navigator.comeBack, Source.size_movedTo,
    Source.position_movedTo] at forward stands onward ⊢
  omega

end Registry

/-- The tracks in the first `window` bytes of a program, and the walk back at
its start with what it has learned. -/
def discover (source : Source) (window : Nat) : Except Error (Registry × Navigator) := do
  let (registry, walk) ← Registry.empty.meetPackets (Navigator.ofSource (source.movedTo 0)) window
  return (registry.finish, walk.movedTo 0)

end MediaSplit.ProgramStream

import MediaSplit.Packet

/-!
Contract: gathering the payloads of a track into larger packets.

Owns: `GatherBuffer` with `push`, which gives the packets that become ready,
and `take`, which empties it.

A packet has the timecode and the place of its first payload. Payloads that do
not fit behind what is gathered empty the buffer first; one that exceeds the
capacity is a packet of its own.
-/

set_option autoImplicit false

namespace MediaSplit.ProgramStream

/-- Payloads of a track that are still to be sent. -/
structure GatherBuffer where
  track : Nat
  /-- Bytes that may be gathered. -/
  capacity : Nat
  /-- The bytes gathered. -/
  data : Array UInt8
  /-- The timecode of the first payload. -/
  timecode : Option Int
  /-- Where the packet of the first payload starts. -/
  position : Option Nat
  deriving DecidableEq, Repr, Inhabited

namespace GatherBuffer

/-- A buffer that holds nothing. -/
def empty (track capacity : Nat) : GatherBuffer := ⟨track, capacity, #[], none, none⟩

/-- The number of bytes gathered. -/
def size (buffer : GatherBuffer) : Nat := buffer.data.size

/-- Takes what is gathered as one packet. -/
def take (buffer : GatherBuffer) : Option Packet × GatherBuffer :=
  if buffer.size = 0 then (none, buffer)
  else
    (some { Packet.ofPayload buffer.data.toList with
        track := buffer.track, timecode := buffer.timecode, position := buffer.position },
      empty buffer.track buffer.capacity)

/-- Puts a payload behind what is gathered. -/
def add (buffer : GatherBuffer) (payload : Bytes) (timecode : Option Int) (position : Nat) :
    GatherBuffer :=
  if buffer.size = 0 then
    { buffer with data := payload.toArray, timecode := timecode, position := some position }
  else { buffer with data := buffer.data.append payload.toArray }

/-- Takes a payload in, with the packets that become ready. -/
def push (buffer : GatherBuffer) (payload : Bytes) (timecode : Option Int) (position : Nat) :
    List Packet × GatherBuffer :=
  let (ready, buffer) :=
    if buffer.capacity < buffer.size + payload.length then buffer.take else (none, buffer)
  if buffer.capacity < payload.length then
    (ready.toList ++ [{ Packet.ofPayload payload with
      track := buffer.track, timecode := timecode, position := some position }], buffer)
  else (ready.toList, buffer.add payload timecode position)

end GatherBuffer

end MediaSplit.ProgramStream

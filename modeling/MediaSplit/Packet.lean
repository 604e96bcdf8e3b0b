import MediaSplit.Bytes
import MediaSplit.Text.Hex

/-!
Contract: what a reader hands to the sink of a track.

Owns: `Packet`, one payload with its timing, references, place in the input
and handling flags; `PacketFlags` with their bit form; and the one-line
description of a packet.

A packet owns its payload. Readers create packets, a packetizer gives them
new times once, and a sink receives them by value.
-/

set_option autoImplicit false

namespace MediaSplit

/-- How a packet is to be handled downstream. -/
structure PacketFlags where
  /-- The sink must copy the payload before it keeps it. -/
  mustDuplicate : Bool
  /-- No policy drops this packet. -/
  mustKeep : Bool
  /-- The flag bits above these two, which carry no meaning yet. -/
  reserved : Nat
  deriving DecidableEq, Repr, Inhabited

namespace PacketFlags

/-- No flag is set. -/
def none : PacketFlags := ⟨false, false, 0⟩

/-- Reads flags from their bits. -/
def ofBits (bits : Nat) : PacketFlags :=
  ⟨bits.testBit 0, bits.testBit 1, bits / 4⟩

/-- The bits of the flags. -/
def toBits (flags : PacketFlags) : Nat :=
  flags.mustDuplicate.toNat + 2 * flags.mustKeep.toNat + 4 * flags.reserved

/-- The names of the set flags, then the reserved bits as one number. -/
def names (flags : PacketFlags) : List String :=
  (if flags.mustDuplicate then ["MUST_DUPLICATE"] else [])
    ++ (if flags.mustKeep then ["MUST_KEEP"] else [])
    ++ (if flags.reserved = 0 then []
        else ["0x" ++ Text.hexLower 1 (4 * flags.reserved)])

/-- The flags in words. -/
def describe (flags : PacketFlags) : String :=
  match flags.names with
  | [] => "PacketFlags(0x0)"
  | names => "PacketFlags(" ++ " | ".intercalate names ++ ")"

end PacketFlags

/-- One demultiplexed packet. -/
structure Packet where
  /-- The bytes of the packet. -/
  payload : Bytes
  /-- When the packet is presented; `none` continues from the packet before. -/
  timecode : Option Int
  /-- How long it is presented. -/
  duration : Option Int
  /-- The earlier frame this one depends on. -/
  backwardReference : Option Int
  /-- The later frame this one depends on. -/
  forwardReference : Option Int
  /-- The track it belongs to. -/
  track : Nat
  /-- Where it starts in the input. -/
  position : Option Nat
  /-- How it is to be handled. -/
  flags : PacketFlags
  deriving DecidableEq, Repr, Inhabited

namespace Packet

/-- A packet of track 0 that holds `payload` and says nothing else. -/
def ofPayload (payload : Bytes) : Packet :=
  ⟨payload, none, none, none, none, 0, none, .none⟩

/-- The number of payload bytes. -/
def size (packet : Packet) : Nat := packet.payload.length

/-- Whether there is no payload. -/
def isEmpty (packet : Packet) : Bool := packet.payload.isEmpty

/-- A packet that depends on no earlier frame can be decoded on its own. -/
def isKeyframe (packet : Packet) : Bool := packet.backwardReference.isNone

/-- Whether a policy may drop the packet. -/
def isDroppable (packet : Packet) : Bool := !packet.flags.mustKeep

/-- An optional number in words. -/
def describeOption (value : Option Int) : String :=
  match value with
  | some number => "Some(" ++ toString number ++ ")"
  | none => "None"

/-- The packet in one line, payload size in place of the payload. -/
def describe (packet : Packet) : String :=
  let fields := [
    "size: " ++ toString packet.size,
    "timecode: " ++ describeOption packet.timecode,
    "duration: " ++ describeOption packet.duration,
    "backward_ref: " ++ describeOption packet.backwardReference,
    "forward_ref: " ++ describeOption packet.forwardReference,
    "track: " ++ toString packet.track,
    "pos: " ++ describeOption (packet.position.map Int.ofNat),
    "flags: " ++ packet.flags.describe]
  "Packet \x7b " ++ ", ".intercalate fields ++ " \x7d"

end Packet

end MediaSplit

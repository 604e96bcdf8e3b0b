import MediaSplit.ProgramStream.Navigator

/-!
Contract: program streams as sequences of structures.

Owns:
- `Structure`, one header, map or packet, with `Structure.toBytes`;
- `Program`, structures up to an optional end code, with `Program.toBytes`, the
  packets in it and the version that its first pack header tells.

Does **not** own: finding the structures in bytes (`MediaSplit.ProgramStream.Navigator`).

Nothing is said of what a packet or a map holds: a walk passes over both by
their length fields. `Program.IsWritable` fixes the sizes of the parts that
have no length field, and that all pack headers are of one version.
-/

set_option autoImplicit false

namespace MediaSplit.ProgramStream

/-- The four bytes of a start code. -/
def startCode (id : Nat) : Bytes := [0, 0, 1, UInt8.ofNat id]

/-- One structure of a program stream. -/
inductive Structure where
  /-- A pack header of the first version. -/
  | firstPack (marker : UInt8) (body : Bytes)
  /-- A pack header of the second version, whose last field has five free bits
  and the number of stuffing bytes. -/
  | secondPack (marker : UInt8) (body : Bytes) (free : Nat) (stuffing : Bytes)
  /-- A system header with an entry of three bytes for each stream. -/
  | systemHeader (body : Bytes) (entries : List (UInt8 × UInt8 × UInt8))
  /-- A program stream map behind its length field. -/
  | streamMap (body : Bytes)
  /-- A packet behind its length field. -/
  | packet (id : Nat) (body : Bytes)
  deriving DecidableEq, Repr, Inhabited

namespace Structure

/-- A structure as written, start code included. -/
def toBytes : Structure → Bytes
  | firstPack marker body => startCode packStartCode ++ marker :: body
  | secondPack marker body free stuffing =>
      startCode packStartCode ++ marker :: body
        ++ Bytes.ofNumber 1 (free % 2 ^ 5 * 2 ^ 3 + stuffing.length) ++ stuffing
  | systemHeader body entries =>
      startCode systemHeaderCode ++ body
        ++ entries.flatMap fun (id, high, low) => [id, high, low]
  | streamMap body => startCode streamMapCode ++ body.withLength 2
  | packet id body => startCode id ++ body.withLength 2

/-- The version that a structure tells. -/
def version? : Structure → Option Version
  | firstPack _ _ => some .mpeg1
  | secondPack _ _ _ _ => some .mpeg2
  | _ => none

/-- Whether a start code with this id starts a packet. -/
def isPacketId (id : Nat) : Bool := id < 2 ^ 8 && Navigator.isPacketCode (2 ^ 8 + id)

/-- The sizes of all parts are what the structure calls for, and its markers
are those of its kind. -/
def IsWritable : Structure → Prop
  | firstPack marker body => marker < 0x40 ∧ body.length + 1 = packHeaderSize
  | secondPack marker body _ stuffing =>
      0x40 ≤ marker ∧ body.length = packHeaderSize ∧ stuffing.length < 2 ^ 3
  | systemHeader body entries =>
      body.length = systemHeaderSize ∧ ∀ entry ∈ entries, 0x80 ≤ entry.1
  | streamMap body => body.length < 2 ^ 16
  | packet id body => isPacketId id = true ∧ body.length < 2 ^ 16

instance decidableIsWritable : (part : Structure) → Decidable part.IsWritable
  | firstPack marker body =>
      inferInstanceAs (Decidable (marker < 0x40 ∧ body.length + 1 = packHeaderSize))
  | secondPack marker body _ stuffing =>
      inferInstanceAs (Decidable
        (0x40 ≤ marker ∧ body.length = packHeaderSize ∧ stuffing.length < 2 ^ 3))
  | systemHeader body entries =>
      -- Named, since all triples of bytes could be tried as well.
      have : Decidable (∀ entry ∈ entries, 0x80 ≤ entry.1) := List.decidableBAll _ entries
      inferInstanceAs (Decidable
        (body.length = systemHeaderSize ∧ ∀ entry ∈ entries, 0x80 ≤ entry.1))
  | streamMap body => inferInstanceAs (Decidable (body.length < 2 ^ 16))
  | packet id body => inferInstanceAs (Decidable (isPacketId id = true ∧ body.length < 2 ^ 16))

end Structure

/-- A program stream. -/
structure Program where
  structures : List Structure
  /-- Whether an end code closes the stream. -/
  hasEndCode : Bool
  deriving DecidableEq, Repr, Inhabited

namespace Program

/-- A program as written. -/
def toBytes (program : Program) : Bytes :=
  program.structures.flatMap Structure.toBytes
    ++ if program.hasEndCode then startCode programEndCode else []

/-- The packets among structures of which the first stands at `offset`. -/
def packetsFrom : (offset : Nat) → List Structure → List PacketStart
  | _, [] => []
  | offset, .packet id body :: rest =>
      ⟨id, offset⟩ :: packetsFrom (offset + (Structure.packet id body).toBytes.length) rest
  | offset, other :: rest => packetsFrom (offset + other.toBytes.length) rest

/-- The packets of a program, in order. -/
def packets (program : Program) : List PacketStart := packetsFrom 0 program.structures

/-- The version that the first pack header tells. -/
def version? (program : Program) : Option Version :=
  program.structures.findSome? Structure.version?

/-- All structures are writable, and all pack headers are of one version. -/
def IsWritable (program : Program) : Prop :=
  (∀ part ∈ program.structures, part.IsWritable)
    ∧ ∀ part ∈ program.structures, ∀ told ∈ part.version?, some told = program.version?

instance decidableIsWritable (program : Program) : Decidable program.IsWritable :=
  inferInstanceAs (Decidable ((∀ part ∈ program.structures, part.IsWritable)
    ∧ ∀ part ∈ program.structures, ∀ told ∈ part.version?, some told = program.version?))

end Program

end MediaSplit.ProgramStream

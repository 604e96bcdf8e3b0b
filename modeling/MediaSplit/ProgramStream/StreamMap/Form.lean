import MediaSplit.ProgramStream.StreamMap

/-!
Contract: program stream maps as they are written.

Owns: `StreamMap.Entry`, one announcement; `StreamMap.Form`, a whole map with
`Form.toBytes`, from its length field on; and `StreamMap.codecAfter?`, the codec
that stands for an id once a list of entries has been taken in.

Does **not** own: reading a map back (`StreamMap.read`).
-/

set_option autoImplicit false

namespace MediaSplit.ProgramStream.StreamMap

/-- The announcement of one stream. -/
structure Entry where
  streamType : UInt8
  /-- The stream id. -/
  id : UInt8
  /-- What else is said about the stream. -/
  info : Bytes
  deriving DecidableEq, Repr, Inhabited

/-- An entry as written. -/
def Entry.toBytes (entry : Entry) : Bytes :=
  [entry.streamType, entry.id] ++ entry.info.withLength 2

/-- A map with all its parts. -/
structure Form where
  /-- Seven bits behind the mark of a map that is in force. -/
  version : Nat
  /-- The byte behind them. -/
  spare : UInt8
  /-- What is said about the program. -/
  info : Bytes
  entries : List Entry
  /-- The check word. -/
  check : Bytes
  deriving DecidableEq, Repr, Inhabited

namespace Form

/-- The entries as written. -/
def entryBytes (form : Form) : Bytes := form.entries.flatMap Entry.toBytes

/-- Bytes of the mark, the byte behind it and the two inner length fields. -/
def headSize : Nat := 6

/-- What the length field of the map says. -/
def length (form : Form) : Nat :=
  headSize + form.info.length + form.entryBytes.length + form.check.length

/-- A map as written, from its length field on. -/
def toBytes (form : Form) : Bytes :=
  Bytes.ofNumber 2 form.length
    ++ Bytes.ofNumber 1 (2 ^ 7 + form.version % 2 ^ 7) ++ [form.spare]
    ++ form.info.withLength 2 ++ form.entryBytes.withLength 2
    ++ form.check

/-- Bytes of the check word. -/
def checkSize : Nat := 4

/-- The check word is there and the map is not too long. -/
def IsWritable (form : Form) : Prop :=
  form.check.length = checkSize ∧ form.length ≤ maxLength

end Form

/-- The codec of an id that was `before` once entries are taken in: that of the
last entry for the id whose type is a known one. -/
def codecAfter? (before : Option Codec) (id : Nat) (entries : List Entry) : Option Codec :=
  (entries.filterMap fun entry =>
    if entry.id.toNat = id then codecOfType? entry.streamType.toNat else none).getLast?.or before

end MediaSplit.ProgramStream.StreamMap

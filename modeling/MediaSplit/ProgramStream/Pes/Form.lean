import MediaSplit.ProgramStream.Pes

/-!
Contract: headers of PES packets as they are written.

Owns:
- `PesTimes`, the timestamps of a header, and `SubStream`, what private stream 1
  puts between a header and its payload;
- `PesForm`, a header in one of its two forms, with `PesForm.toBytes` and the
  stream id, sub-stream and timestamp that it stands for;
- `writePes`, a whole packet from its length field on.

Does **not** own: reading a header back (`MediaSplit.ProgramStream.Pes`). The
ranges and sizes here are those of the format, and none is taken from the reader.

Bits that carry no meaning for a track are parameters, so that the forms are
exactly the headers that encoders may write. `PesForm.IsWritable` holds what
the types leave open: field ranges and the sizes of byte runs.
-/

set_option autoImplicit false

namespace MediaSplit.ProgramStream

/-- The timestamps of a header, in ticks of the 90 kHz clock. -/
inductive PesTimes where
  | absent
  /-- When the payload is presented. -/
  | presented (ticks : Nat)
  /-- The same, with the five bytes of a second timestamp. -/
  | presentedAndDecoded (ticks : Nat) (decoding : Bytes)
  deriving DecidableEq, Repr, Inhabited

/-- Five bytes of a timestamp under a mark of four bits: 3, 15 and 15 bits,
each group closed by a marker bit. -/
def timestampBytes (mark ticks : Nat) : Bytes :=
  Bytes.ofNumber 1 (mark * 2 ^ 4 + ticks / 2 ^ 30 % 2 ^ 3 * 2 + 1)
    ++ Bytes.ofNumber 2 (ticks / 2 ^ 15 % 2 ^ 15 * 2 + 1)
    ++ Bytes.ofNumber 2 (ticks % 2 ^ 15 * 2 + 1)

namespace PesTimes

/-- The presentation time, if there is one. -/
def ticks? : PesTimes → Option Nat
  | absent => none
  | presented ticks => some ticks
  | presentedAndDecoded ticks _ => some ticks

/-- The number that announces these timestamps, which is also their mark. -/
def code : PesTimes → Nat
  | absent => 0
  | presented _ => 2
  | presentedAndDecoded _ _ => 3

/-- The timestamps as written. -/
def toBytes : PesTimes → Bytes
  | absent => []
  | presented ticks => timestampBytes 2 ticks
  | presentedAndDecoded ticks decoding => timestampBytes 3 ticks ++ decoding

/-- Ticks have 33 bits, and a second timestamp five bytes. -/
def IsWritable : PesTimes → Prop
  | absent => True
  | presented ticks => ticks < 2 ^ 33
  | presentedAndDecoded ticks decoding => ticks < 2 ^ 33 ∧ decoding.length = 5

end PesTimes

/-- What private stream 1 puts between a header and its payload. -/
structure SubStream where
  id : UInt8
  /-- Frame info and sample layout. -/
  info : Bytes
  deriving DecidableEq, Repr, Inhabited

namespace SubStream

/-- Bytes that a sub-stream of this id puts behind the id: three of frame info,
and three more where samples follow. -/
def infoSize (id : Nat) : Nat :=
  if 0xA0 ≤ id ∧ id ≤ 0xAF then 6
  else if 0x80 ≤ id ∧ id ≤ 0x8F ∨ 0x98 ≤ id ∧ id ≤ 0x9F ∨ 0xC0 ≤ id ∧ id ≤ 0xCF then 3
  else 0

/-- The sub-stream id and what follows it, as written. -/
def toBytes (sub : SubStream) : Bytes := sub.id :: sub.info

/-- No pictures, and as much info as the id calls for. -/
def IsWritable (sub : SubStream) : Prop :=
  ¬(0x20 ≤ sub.id.toNat ∧ sub.id.toNat ≤ 0x3F) ∧ sub.info.length = infoSize sub.id.toNat

end SubStream

/-- A header in one of its two forms. -/
inductive PesForm where
  /-- Stuffing, an optional buffer size of 14 bits, and the timestamps. -/
  | plain (stuffing : Nat) (bufferSize : Option Nat) (times : PesTimes)
  /-- A header that announces its size: four bits of priority and rights, six
  flags of parts that lie in `extra`, the timestamps, and the sub-stream. -/
  | sized (rights flags : Nat) (times : PesTimes) (extra : Bytes) (sub : Option SubStream)
  deriving DecidableEq, Repr, Inhabited

namespace PesForm

/-- The byte that stands for the absence of timestamps in the plain form. -/
def noTimes : UInt8 := 0x0F

/-- The buffer size as written. -/
def bufferSizeBytes (bufferSize : Option Nat) : Bytes :=
  match bufferSize with
  | none => []
  | some size => Bytes.ofNumber 2 (2 ^ 14 + size % 2 ^ 14)

/-- The timestamps of the plain form as written. -/
def plainTimes (times : PesTimes) : Bytes :=
  if times = .absent then [noTimes] else times.toBytes

/-- A header as written. -/
def toBytes : PesForm → Bytes
  | plain stuffing bufferSize times =>
      List.replicate stuffing 0xFF ++ bufferSizeBytes bufferSize ++ plainTimes times
  | sized rights flags times extra sub =>
      Bytes.ofNumber 1 (2 ^ 7 + rights % 2 ^ 4)
        ++ Bytes.ofNumber 1 (times.code * 2 ^ 6 + flags % 2 ^ 6)
        ++ Bytes.ofNumber 1 (times.toBytes.length + extra.length)
        ++ times.toBytes ++ extra ++ (sub.map SubStream.toBytes).getD []

/-- The timestamps of a header. -/
def times : PesForm → PesTimes
  | plain _ _ times => times
  | sized _ _ times _ _ => times

/-- The sub-stream that a header names. -/
def subId? : PesForm → Option Nat
  | plain _ _ _ => none
  | sized _ _ _ _ sub => sub.map fun sub => sub.id.toNat

/-- Whether a header can stand in a packet of stream `id`. A sub-stream is
named in private stream 1 and nowhere else, and only by the sized form. -/
def IsWritable (id : Nat) : PesForm → Prop
  | plain _ _ times => times.IsWritable
  | sized _ _ times extra sub =>
      times.IsWritable ∧ times.toBytes.length + extra.length < 2 ^ 8
        ∧ sub.isSome = (id == 0xBD) ∧ ∀ named ∈ sub, named.IsWritable

/-- The least payload behind a header. A sub-stream without info has at least
as many bytes of payload as the shortest info has. -/
def leastPayload : PesForm → Nat
  | sized _ _ _ _ (some sub) => if sub.info = [] then 3 else 1
  | _ => 1

end PesForm

/-- A packet as written, from its length field on. -/
def writePes (form : PesForm) (payload : Bytes) : Bytes :=
  Bytes.ofNumber 2 (form.toBytes.length + payload.length) ++ form.toBytes ++ payload

end MediaSplit.ProgramStream

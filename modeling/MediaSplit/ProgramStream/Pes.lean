import MediaSplit.ProgramStream.Error
import MediaSplit.ProgramStream.StreamId
import MediaSplit.Source
import MediaSplit.Time.Nanoseconds

/-!
Contract: headers of PES packets.

Owns: `PesHeader`, what the header of a packet says, and `readPes`, which reads
one from the length field on and leaves the source at the payload.

Two header forms are accepted. The first begins with stuffing and an optional
buffer size, and then has a timestamp, two timestamps, or a byte that stands
for none. The second begins with a `10` marker and announces its own size;
only it can name a sub-stream.

The length field announces how many bytes follow it. What is left of them is
counted down field by field, beside the read position, and where the header
ends it is the size of the payload. The count is signed: the fields of a
timestamp are read before it is known whether the packet holds them.
-/

set_option autoImplicit false

namespace MediaSplit.ProgramStream

/-- What the header of a packet says. -/
structure PesHeader where
  streamId : Nat
  /-- The sub-stream of a packet of private stream 1. -/
  subId : Option Nat
  /-- When the payload is presented. -/
  timestamp : Option Int
  /-- Bytes from the header to the end of the packet. -/
  payloadLength : Nat
  /-- What the length field says. -/
  fullLength : Nat
  deriving DecidableEq, Repr, Inhabited

/-- The key of the track that the packet belongs to. -/
def PesHeader.key (header : PesHeader) : Nat := StreamId.key header.streamId header.subId

/-- What a packet is good for. -/
inductive PesContent where
  /-- The payload follows. -/
  | payload (header : PesHeader)
  /-- There is nothing in it for any track. -/
  | rejected (fullLength : Nat)
  deriving DecidableEq, Repr, Inhabited

namespace Pes

/-- Why the fields of a header are not read to their end. -/
inductive Setback where
  /-- The packet is of no use. -/
  | unusable
  /-- Nothing more can be said about it. -/
  | failed (error : Error)
  deriving DecidableEq, Repr, Inhabited

/-- A chain of header fields. -/
abbrev Fields (α : Type) := Source.Action Setback α

/-- Reads a number of `width` bytes. -/
def field (width : Nat) : Fields Nat :=
  ExceptT.adapt (fun fault => .failed (.source fault)) (Source.readNumber width)

/-- Passes over bytes that need not be there. -/
def pass (count : Nat) : Fields Unit :=
  modify fun source => source.movedTo (source.position + count)

/-- Gives the packet up unless the condition holds. -/
def expect (condition : Bool) : Fields Unit :=
  if condition then return () else throw .unusable

/-- Reads bytes up to the first one that is not stuffing, and gives that one
with the number of bytes left. At most `left` bytes are read; where all of them
are stuffing, so is the answer. -/
def readPastStuffing : (left : Nat) → Fields (Nat × Nat)
  | 0 => return (0xFF, 0)
  | left + 1 => fun source =>
      match field 1 source with
      | (.ok 0xFF, after) => readPastStuffing left after
      | (.ok byte, after) => (.ok (byte, left), after)
      | (.error setback, after) => (.error setback, after)

/-- Reads the rest of a timestamp of five bytes: 3, 15 and 15 bits of a 90 kHz
clock, each group closed by a marker bit. -/
def readTimestamp (first : Nat) : Fields Int := do
  let middle ← field 2
  let last ← field 2
  expect (first % 2 == 1 && middle % 2 == 1 && last % 2 == 1)
  return Time.ofTicks (first / 2 % 8 * 2 ^ 30 + middle / 2 * 2 ^ 15 + last / 2)

/-- Bytes of a timestamp. -/
def timestampSize : Nat := 5

/-- Whether a sub-stream has a frame count and a frame offset before its
payload. -/
def hasFrameInfo (subId : Nat) : Bool :=
  0x80 ≤ subId && subId ≤ 0x8F || 0x98 ≤ subId && subId ≤ 0xAF || 0xC0 ≤ subId && subId ≤ 0xCF

/-- Whether a sub-stream holds samples, whose layout follows the frame info. -/
def isSampled (subId : Nat) : Bool := subId / 32 == 5

/-- Whether a sub-stream holds pictures to be laid over the video. -/
def isSubpicture (subId : Nat) : Bool := subId / 32 == 1

/-- Bytes of frame info, and of the sample layout. -/
def subHeaderSize : Nat := 3

/-- What the fields of a header say, and how many bytes of the packet are left
behind them. -/
structure Reading where
  timestamp : Option Int
  subId : Option Nat
  left : Int
  deriving DecidableEq, Repr, Inhabited

/-- Passes over what a sub-stream puts before its payload, and gives the bytes
left of `left`. -/
def passInfo (subId : Nat) (left : Int) : Fields Int := do
  if hasFrameInfo subId then
    pass subHeaderSize
    let left := left - subHeaderSize
    if isSampled subId && subHeaderSize ≤ left then
      pass subHeaderSize
      return left - subHeaderSize
    else return left
  else return left

/-- Reads the sub-stream id and passes over the info behind it. Gives the id
and the bytes left of `left`. -/
def readSubStream (left : Int) : Fields (Nat × Int) := do
  expect (4 ≤ left)
  let subId ← field 1
  expect (!isSubpicture subId)
  return (subId, ← passInfo subId (left - 1))

/-- Reads the timestamp of a header that announces one and has `headerLeft`
bytes left. Gives the number of bytes taken as well. -/
def readAnnounced (isAnnounced : Bool) (headerLeft : Nat) : Fields (Option Int × Nat) := do
  if isAnnounced then
    expect (timestampSize ≤ headerLeft)
    let timestamp ← readTimestamp (← field 1)
    return (some timestamp, timestampSize)
  else return (none, 0)

/-- Passes over a second timestamp that the header announces, and gives the
number of bytes taken. -/
def passAnnounced (isAnnounced : Bool) (headerLeft : Nat) : Fields Nat := do
  if isAnnounced then
    expect (timestampSize ≤ headerLeft)
    pass timestampSize
    return timestampSize
  else return 0

/-- The timestamp and the sub-stream of a header that announces its size, of
whose packet `left` bytes are left. -/
def readSizedForm (id offset : Nat) (left : Int) (first : Nat) : Fields Reading := do
  if first / 16 % 4 ≠ 0 then throw (.failed (.scrambled offset))
  let announced := (← field 1) / 64
  let headerSize ← field 1
  let left := left - 2
  expect (headerSize ≤ left)
  let (timestamp, taken) ← readAnnounced (announced.testBit 1) headerSize
  let left := left - taken
  let headerLeft := headerSize - taken
  let taken ← passAnnounced (announced.testBit 0) headerLeft
  let left := left - taken
  let headerLeft := headerLeft - taken
  pass headerLeft
  let left := left - headerLeft
  if id = StreamId.privateStream1 then
    let (subId, left) ← readSubStream left
    return ⟨timestamp, some subId, left⟩
  else return ⟨timestamp, none, left⟩

/-- Passes over the buffer size that may stand before the timestamps. Gives the
first byte behind it, with the bytes left of `left`. -/
def readPastBufferSize (left : Int) (first : Nat) : Fields (Nat × Int) := do
  if first / 64 = 1 then
    expect (2 ≤ left)
    pass 1
    return (← field 1, left - 2)
  else return (first, left)

/-- The timestamp and the sub-stream of a header whose form the first four bits
of `first` tell, and of whose packet `left` bytes are left behind that byte. -/
def readMarkedForm (id offset : Nat) (left : Int) (first : Nat) : Fields Reading := do
  match first / 16 with
  | 2 => return ⟨some (← readTimestamp first), none, left - 4⟩
  | 3 =>
      let timestamp ← readTimestamp first
      pass timestampSize
      return ⟨some timestamp, none, left - (4 + timestampSize)⟩
  | mark =>
      if mark / 4 = 2 then readSizedForm id offset left first
      else
        expect (first == 0x0F)
        return ⟨none, none, left⟩

/-- The timestamp and the sub-stream of any header, of whose packet `left`
bytes are left. -/
def readForm (id offset left : Nat) : Fields Reading := do
  let (byte, left) ← readPastStuffing left
  let (first, left) ← readPastBufferSize left byte
  readMarkedForm id offset left first

/-- The header of a packet whose length field has been read. -/
def readHeader (id offset fullLength : Nat) : Fields PesHeader := do
  expect (StreamId.isParseable id && fullLength != 0)
  let reading ← readForm id offset fullLength
  expect (0 < reading.left)
  return ⟨id, reading.subId, reading.timestamp, reading.left.toNat, fullLength⟩

end Pes

/-- Reads the header of a packet of stream `id`, from its length field on. The
start code stands at `offset`, which only an error mentions. -/
def readPes (id offset : Nat) : Source.Action Error PesContent := fun source =>
  match Source.readNumber 2 source with
  | (.error fault, after) => (.error (.source fault), after)
  | (.ok fullLength, after) =>
      match Pes.readHeader id offset fullLength after with
      | (.ok header, after) => (.ok (.payload header), after)
      | (.error .unusable, after) => (.ok (.rejected fullLength), after)
      | (.error (.failed error), after) => (.error error, after)

end MediaSplit.ProgramStream

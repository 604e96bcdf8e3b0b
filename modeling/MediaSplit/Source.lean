import MediaSplit.Bytes
import MediaSplit.Fault

/-!
Contract: a seekable byte source held in memory.

Owns:
- `Source`, bytes with one read position, and `Source.Action`, a chain of
  requests to it;
- exact big-endian reads, bounded reads, seeks and size queries.

The position may stand past the end. An exact read that does not fit fails and
moves the position to the end of the data, from beyond the end too; a refused
seek moves nothing. A failed action keeps the position it reached, so a
caller that goes on after a failure goes on from there.
-/

set_option autoImplicit false

namespace MediaSplit

/-- The equality test of the core library, also beside others. -/
instance (priority := 10000) coreDecidableEqByteArray : DecidableEq ByteArray :=
  ByteArray.instDecidableEq

/-- Bytes under a read position. -/
structure Source where
  /-- Everything the source holds. -/
  content : ByteArray
  /-- The next byte to read; may lie beyond the end. -/
  position : Nat
  deriving DecidableEq, Inhabited

namespace Source

/-- A chain of requests: a value or the first error, and the source after it. -/
abbrev Action (ε α : Type) := ExceptT ε (StateM Source) α

/-- A source over `bytes`, at its start. -/
def ofBytes (bytes : Bytes) : Source := ⟨⟨bytes.toArray⟩, 0⟩

/-- The bytes of a source, first byte first. -/
def toBytes (source : Source) : Bytes := source.content.data.toList

/-- The number of bytes a source holds. -/
def size (source : Source) : Nat := source.content.size

/-- The bytes that lie between the read position and the end. -/
def remaining (source : Source) : Nat := source.size - source.position

/-- The bytes from `offset` up to `offset + count`, as far as they exist. -/
def bytesAt (source : Source) (offset count : Nat) : Bytes :=
  (source.content.extract offset (offset + count)).data.toList

theorem bytesAt_eq_slice (source : Source) (offset count : Nat) :
    source.bytesAt offset count = source.toBytes.slice offset count := by
  simp [bytesAt, toBytes, Bytes.slice, List.take_drop]

/-- The byte at `offset`, if the source reaches that far. -/
def byteAt? (source : Source) (offset : Nat) : Option Nat :=
  source.content[offset]?.map UInt8.toNat

/-- The big-endian number at `offset`, where all its `width` bytes exist. -/
def numberAt? (source : Source) (offset width : Nat) : Option Nat :=
  if offset + width ≤ source.size then some (Bytes.toNumber (source.bytesAt offset width))
  else none

theorem lt_size_of_byteAt? {source : Source} {offset byte : Nat}
    (present : source.byteAt? offset = some byte) : offset < source.size := by
  by_cases fits : offset < source.content.size
  · exact fits
  · simp [byteAt?, getElem?_neg source.content offset fits] at present

theorem le_size_of_numberAt? {source : Source} {offset width value : Nat}
    (present : source.numberAt? offset width = some value) : offset + width ≤ source.size := by
  by_cases fits : offset + width ≤ source.size
  · exact fits
  · simp [numberAt?, fits] at present

/-- The same bytes at another position. -/
def movedTo (source : Source) (position : Nat) : Source :=
  { source with position := position }

@[simp] theorem size_movedTo (source : Source) (position : Nat) :
    (source.movedTo position).size = source.size := rfl

@[simp] theorem position_movedTo (source : Source) (position : Nat) :
    (source.movedTo position).position = position := rfl

/-- The same bytes, all of them read. -/
def movedToEnd (source : Source) : Source := source.movedTo source.size

/-- Positions fit in 64 bits. -/
def positionLimit : Nat := 2 ^ 64

variable {ε : Type}

/-- The read position. -/
def tell : Action ε Nat := do
  return (← get).position

/-- Moves the read position. -/
def seekTo (position : Nat) : Action ε Unit :=
  modify fun source => source.movedTo position

/-- The total size; the position stays. -/
def totalSize : Action ε Nat := do
  return (← get).size

/-- Whether the position is at the end or past it. -/
def atEnd : Action ε Bool := do
  let source ← get
  return decide (source.size ≤ source.position)

/-- Reads at most `count` bytes, fewer only at the end. -/
def readUpTo (count : Nat) : Action ε Bytes := fun source =>
  let bytes := source.bytesAt source.position count
  (.ok bytes, source.movedTo (source.position + bytes.length))

/-- Runs `action` and puts the read position back, whatever came of it. -/
def withPositionRestored {α : Type} (action : Action ε α) : Action ε α := fun source =>
  let (outcome, after) := action source
  (outcome, after.movedTo source.position)

/-- Moves the read position by `delta`. -/
def skip (delta : Int) : Action SourceFault Unit := fun source =>
  let target := (source.position : Int) + delta
  if target < 0 ∨ (positionLimit : Int) ≤ target then (.error .invalidPosition, source)
  else (.ok (), source.movedTo target.toNat)

/-- Reads exactly `count` bytes. -/
def readExactly (count : Nat) : Action SourceFault Bytes := fun source =>
  if count = 0 then (.ok [], source)
  else if source.remaining < count then (.error .endOfData, source.movedTo source.size)
  else (.ok (source.bytesAt source.position count), source.movedTo (source.position + count))

/-- Reads a big-endian number of `width` bytes. -/
def readNumber (width : Nat) : Action SourceFault Nat := do
  return Bytes.toNumber (← readExactly width)

/-- Reads one byte. -/
def readByte : Action SourceFault Nat := readNumber 1

/-- Reads the next byte and steps back before it. -/
def peekByte : Action SourceFault Nat := do
  let byte ← readByte
  skip (-1)
  return byte

end Source

end MediaSplit

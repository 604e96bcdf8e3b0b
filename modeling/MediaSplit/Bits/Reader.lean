import MediaSplit.Bits.Error
import MediaSplit.Bytes

/-!
Contract: a big-endian bit cursor over header bytes.

Owns:
- `BitReader`, a run of bytes with one bit position;
- fixed-width fields (`readBits`, `peekBits`), single bits, Exp-Golomb codes
  (`readUnsignedCode`, `readSignedCode`), `skip` and `alignToByte`;
- `Bits.Parse`, the monad in which header formats chain such reads.

Every operation also returns the reader it leaves behind, after a failure too:
a failed fixed-width read or skip moves nothing, while an Exp-Golomb code that
cannot be completed has consumed the bits it looked at.
-/

set_option autoImplicit false

namespace MediaSplit

/-- A bit cursor over a run of bytes. -/
structure BitReader where
  /-- The bytes under the cursor. -/
  data : Bytes
  /-- Bits consumed so far. -/
  position : Nat
  deriving DecidableEq, Repr, Inhabited

/-- A chain of bit reads: a value or the first error, and the cursor after it. -/
abbrev Bits.Parse (α : Type) := ExceptT Bits.Error (StateM BitReader) α

namespace BitReader

/-- A cursor before the first bit. -/
def ofBytes (data : Bytes) : BitReader := ⟨data, 0⟩

/-- Bits left before the end of the data. -/
def remainingBits (reader : BitReader) : Nat :=
  8 * reader.data.length - reader.position

/-- Whether `count` more bits are there, looking no further than the last of
them. -/
def holds (reader : BitReader) (count : Nat) : Bool :=
  count == 0 || Bytes.hasAtLeast ((reader.position + count + 7) / 8) reader.data

/-- Whether the cursor stands on a byte boundary. -/
def isByteAligned (reader : BitReader) : Bool :=
  reader.position % 8 == 0

/-- Moves the cursor `count` bits forward without a check. -/
def advance (reader : BitReader) (count : Nat) : BitReader :=
  { reader with position := reader.position + count }

/-- The number spelled by `count` bits that start `offset` bits into `data`,
put behind the bits already gathered in `value`. Each step takes what the
first byte still holds. -/
def gather : (data : Bytes) → (offset count value : Nat) → Nat
  | [], _, _, value => value
  | byte :: rest, offset, count, value =>
      if count = 0 then value
      else
        let taken := min (8 - offset) count
        let field := byte.toNat / 2 ^ (8 - offset - taken) % 2 ^ taken
        gather rest 0 (count - taken) (value * 2 ^ taken + field)

/-- The number spelled by the next `count` bits. -/
def fieldAhead (reader : BitReader) (count : Nat) : Nat :=
  gather (reader.data.drop (reader.position / 8)) (reader.position % 8) count 0

/-- Reads an unsigned field of at most 32 bits. -/
def readBits (count : Nat) : Bits.Parse Nat := fun reader =>
  if 32 < count then (.error (.tooManyBits count), reader)
  else if reader.holds count then (.ok (reader.fieldAhead count), reader.advance count)
  else (.error .unexpectedEnd, reader)

/-- Reads a field and leaves the cursor where it was. -/
def peekBits (count : Nat) : Bits.Parse Nat := fun reader =>
  ((readBits count reader).1, reader)

/-- Reads one bit as a flag. -/
def readFlag : Bits.Parse Bool := do
  return (← readBits 1) == 1

/-- Moves forward over `count` bits, if they are there. -/
def skip (count : Nat) : Bits.Parse Unit := fun reader =>
  if reader.holds count then (.ok (), reader.advance count)
  else (.error .unexpectedEnd, reader)

/-- Moves to the next byte boundary. -/
def alignToByte (reader : BitReader) : BitReader :=
  { reader with position := (reader.position + 7) / 8 * 8 }

/-- The most zero bits that may start an Exp-Golomb code. -/
def maxCodeZeros : Nat := 31

/-- Counts the zero bits before the next one bit and consumes both, giving up
at the zero bit that exceeds `allowed`. -/
def readZeroRun : (allowed : Nat) → Bits.Parse Nat
  | 0 => do
      if ← readFlag then return 0 else throw .codeTooLong
  | allowed + 1 => do
      if ← readFlag then return 0 else return (← readZeroRun allowed) + 1

/-- Reads an unsigned Exp-Golomb code: `z` zero bits, a one bit, and `z` more
bits, which stand for `2 ^ z - 1` plus the number the last `z` bits spell. -/
def readUnsignedCode : Bits.Parse Nat := do
  let zeros ← readZeroRun maxCodeZeros
  let offset ← readBits zeros
  return 2 ^ zeros - 1 + offset

/-- The integer that stands at place `code` in the order `0, 1, -1, 2, -2, …`. -/
def signedOfCode (code : Nat) : Int :=
  if code % 2 = 1 then ((code + 1) / 2 : Nat) else -((code / 2 : Nat) : Int)

/-- Reads a signed Exp-Golomb code. -/
def readSignedCode : Bits.Parse Int := do
  return signedOfCode (← readUnsignedCode)

@[simp] theorem advance_advance (reader : BitReader) (first second : Nat) :
    (reader.advance first).advance second = reader.advance (first + second) := by
  rw [advance, advance, advance, Nat.add_assoc]

@[simp] theorem holds_iff (reader : BitReader) (count : Nat) :
    reader.holds count = true ↔ count ≤ reader.remainingBits := by
  simp only [holds, remainingBits, Bool.or_eq_true, beq_iff_eq, Bytes.hasAtLeast_iff]
  omega

end BitReader

end MediaSplit

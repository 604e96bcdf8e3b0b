import MediaSplit.Bits.Ahead

/-!
Contract: sequences of requests to a bit cursor, and the three ways of telling
what they come to.

Owns:
- `BitReader.Request`, whatever a cursor can be asked for, with its answers;
- `Request.perform` and `performAll`, the cursor itself;
- `Request.onBits` and `readings`, the same requests to a list of bits, which
  know of neither bytes nor positions;
- `lookUpAll`, the cursor with a field that is gathered by look-ups at absolute
  places, any of which could miss.

Does **not** own: that the three agree.

The codes are put together from reads of fixed fields in the same way whichever
fields these are. `zeroRunBy` and `unsignedCodeBy` say how.
-/

set_option autoImplicit false

namespace MediaSplit

/-! ## Requests to a list of bits -/

namespace Bits

/-- The zero bits before the first one bit. -/
def leadingZeros (bits : List Bool) : Nat := (bits.takeWhile (! ·)).length

/-- What the Exp-Golomb code at the front of the bits stands for, and how many
bits are consumed: `z` zero bits, a one bit, and `z` more bits, which stand for
`2 ^ z - 1` plus the number the last `z` bits spell. -/
def codeAhead (bits : List Bool) : Except Error Nat × Nat :=
  let zeros := leadingZeros bits
  let behind := bits.drop (zeros + 1)
  if 31 < zeros then (.error .codeTooLong, 32)
  else if zeros = bits.length then (.error .unexpectedEnd, zeros)
  else if behind.length < zeros then (.error .unexpectedEnd, zeros + 1)
  else (.ok (2 ^ zeros - 1 + toNumber (behind.take zeros)), 2 * zeros + 1)

/-- What the next `count` bits spell, and how many bits are consumed. -/
def fieldAhead (count : Nat) (bits : List Bool) : Except Error Nat × Nat :=
  if 32 < count then (.error (.tooManyBits count), 0)
  else if bits.length < count then (.error .unexpectedEnd, 0)
  else (.ok (toNumber (bits.take count)), count)

end Bits

namespace BitReader

/-- What a cursor can be asked for. -/
inductive Request where
  | flag
  | field (count : Nat)
  | peek (count : Nat)
  | unsignedCode
  | signedCode
  | skip (count : Nat)
  | align
  deriving DecidableEq, Repr

/-- What a request is answered with. -/
inductive Answer where
  | flag (flag : Bool)
  | number (value : Nat)
  | integer (value : Int)
  | done
  deriving DecidableEq, Repr

/-- The answer that a list of bits gives, and how many of its bits are
consumed. -/
def Request.onBits (bits : List Bool) : Request → Except Bits.Error Answer × Nat
  | flag =>
      match bits with
      | [] => (.error .unexpectedEnd, 0)
      | bit :: _ => (.ok (.flag bit), 1)
  | field count => ((Bits.fieldAhead count bits).1.map .number, (Bits.fieldAhead count bits).2)
  | peek count => ((Bits.fieldAhead count bits).1.map .number, 0)
  | unsignedCode => ((Bits.codeAhead bits).1.map .number, (Bits.codeAhead bits).2)
  | signedCode =>
      ((Bits.codeAhead bits).1.map (.integer ∘ signedOfCode), (Bits.codeAhead bits).2)
  | skip count =>
      if bits.length < count then (.error .unexpectedEnd, 0) else (.ok .done, count)
  -- what is left ends on a byte boundary
  | align => (.ok .done, bits.length % 8)

/-- The answers to requests, one after the other, and the number of bits
consumed after each, where `before` bits have been consumed. -/
def readings (bits : List Bool) (before : Nat) :
    List Request → List (Except Bits.Error Answer × Nat)
  | [] => []
  | request :: rest =>
      let (answer, count) := request.onBits (bits.drop before)
      (answer, before + count) :: readings bits (before + count) rest

/-! ## Requests to a cursor -/

def Request.perform : Request → Bits.Parse Answer
  | flag => Answer.flag <$> readFlag
  | field count => Answer.number <$> readBits count
  | peek count => Answer.number <$> peekBits count
  | unsignedCode => Answer.number <$> readUnsignedCode
  | signedCode => Answer.integer <$> readSignedCode
  | skip count => (fun _ => Answer.done) <$> BitReader.skip count
  | align => fun reader => (.ok .done, reader.alignToByte)

/-- The answers to requests, one after the other, and the cursor after each. -/
def performAll (reader : BitReader) : List Request → List (Except Bits.Error Answer × BitReader)
  | [] => []
  | request :: rest =>
      let (answer, after) := request.perform.run reader
      (answer, after) :: performAll after rest

/-! ## Requests whose look-ups could miss -/

/-- A chain of reads that comes to nothing where a byte is looked up that is not
there. -/
abbrev LookUp (α : Type) := ExceptT Bits.Error (StateT BitReader Option) α

/-- Gathers `left` bits from `position` on behind those in `value`, byte by byte,
each looked up at its place. -/
def lookUpField (data : Bytes) (position left value : Nat) : Option Nat :=
  if left = 0 then some value
  else do
    let byte ← data[position / 8]?
    let offset := position % 8
    let taken := min (8 - offset) left
    let field := byte.toNat / 2 ^ (8 - offset - taken) % 2 ^ taken
    lookUpField data (position + taken) (left - taken) (value * 2 ^ taken + field)
termination_by left
decreasing_by omega

def lookUpBits (count : Nat) : LookUp Nat := fun reader =>
  if 32 < count then some (.error (.tooManyBits count), reader)
  else if reader.remainingBits < count then some (.error .unexpectedEnd, reader)
  else (lookUpField reader.data reader.position count 0).map fun value =>
    (.ok value, reader.advance count)

section Codes

variable {m : Type → Type} [Monad m] [MonadExceptOf Bits.Error m] (field : Nat → m Nat)

def flagBy : m Bool := do
  return (← field 1) == 1

def zeroRunBy : (allowed : Nat) → m Nat
  | 0 => do
      if ← flagBy field then return 0 else throw .codeTooLong
  | allowed + 1 => do
      if ← flagBy field then return 0 else return (← zeroRunBy allowed) + 1

def unsignedCodeBy : m Nat := do
  let zeros ← zeroRunBy field maxCodeZeros
  let offset ← field zeros
  return 2 ^ zeros - 1 + offset

end Codes

def Request.lookUp : Request → LookUp Answer
  | flag => Answer.flag <$> flagBy lookUpBits
  | field count => Answer.number <$> lookUpBits count
  | peek count => fun reader =>
      (lookUpBits count reader).map fun (answer, _) => (answer.map .number, reader)
  | unsignedCode => Answer.number <$> unsignedCodeBy lookUpBits
  | signedCode => (Answer.integer ∘ signedOfCode) <$> unsignedCodeBy lookUpBits
  | skip count => fun reader => some (((fun _ => Answer.done) <$> BitReader.skip count) reader)
  | align => fun reader => some (.ok .done, reader.alignToByte)

/-- The answers to requests and the cursor after each, or nothing if any look-up
misses. -/
def lookUpAll (reader : BitReader) :
    List Request → Option (List (Except Bits.Error Answer × BitReader))
  | [] => some []
  | request :: rest => do
      let (answer, after) ← request.lookUp.run reader
      let later ← lookUpAll after rest
      return (answer, after) :: later

end BitReader

end MediaSplit

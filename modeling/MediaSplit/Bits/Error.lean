/-!
Contract: what can go wrong while a bit field is read.

Owns: `Bits.Error` and its wording.

Does **not** own: the wider family of faults that a reader reports
(`MediaSplit.Fault`), which wraps this one.
-/

set_option autoImplicit false

namespace MediaSplit.Bits

/-- Why a bit field could not be read. -/
inductive Error where
  /-- The field runs past the last bit. -/
  | unexpectedEnd
  /-- A syntax element holds a value that its format does not allow. -/
  | invalidElement (element : String) (value : Int)
  /-- An Exp-Golomb code starts with more than 31 zero bits. -/
  | codeTooLong
  /-- A single read asked for more than 32 bits. -/
  | tooManyBits (count : Nat)
  deriving DecidableEq, Repr, Inhabited

/-- The text shown for a bit-level error. -/
def Error.message : Error → String
  | .unexpectedEnd => "Unexpected end of bitstream"
  | .invalidElement element value =>
      "Invalid syntax element: " ++ element ++ " = " ++ toString value
  | .codeTooLong => "Exp-Golomb decoding error: value too large"
  | .tooManyBits count => "Cannot read " ++ toString count ++ " bits at once"

end MediaSplit.Bits

import MediaSplit.Power
import MediaSplit.Text.Blank

/-!
Contract: numbers written in decimal.

Owns:
- `Text.integer?`, signed 64-bit integers: an optional sign and digits;
- `Text.decimal?`, the grammar of decimal fractions with an optional exponent,
  and of the words for infinity and not-a-number;
- `Decimal.toFloat`, the double nearest to a decimal, a tie going to the even
  one.

An integer that does not fit is refused. The exponent of a decimal is bounded
instead: it stops growing where its digits reach `Text.exponentLimit`, so every
text in the grammar is a number.

The nearest double is computed in whole numbers: the decimal is a quotient of
two naturals, a power of two scales it to 53 binary digits (fewer below the
least normal double), and the quotient is rounded once.
-/

set_option autoImplicit false

namespace MediaSplit

/-- A written decimal: `mantissa * 10 ^ exponent`, with its sign. -/
structure Decimal where
  isNegative : Bool
  mantissa : Nat
  exponent : Int
  deriving DecidableEq, Repr, Inhabited

namespace Decimal

/-- A quotient rounded to the nearest natural; a tie goes to the even one. -/
def roundedQuotient (dividend divisor : Nat) : Nat :=
  let quotient := dividend / divisor
  let twice := 2 * (dividend % divisor)
  if divisor < twice ∨ (divisor = twice ∧ quotient % 2 = 1) then quotient + 1 else quotient

/-- The greatest exponent whose power of two is at most the quotient of two
positive naturals. -/
def floorLog2 (dividend divisor : Nat) : Int :=
  let estimate := (dividend.log2 : Int) - divisor.log2
  let isLess :=
    if 0 ≤ estimate then dividend < divisor * 2 ^ estimate.toNat
    else dividend * 2 ^ (-estimate).toNat < divisor
  if isLess then estimate - 1 else estimate

/-- Exponent of the least positive double. -/
def leastExponent : Int := -1074

/-- The bits of infinity. -/
def infinityBits : Nat := 0x7FF * 2 ^ 52

/-- The bits of the double nearest to a quotient of naturals. A significand
that rounds up to 54 binary digits carries into the exponent field by itself. -/
def bitsOfQuotient (dividend divisor : Nat) : Nat :=
  if dividend = 0 then 0
  else
    let exponent := max (floorLog2 dividend divisor - 52) leastExponent
    let significand :=
      if 0 ≤ exponent then roundedQuotient dividend (divisor * 2 ^ exponent.toNat)
      else roundedQuotient (dividend * 2 ^ (-exponent).toNat) divisor
    min ((exponent - leastExponent).toNat * 2 ^ 52 + significand) infinityBits

/-- From this power of ten on the nearest double is infinity. -/
def infiniteOrder : Int := 309

/-- Up to this power of ten the nearest double is zero. -/
def zeroOrder : Int := -324

/-- The bits of the double nearest to the absolute value. Far outside the range
of doubles the answer is known from the binary length alone: a mantissa of
`length + 1` binary digits is at least `10 ^ (3 * (length / 10))` and below
`10 ^ (length / 3 + 1)`. -/
def magnitudeBits (decimal : Decimal) : Nat :=
  let length := decimal.mantissa.log2
  if decimal.mantissa = 0 ∨ decimal.exponent + (length / 3 + 1 : Nat) ≤ zeroOrder then 0
  else if infiniteOrder ≤ decimal.exponent + (3 * (length / 10) : Nat) then infinityBits
  else if 0 ≤ decimal.exponent then
    bitsOfQuotient (decimal.mantissa * 10 ^ decimal.exponent.toNat) 1
  else bitsOfQuotient decimal.mantissa (10 ^ (-decimal.exponent).toNat)

/-- The nearest double. -/
def toFloat (decimal : Decimal) : Float :=
  Float.ofBits (UInt64.ofNat (decimal.magnitudeBits + decimal.isNegative.toNat * 2 ^ 63))

end Decimal

namespace Text

/-- Whether a text is made of digits, at least one. -/
def isDigits (text : List Char) : Bool := !text.isEmpty && text.all Char.isDigit

/-- The number that is spelled with one more digit behind. -/
def appendDigit (value : Nat) (digit : Char) : Nat := value * 10 + (digit.toNat - '0'.toNat)

/-- The most digits that are read one after the other. -/
def shortLength : Nat := 32

/-- The number that digits spell. Many digits are read in halves, which keeps
the work near the length of the text. -/
def valueOfDigits (digits : List Char) : Nat :=
  if digits.length ≤ shortLength then digits.foldl appendDigit 0
  else
    let half := digits.length / 2
    valueOfDigits (digits.take half) * 10 ^ (digits.length - half)
      + valueOfDigits (digits.drop half)
termination_by digits.length
decreasing_by all_goals simp only [shortLength, List.length_take, List.length_drop] at *; omega

theorem foldl_appendDigit (digits : List Char) (value : Nat) :
    digits.foldl appendDigit value
      = value * 10 ^ digits.length + digits.foldl appendDigit 0 := by
  induction digits generalizing value with
  | nil => simp
  | cons digit rest ih =>
    simp only [List.foldl_cons, List.length_cons]
    rw [ih (appendDigit value digit), ih (appendDigit 0 digit)]
    simp only [appendDigit, Nat.pow_succ]
    grind

/-- Reading in halves is reading one digit after the other. -/
theorem valueOfDigits_eq_foldl (digits : List Char) :
    valueOfDigits digits = digits.foldl appendDigit 0 := by
  fun_induction valueOfDigits digits with
  | case1 digits short => rfl
  | case2 digits long half front back =>
    rw [front, back]
    conv => rhs; rw [← List.take_append_drop half digits, List.foldl_append, foldl_appendDigit]
    rw [List.length_drop]

example : valueOfDigits (List.replicate 40 '9') = 10 ^ 40 - 1 := by
  rw [valueOfDigits_eq_foldl]
  decide

/-- Splits off a sign; the flag tells a minus sign. -/
def splitSign (text : List Char) : Bool × List Char :=
  match text with
  | '-' :: rest => (true, rest)
  | '+' :: rest => (false, rest)
  | _ => (false, text)

/-- Reads digits with an optional sign; the digits spell what `spell` says. -/
def signedDigits? (spell : List Char → Nat) (text : List Char) : Option Int :=
  let (isNegative, digits) := splitSign text
  if isDigits digits then
    let value : Int := spell digits
    some (if isNegative then -value else value)
  else none

/-- Reads a signed 64-bit integer. -/
def integer? (text : List Char) : Option Int :=
  (signedDigits? valueOfDigits text).filter fun value => -(2 ^ 63 : Int) ≤ value && value < 2 ^ 63

/-- Where an exponent stops growing: once its digits have spelled this much, the
digits behind them are read and do not count. -/
def exponentLimit : Nat := 2 ^ 16

/-- The exponent that digits spell, bounded by `exponentLimit`. -/
def exponentOfDigits (digits : List Char) : Nat :=
  digits.foldl (fun value digit =>
    if value < exponentLimit then appendDigit value digit else value) 0

/-- Whether a character starts an exponent. -/
def isExponentMark (c : Char) : Bool := c == 'e' || c == 'E'

/-- Reads an exponent: nothing, or a mark and signed digits. -/
def exponent? (text : List Char) : Option Int :=
  match text with
  | [] => some 0
  | _ :: digits => signedDigits? exponentOfDigits digits

/-- Reads digits with at most one point among them: the number they spell
without the point and the count of digits behind it. -/
def pointedDigits? (text : List Char) : Option (Nat × Nat) :=
  let whole := text.takeWhile (· ≠ '.')
  let fraction := (text.dropWhile (· ≠ '.')).drop 1
  if isDigits (whole ++ fraction) then
    some (valueOfDigits (whole ++ fraction), fraction.length)
  else none

/-- Reads a decimal without its sign. -/
def unsignedDecimal? (isNegative : Bool) (text : List Char) : Option Decimal := do
  let (mantissa, places) ← pointedDigits? (text.takeWhile (!isExponentMark ·))
  let exponent ← exponent? (text.dropWhile (!isExponentMark ·))
  return ⟨isNegative, mantissa, exponent - places⟩

/-- Reads a decimal. -/
def decimal? (text : List Char) : Option Decimal :=
  let (isNegative, rest) := splitSign text
  unsignedDecimal? isNegative rest

/-- Reads a word for infinity or not-a-number. -/
def floatWord? (text : List Char) : Option Float :=
  let (isNegative, word) := splitSign text
  let infinity := if isNegative then -(1.0 / 0.0) else 1.0 / 0.0
  if equalIgnoringCase word "inf".toList || equalIgnoringCase word "infinity".toList then
    some infinity
  else if equalIgnoringCase word "nan".toList then some (0.0 / 0.0)
  else none

/-- Reads a floating point number. -/
def float? (text : List Char) : Option Float :=
  (floatWord? text).or ((decimal? text).map Decimal.toFloat)

end Text

end MediaSplit

/-!
Contract: numbers written in base sixteen.

Owns: `Text.hexLower` and `Text.hexUpper`, both padded with zeros to a least
number of digits and never cut.
-/

set_option autoImplicit false

namespace MediaSplit.Text

/-- The digits, left-padded with zeros to at least `width` of them. -/
def padLeft (width : Nat) (digits : List Char) : String :=
  String.ofList (List.replicate (width - digits.length) '0' ++ digits)

/-- Lower-case hexadecimal, at least `width` digits. -/
def hexLower (width value : Nat) : String :=
  padLeft width (Nat.toDigits 16 value)

/-- Upper-case hexadecimal, at least `width` digits. -/
def hexUpper (width value : Nat) : String :=
  padLeft width ((Nat.toDigits 16 value).map Char.toUpper)

end MediaSplit.Text

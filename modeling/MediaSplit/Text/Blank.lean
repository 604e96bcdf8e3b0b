/-!
Contract: white space in text.

Owns: the set of white-space code points of Unicode, `Text.isBlank`; trimming
on both sides; cutting a line at a separator; and comparison that ignores the
case of ASCII letters.
-/

set_option autoImplicit false

namespace MediaSplit.Text

/-- Whether a character is white space. -/
def isBlank (c : Char) : Bool :=
  let code := c.toNat
  (9 ≤ code && code ≤ 13) || code == 0x20 || code == 0x85 || code == 0xA0 || code == 0x1680
    || (0x2000 ≤ code && code ≤ 0x200A) || code == 0x2028 || code == 0x2029 || code == 0x202F
    || code == 0x205F || code == 0x3000

/-- The text without white space at either end. -/
def trim (text : List Char) : List Char :=
  ((text.dropWhile isBlank).reverse.dropWhile isBlank).reverse

/-- The pieces of a text between separators; one more than there are
separators. -/
def splitAt (separator : Char) (text : List Char) : List (List Char) :=
  text.foldr
    (fun c pieces =>
      if c = separator then [] :: pieces
      else
        match pieces with
        | piece :: rest => (c :: piece) :: rest
        | [] => [[c]])
    [[]]

/-- The text before the first separator and the text behind it. -/
def splitOnce? (separator : Char) (text : List Char) : Option (List Char × List Char) :=
  match text.dropWhile (· ≠ separator) with
  | [] => none
  | _ :: behind => some (text.takeWhile (· ≠ separator), behind)

/-- Whether two texts agree up to the case of ASCII letters. -/
def equalIgnoringCase (left right : List Char) : Bool :=
  left.map Char.toLower == right.map Char.toLower

/-- What follows `keyword` at the start of a text, the case of its letters
ignored. -/
def afterKeyword? (keyword : String) (text : List Char) : Option (List Char) :=
  let width := keyword.length
  if equalIgnoringCase (text.take width) keyword.toList then some (text.drop width) else none

end MediaSplit.Text

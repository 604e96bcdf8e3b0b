import MediaSplit.Fault

/-!
Contract: how a unit of reader work ends.

Owns: `ReadStatus`, and `Step`, the outcome of a unit of work together with
the reader after it, which exists after a fault too.
-/

set_option autoImplicit false

namespace MediaSplit

/-- Whether there is more to read. -/
inductive ReadStatus where
  /-- Read again. -/
  | moreData
  /-- The input is exhausted and every pending packet has been delivered. -/
  | done
  deriving DecidableEq, Repr, Inhabited

/-- The outcome of one unit of work of a reader, and the reader after it. -/
abbrev Step (ρ : Type) := Except Fault ReadStatus × ρ

end MediaSplit

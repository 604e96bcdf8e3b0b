/-!
Contract: remarks about input that was passed over or completed by guess.

Owns: `Warning`. Warnings are values that operations return beside their
result; none of them changes an outcome.
-/

set_option autoImplicit false

namespace MediaSplit

/-- A remark about the input. -/
structure Warning where
  /-- The line it is about, counted from 1. -/
  line : Option Nat
  text : String
  deriving DecidableEq, Repr, Inhabited

end MediaSplit

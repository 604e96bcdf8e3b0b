/-!
Contract: which power is meant by `^`.

Owns: the choice of the power that the core library defines, for every number
type that has one, also where the exponent is a literal. Where a module sees
another power with natural exponents, the terms of this library stay the same.
-/

set_option autoImplicit false

namespace MediaSplit

@[default_instance 10000]
instance (priority := 10000) corePower {α : Type} [NatPow α] : Pow α Nat := instPowNat

end MediaSplit

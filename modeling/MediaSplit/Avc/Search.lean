import MediaSplit.Avc.DecoderConfig
import MediaSplit.Avc.Escape
import MediaSplit.Avc.Sps
import MediaSplit.Video.Units

/-!
Contract: finding the parameter sets of an AVC stream.

Owns: `Avc.ParameterSets`, the first sequence and the first picture parameter
set of a stream, and the rules of the search for both.

Units are kept without the zero bytes at their end, which belong to the start
code that follows.
-/

set_option autoImplicit false

namespace MediaSplit.Avc

/-- The type of a sequence parameter set. -/
def sequenceSetType : Nat := 7

/-- The type of a picture parameter set. -/
def pictureSetType : Nat := 8

/-- The parameter sets found so far, as units. -/
structure ParameterSets where
  sequenceSet : Option Bytes
  pictureSet : Option Bytes
  deriving DecidableEq, Repr, Inhabited

/-- A unit without the zero bytes at its end. -/
def trimmed (unit : Bytes) : Bytes :=
  (unit.reverse.dropWhile (· == 0)).reverse

/-- The type of a unit, which its first byte gives. -/
def unitType? (unit : Bytes) : Option Nat := unit.head?.map fun byte => byte.toNat % 32

namespace ParameterSets

/-- Keeps a trimmed unit that is the first of its type. -/
def keep (sets : ParameterSets) (unit : Bytes) : ParameterSets :=
  if unitType? unit = some sequenceSetType then
    { sets with sequenceSet := sets.sequenceSet.or (some unit) }
  else if unitType? unit = some pictureSetType then
    { sets with pictureSet := sets.pictureSet.or (some unit) }
  else sets

/-- Whether both sets are there. -/
def areBoth (sets : ParameterSets) : Bool :=
  sets.sequenceSet.isSome && sets.pictureSet.isSome

end ParameterSets

/-- The rules of the search. -/
def rules : Units.Rules ParameterSets :=
  { typeMayBeginCode := true
    endsAt := fun _ _ => false
    take := fun sets unit => sets.keep (trimmed unit)
    isEnough := ParameterSets.areBoth }

/-- The parameters in a sequence parameter set unit. -/
def parseSet (unit : Bytes) : Except Error Sps := Sps.parse (unescape unit.tail)

end MediaSplit.Avc

import MediaSplit.TrueHd.Unit

/-!
Contract: what a window of bytes holds of a TrueHD or MLP stream.

Owns: `TrueHd.Survey` and `Survey.ofBytes`, one walk of a fresh classifier from
unit to unit.
-/

set_option autoImplicit false

namespace MediaSplit.TrueHd

/-- The findings of a walk. -/
structure Survey where
  /-- The first major sync unit, with its offset. -/
  firstSync : Option (Nat × Frame)
  /-- The first AC-3 frame. -/
  firstAc3 : Option Frame
  /-- The number of major sync units. -/
  syncCount : Nat
  deriving DecidableEq, Repr, Inhabited

namespace Survey

/-- Nothing found yet. -/
def empty : Survey := ⟨none, none, 0⟩

/-- The findings after one more unit at `offset`. -/
def noting (survey : Survey) (offset : Nat) (frame : Frame) : Survey :=
  { firstSync := survey.firstSync.or (if frame.isSync then some (offset, frame) else none)
    firstAc3 := survey.firstAc3.or (if frame.kind = .ac3 then some frame else none)
    syncCount := survey.syncCount + frame.isSync.toNat }

/-- Walks from unit to unit; where no unit starts, one byte further. -/
def walk (classifier : Classifier) (survey : Survey) (offset : Nat) : Bytes → Survey
  | [] => survey
  | byte :: rest =>
      match classifier.classify (byte :: rest) with
      | (.frame frame, classifier) =>
          walk classifier (survey.noting offset frame) (offset + max frame.size 1)
            (rest.drop (frame.size - 1))
      | (.needMore, _) => survey
      | (.noFrame, classifier) => walk classifier survey (offset + 1) rest
termination_by data => data.length

/-- Classifies every unit of a window. -/
def ofBytes (data : Bytes) : Survey := walk .initial empty 0 data

/-- Whether the window holds a usable stream. -/
def isValid (survey : Survey) : Bool := 2 ≤ survey.syncCount

end Survey

end MediaSplit.TrueHd

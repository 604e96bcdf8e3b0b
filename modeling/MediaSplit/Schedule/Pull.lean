import MediaSplit.Power

/-!
Contract: what a schedule says about one frame.

Owns: `Schedule.Pull`, and the signed 64-bit range to which sums of instants
are clamped.
-/

set_option autoImplicit false

namespace MediaSplit.Schedule

/-- Timing of one frame. -/
structure Pull where
  timecode : Int
  /-- How long the frame lasts, unless neither the schedule nor the caller
  knows. -/
  duration : Option Int
  /-- Whether the frame opens a range or an entry, or follows a gap. -/
  startsSegment : Bool
  deriving DecidableEq, Repr, Inhabited

/-- The greatest signed 64-bit integer. -/
def greatest : Int := 2 ^ 63 - 1

/-- The least signed 64-bit integer. -/
def least : Int := -(2 ^ 63)

/-- The nearest signed 64-bit integer. -/
def clamped (value : Int) : Int := min (max value least) greatest

/-- End of what nothing follows: the frame number or duration of an open end. -/
def openEnd : Int := 0x0FFFFFFFFFFFFFFF

end MediaSplit.Schedule

import MediaSplit.Power

/-!
Contract: instants and durations.

Owns: the unit of this library, the nanosecond, as a plain integer; the
conversions from clock ticks, sample counts and frame rates; the signed
64-bit reading `Time.wrapped` of an integer, and its saturating counterpart
for numbers that come from floating point.

An unknown instant is `none`. The written form `-1` for it exists only in
`toWritten` and `ofWritten`.
-/

set_option autoImplicit false

namespace MediaSplit.Time

/-- The written form of an unknown instant. -/
def unknown : Int := -1

/-- The value whose 64-bit two's complement form is that of `value`. -/
def wrapped (value : Int) : Int := Int.bmod value (2 ^ 64)

/-- The nearest signed 64-bit integer toward zero; infinities give the ends of
the range and not-a-number gives zero. -/
def ofFloat (value : Float) : Int := value.toModel.toInt64.toInt

/-- Nanoseconds of a count of 90 kHz clock ticks, toward zero. One tick is
`100000 / 9` nanoseconds. -/
def ofTicks (ticks : Nat) : Int := Int.tdiv (wrapped ticks * 100000) 9

/-- Nothing is wrapped where 64 bits hold the ticks as a signed number. -/
theorem ofTicks_eq {ticks : Nat} (small : ticks < 2 ^ 63) :
    ofTicks ticks = (ticks * 100000 / 9 : Nat) := by
  have unwrapped : wrapped ticks = ticks := by
    rw [wrapped, Int.bmod_def]
    omega
  rw [ofTicks, unwrapped, Int.tdiv_eq_ediv_of_nonneg (by omega)]
  omega

/-- Whole 90 kHz clock ticks in a span; none in a negative one. -/
def toTicks (nanoseconds : Int) : Nat := nanoseconds.toNat * 9 / 100000

/-- The length of one frame at `rate` frames per second, to the nearest
nanosecond. There is none for a rate that is not a positive finite number. -/
def frameDuration? (rate : Float) : Option Int :=
  if rate.isFinite && rate > 0.0 then some (ofFloat (1e9 / rate).round) else none

/-- The length of `samples` audio samples, toward zero. There is none when the
rate is zero. -/
def ofSamples? (samples rate : Nat) : Option Int :=
  if rate = 0 then none
  else some (wrapped ((samples * 1000000000 / rate : Nat) : Int))

/-- The written form of an instant that may be unknown. -/
def toWritten (instant : Option Int) : Int := instant.getD unknown

/-- Reads a written instant; every negative one is unknown. -/
def ofWritten (written : Int) : Option Int :=
  if 0 ≤ written then some written else none

end MediaSplit.Time

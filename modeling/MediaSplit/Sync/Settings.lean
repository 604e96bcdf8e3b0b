import MediaSplit.Schedule
import MediaSplit.Time.Linear

/-!
Contract: how the timestamps of a track are shifted and scaled.

Owns: `Sync.Settings`; `Settings.parse`, which reads them from the argument form
`d[,o[/p]]`, a displacement in milliseconds with an optional speed factor; and
`Sync.Error`, why settings are refused.
-/

set_option autoImplicit false

namespace MediaSplit.Sync

/-- Why settings are refused. -/
inductive Error where
  /-- The argument does not have the form. -/
  | malformed (argument : String)
  /-- A part of the speed factor is not positive. -/
  | invalidFactor (numerator denominator : Int)
  deriving DecidableEq, Repr, Inhabited

namespace Error

/-- The text shown for refused settings. -/
def message : Error → String
  | malformed argument =>
      "Invalid sync argument '" ++ argument
        ++ "': expected 'displacement[,numerator[/denominator]]'"
  | invalidFactor numerator denominator =>
      "Invalid linear factor " ++ toString numerator ++ "/" ++ toString denominator
        ++ ": both parts must be positive"

/-- The refusal as a fault of a reader. -/
def toFault (error : Error) : Fault := .configuration error.message

end Error

/-- How the timestamps of a track are changed before they reach a sink. -/
structure Settings where
  /-- Shift in nanoseconds; a negative one drops leading frames, a positive one
  repeats the first. -/
  displacement : Int
  /-- Speed factor applied after the shift. -/
  linear : Time.Linear
  /-- External timecodes in place of those of the container. -/
  timecodes : Option Schedule
  /-- Whether the track carries video. -/
  isVideo : Bool
  deriving Repr, Inhabited

namespace Settings

/-- Settings that change nothing. -/
def unchanged : Settings := ⟨0, .identity, none, false⟩

/-- The settings with another speed factor. -/
def withFactor (settings : Settings) (numerator denominator : Int) : Except Error Settings :=
  match Time.Linear.of? numerator denominator with
  | some linear => .ok { settings with linear := linear }
  | none => .error (.invalidFactor numerator denominator)

/-- The displacement of a number of milliseconds, to the nearest nanosecond. -/
def displacementOf (milliseconds : Float) : Int :=
  Time.ofFloat (milliseconds * 1000000.0).round

/-- Reads a speed factor; a missing denominator is 1. -/
def parseFactor? (factor : List Char) : Option (Int × Int) := do
  let (numerator, denominator) := (Text.splitOnce? '/' factor).getD (factor, ['1'])
  return (← Text.integer? (Text.trim numerator), ← Text.integer? (Text.trim denominator))

/-- Reads settings from an argument. -/
def parse (argument : String) : Except Error Settings :=
  let trimmed := Text.trim argument.toList
  let refused := Error.malformed (String.ofList trimmed)
  let (displacement, factor) :=
    match Text.splitOnce? ',' trimmed with
    | some (displacement, factor) => (Text.trim displacement, some (Text.trim factor))
    | none => (trimmed, none)
  match Text.float? displacement with
  | none => .error refused
  | some milliseconds =>
      let settings := { unchanged with displacement := displacementOf milliseconds }
      match factor with
      | none => .ok settings
      | some factor =>
          match parseFactor? factor with
          | none => .error refused
          | some (numerator, denominator) => settings.withFactor numerator denominator

end Settings

end MediaSplit.Sync

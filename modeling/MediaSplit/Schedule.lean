import MediaSplit.Schedule.Durations
import MediaSplit.Schedule.FrameRanges
import MediaSplit.Schedule.Timestamps

/-!
Contract: external timecodes for one track, which replace those of the
container.

Owns: `Schedule`, one of the three kinds of schedule; `Schedule.ofBytes`, which
reads a schedule file; and `Schedule.next`, which asks for the timing of the
next frame with or without going on to the one behind it.

The first line of a file names the version of its format, and with it the kind
of schedule.
-/

set_option autoImplicit false

namespace MediaSplit

/-- External timecodes for one track. -/
inductive Schedule where
  | frameRanges (schedule : Schedule.FrameRanges)
  | timestamps (schedule : Schedule.Timestamps)
  | durations (schedule : Schedule.Durations)
  deriving Repr, Inhabited

namespace Schedule

/-- A loaded schedule of one kind as a schedule. -/
def Loaded.as {α : Type} (kind : α → Schedule) (loaded : Loaded α) : Loaded Schedule :=
  (loaded.1.map kind, loaded.2)

/-- Reads the lines behind a format line that names `version`. -/
def loadVersion (version : Int) (lines : Lines) : Loaded Schedule :=
  if version = 1 then (FrameRanges.load lines).as frameRanges
  else if version = 2 then (Timestamps.load lines).as timestamps
  else if version = 3 then (Durations.load lines).as durations
  else (.error (.unsupportedVersion lines.name version), [])

/-- Reads a schedule file. -/
def load (lines : Lines) : Loaded Schedule :=
  match lines.next with
  | (.error fault, _) => (.error (.source fault), [])
  | (.ok first, after) =>
      match first.bind fun line => Lines.formatVersion? line.text with
      | some (some version) => loadVersion version after
      | _ => (.error (.unrecognizedFormat lines.name), [])

/-- Reads a schedule file from its bytes; `name` is what it is called. -/
def ofBytes (name : String) (bytes : Bytes) : Loaded Schedule :=
  load (Lines.ofBytes name bytes)

/-- Reads a schedule file that could be opened or not. -/
def ofFile (name : String) (contents : Except SourceFault Bytes) : Loaded Schedule :=
  match SourceFault.guardName name contents with
  | .ok bytes => ofBytes name bytes
  | .error fault => (.error (.cannotOpen name fault), [])

/-- Version of the format that describes this kind of schedule. -/
def version : Schedule → Nat
  | frameRanges _ => 1
  | timestamps _ => 2
  | durations _ => 3

/-- The default frame rate. -/
def defaultRate : Schedule → Float
  | frameRanges schedule => schedule.defaultRate
  | timestamps schedule => schedule.defaultRate
  | durations schedule => schedule.defaultRate

/-- Asks for the timing of the next frame, and goes on to the one behind it unless
`peekOnly`. A caller that knows a duration brings it along for schedules that have
none of their own. -/
def next (schedule : Schedule) (callerDuration : Option Int) (peekOnly : Bool) :
    Pull × List Warning × Schedule :=
  match schedule with
  | frameRanges schedule =>
      let (pull, after) := schedule.next peekOnly
      (pull, [], .frameRanges after)
  | timestamps schedule =>
      let (pull, warnings, after) := schedule.next peekOnly
      (pull, warnings, .timestamps after)
  | durations schedule =>
      let (pull, after) := schedule.next callerDuration peekOnly
      (pull, [], .durations after)

end Schedule

end MediaSplit

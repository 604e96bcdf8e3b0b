import MediaSplit.Schedule.Lines
import MediaSplit.Schedule.Pull
import MediaSplit.Time.Nanoseconds

/-!
Contract: schedules of durations, some with a frame rate of their own,
interleaved with gaps (format version 3).

Owns: `Schedule.Span`, one entry; `Durations`, all entries with the place inside
the current one; and `Durations.load`, which reads them from lines.

Behind the written entries stands one of open length at the default rate. A
frame that starts inside an entry belongs to it whatever its own length is, and
the next entry starts where the entry ends, not where that frame does.
-/

set_option autoImplicit false

namespace MediaSplit.Schedule

/-- A stretch of time. -/
structure Span where
  duration : Int
  /-- Frames per second; with 0 callers bring their own frame durations. -/
  rate : Float
  /-- Whether the stretch has no frames. -/
  isGap : Bool
  deriving Repr, Inhabited

namespace Span

/-- Nanoseconds of a number of seconds, toward zero. -/
def ofSeconds (seconds : Float) : Int := Time.ofFloat (1000000000.0 * seconds)

/-- Reads an entry from a line: seconds, seconds and a rate, or the word for a
gap and seconds. -/
def parse? (defaultRate : Float) (line : List Char) : Option Span := do
  match Lines.fields line with
  | [seconds] => return ⟨ofSeconds (← Text.float? seconds), defaultRate, false⟩
  | [first, second] =>
      if Text.equalIgnoringCase first "gap".toList then
        return ⟨ofSeconds (← Text.float? second), defaultRate, true⟩
      else return ⟨ofSeconds (← Text.float? first), ← Text.float? second, false⟩
  | _ => none

/-- Reads a data line. -/
def read (defaultRate : Float) (line : List Char) : LineResult Span :=
  match parse? defaultRate line with
  | none => .error "line could not be parsed"
  | some span =>
      if span.rate < 0.0 || span.duration ≤ 0 then
        .error "inconsistent data (the duration or the FPS are smaller than zero)"
      else .ok span

/-- How long a frame inside the entry lasts. -/
def frameDuration (span : Span) (callerDuration : Option Int) : Option Int :=
  if span.rate != 0.0 then some (Time.ofFloat (1000000000.0 / span.rate)) else callerDuration

end Span

/-- A schedule of durations. -/
structure Durations where
  /-- All entries, the one of open length last. -/
  entries : Array Span
  defaultRate : Float
  /-- The current entry. -/
  index : Nat
  /-- Time used up inside the current entry. -/
  position : Int
  /-- Where the current entry starts. -/
  offset : Int
  deriving Repr, Inhabited

namespace Durations

/-- The schedule of some entries, behind which one of open length is put. -/
def ofSpans (written : List Span) (defaultRate : Float) : Durations :=
  { entries := written.toArray.push ⟨openEnd, defaultRate, false⟩
    defaultRate := defaultRate
    index := 0
    position := 0
    offset := 0 }

/-- All entries, the one of open length last. -/
def toList (schedule : Durations) : List Span := schedule.entries.toList

theorem toList_ofSpans (written : List Span) (defaultRate : Float) :
    (ofSpans written defaultRate).toList = written ++ [⟨openEnd, defaultRate, false⟩] :=
  Array.toList_push

/-- Where the search for the entry of a frame stands. -/
structure Search where
  index : Nat
  offset : Int
  startsSegment : Bool
  deriving DecidableEq, Repr, Inhabited

/-- Passes over gaps, one after the other. -/
def behindGaps (entries : Array Span) (search : Search) : Search :=
  match _found : entries[search.index]? with
  | some span =>
      if span.isGap then
        behindGaps entries
          { index := search.index + 1
            offset := clamped (search.offset + span.duration)
            startsSegment := true }
      else search
  | none => search
termination_by entries.size - search.index
decreasing_by
  have within := (Array.getElem?_eq_some_iff.1 _found).1
  omega

/-- The entry at an index. A search never ends where there is none, since the last
entry is not a gap. -/
def entryAt (schedule : Durations) (index : Nat) : Span := schedule.entries.getD index default

/-- Where the next frame is found: in the current entry, or behind the gaps that
begin there. -/
def found (schedule : Durations) : Search :=
  behindGaps schedule.entries ⟨schedule.index, schedule.offset, schedule.position == 0⟩

/-- Asks for the timing of the next frame, and goes on by that frame unless `peekOnly`:
to the next entry once it has used up its own. A look does not even pass the gaps. -/
def next (schedule : Durations) (callerDuration : Option Int) (peekOnly : Bool) :
    Pull × Durations :=
  let search := schedule.found
  let span := schedule.entryAt search.index
  let duration := span.frameDuration callerDuration
  let timecode := clamped (search.offset + schedule.position)
  let after :=
    if peekOnly then schedule
    else
      let taken :=
        { schedule with
          index := search.index
          offset := search.offset
          position := clamped (schedule.position + duration.getD 0) }
      if span.duration ≤ taken.position then
        { taken with
          offset := clamped (taken.offset + span.duration)
          position := 0
          index := min (taken.index + 1) (taken.entries.size - 1) }
      else taken
  ({ timecode := timecode, duration := duration, startsSegment := search.startsSegment }, after)

/-- The schedule of some entries; without any the file is refused. -/
def build (name : String) (defaultRate : Float) (written : List Span) : Loaded Durations :=
  if written.isEmpty then (.error (.noEntries name), [])
  else (.ok (ofSpans written defaultRate), [])

/-- Reads the lines behind the format line. -/
def load (lines : Lines) : Loaded Durations :=
  match lines.readDefaultRate true with
  | (.error error, _) => (.error error, [])
  | (.ok rate, lines) => loadEntries (Span.read rate) (build lines.name rate) lines

end Durations

end MediaSplit.Schedule

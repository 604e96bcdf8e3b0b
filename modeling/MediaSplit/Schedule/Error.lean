import MediaSplit.Fault

/-!
Contract: why a schedule file is refused.

Owns: `Schedule.Error` with its wording. A malformed data line is not among
the causes: it is passed over with a warning.
-/

set_option autoImplicit false

namespace MediaSplit.Schedule

/-- Why a schedule file is refused; `name` is what the file is called. -/
inductive Error where
  /-- The file could not be opened. -/
  | cannotOpen (name : String) (fault : SourceFault)
  /-- The first line is not a format line. -/
  | unrecognizedFormat (name : String)
  /-- The format line names an unknown version. -/
  | unsupportedVersion (name : String) (version : Int)
  /-- There is no usable line with the default rate. -/
  | missingDefaultRate (name : String)
  /-- No data line could be used. -/
  | noEntries (name : String)
  /-- A line could not be read. -/
  | source (fault : SourceFault)
  deriving DecidableEq, Repr, Inhabited

namespace Error

/-- The text shown for a refused file. -/
def message : Error → String
  | cannotOpen name fault =>
      "The timecode file '" ++ name ++ "' could not be opened for reading: " ++ fault.message
  | unrecognizedFormat name =>
      "The timecode file '" ++ name ++ "' contains an unsupported/unrecognized format line. "
        ++ "The very first line must look like '# timecode format v1'"
  | unsupportedVersion name version =>
      "The timecode file '" ++ name ++ "' contains an unsupported/unrecognized format (version "
        ++ toString version ++ ")"
  | missingDefaultRate name =>
      "The timecode file '" ++ name
        ++ "' does not contain a valid 'Assume' line with the default number of frames per second"
  | noEntries name => "The timecode file '" ++ name ++ "' does not contain any valid entry"
  | source fault => "I/O error: " ++ fault.message

/-- Whether the contents of the file are the cause. -/
def isFormatError : Error → Bool
  | cannotOpen _ _ => false
  | source _ => false
  | _ => true

/-- The refusal as a fault of a reader. -/
def toFault : Error → Fault
  | source fault => .source fault
  | cannotOpen name fault => .cannotOpen (cannotOpen name fault).message
  | error => .configuration error.message

end Error

end MediaSplit.Schedule

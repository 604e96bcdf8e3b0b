import MediaSplit.Bits.Error

/-!
Contract: the faults that end an operation of this library.

Owns:
- `SourceFault`, what a byte source can refuse, and `SourceFault.guardName`, the
  names under which no input can be looked up;
- `Fault`, the causes every reader and sink reports, with their wording and
  the two questions callers ask of them: does it only mark the end of the
  input, and does it end the whole run.

Does **not** own: expected negatives. A probe that does not match or a packet
that is passed over is a `Bool` or an `Option`, never a fault. Each format
family has an error type of its own that converts into `Fault`.

Arithmetic is checked: a number that its machine word cannot hold stops the
program there and then. `Fault.overflow` stands for that stop, so nothing goes
on behind it.
-/

set_option autoImplicit false

namespace MediaSplit

/-- Why a byte source refused a request. -/
inductive SourceFault where
  /-- An exact read went past the last byte. -/
  | endOfData
  /-- A seek to a negative position or one that 64 bits cannot hold. -/
  | invalidPosition
  /-- Bytes that are not UTF-8 where text was expected. -/
  | invalidText
  /-- What was asked for does not exist. -/
  | notFound
  /-- The file system has no file of this name. -/
  | noSuchFile
  /-- A name with a NUL in it, which no input can have. -/
  | invalidName
  /-- Any other failure of the medium. -/
  | other
  deriving DecidableEq, Repr, Inhabited

/-- What a source fault says of itself. -/
def SourceFault.message : SourceFault → String
  | .endOfData => "failed to fill whole buffer"
  | .invalidPosition => "invalid seek to a negative or overflowing position"
  | .invalidText => "stream did not contain valid UTF-8"
  | .notFound => "entity not found"
  | .noSuchFile => "No such file or directory (os error 2)"
  | .invalidName => "file name contained an unexpected NUL byte"
  | .other => "other error"

/-- What a look-up finds under a name. A name that no input can have is refused
whatever the look-up would find. -/
def SourceFault.guardName {α : Type} (name : String) (found : Except SourceFault α) :
    Except SourceFault α :=
  if name.toList.contains '\x00' then .error .invalidName else found

/-- The causes for which an operation ends without a result. -/
inductive Fault where
  /-- The format was recognised but its headers are malformed. -/
  | malformedHeader (reason : String)
  /-- The input could not be opened or is unusable. -/
  | cannotOpen (reason : String)
  /-- A setting is invalid or not supported. -/
  | configuration (reason : String)
  /-- Synchronisation was lost for good. -/
  | corruption (offset : Nat) (reason : String)
  /-- The stream uses a feature that cannot be split into tracks. -/
  | unsupported (reason : String)
  /-- The reader has no track of this number. -/
  | unknownTrack (track : Nat)
  /-- A header field could not be read. -/
  | bits (error : Bits.Error)
  /-- The byte source refused a request. -/
  | source (fault : SourceFault)
  /-- A number left the range of its machine word. -/
  | overflow
  deriving DecidableEq, Repr, Inhabited

namespace Fault

/-- The text shown for a fault. -/
def message : Fault → String
  | malformedHeader reason => "Header parsing failed: " ++ reason
  | cannotOpen reason => "Open failed: " ++ reason
  | configuration reason => "Configuration error: " ++ reason
  | corruption offset reason =>
      "Unrecoverable stream corruption at offset " ++ toString offset ++ ": " ++ reason
  | unsupported reason => "Unsupported: " ++ reason
  | unknownTrack track => "Track " ++ toString track ++ " not found"
  | bits error => "Bitstream error: " ++ error.message
  | source fault => "I/O error: " ++ fault.message
  | overflow => "arithmetic overflow"

/-- Whether the fault only marks the end of the input. -/
def isEndOfInput : Fault → Bool
  | source .endOfData => true
  | bits .unexpectedEnd => true
  | _ => false

/-- Whether the fault ends the whole run rather than one track. -/
def isFatal : Fault → Bool
  | configuration _ => true
  | unsupported _ => true
  | cannotOpen _ => true
  | _ => false

end Fault

end MediaSplit

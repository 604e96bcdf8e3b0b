import MediaSplit.Fault
import MediaSplit.Text.Hex

/-!
Contract: what can go wrong in a program stream.

Owns: `ProgramStream.Error`, its wording, and the fault that a reader makes
of it.

A stream that cannot be identified and a map that cannot be read end nothing:
the stream stays out of the track list, and the map is passed over.
-/

set_option autoImplicit false

namespace MediaSplit.ProgramStream

/-- Why a program stream, or one stream in it, is refused. -/
inductive Error where
  /-- The input does not start with a pack start code. -/
  | notProgramStream (found : Nat)
  /-- The payload of the packet at `offset` is encrypted. -/
  | scrambled (offset : Nat)
  /-- The stream of this key cannot be identified from its first packets. -/
  | unclassified (key : Nat) (reason : String)
  /-- A program stream map cannot be read. -/
  | invalidMap (reason : String)
  /-- The byte source refused a request. -/
  | source (fault : SourceFault)
  /-- A number left the range of its machine word. -/
  | overflow
  deriving DecidableEq, Repr, Inhabited

namespace Error

/-- The text shown for an error. -/
def message : Error → String
  | notProgramStream found =>
      "Not an MPEG program stream: expected pack start code, got 0x" ++ Text.hexUpper 8 found
  | scrambled offset =>
      "Reading encrypted VOBs is not supported (scrambled PES packet at offset "
        ++ toString offset ++ ")"
  | unclassified key reason =>
      "Stream 0x" ++ Text.hexUpper 4 key ++ " cannot be demultiplexed: " ++ reason
  | invalidMap reason => "Invalid program stream map: " ++ reason
  | source fault => "I/O error: " ++ fault.message
  | overflow => Fault.message .overflow

/-- Whether the error ends the whole run rather than one stream. -/
def isFatal : Error → Bool
  | notProgramStream _ => true
  | scrambled _ => true
  | _ => false

/-- The error as a fault of a reader. -/
def toFault : Error → Fault
  | source fault => .source fault
  | overflow => .overflow
  | scrambled offset => .unsupported (scrambled offset).message
  | notProgramStream found => .cannotOpen (notProgramStream found).message
  | error => .malformedHeader error.message

end Error

end MediaSplit.ProgramStream

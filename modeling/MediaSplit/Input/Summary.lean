import MediaSplit.Input
import MediaSplit.Text.Hex

/-!
Contract: what an input contains, in words.

Owns: `Input.Reader.summary`, one line for the container and one for each
track.

Stream ids mean something in a program stream only, so only there they are
told.
-/

set_option autoImplicit false

namespace MediaSplit.Input

/-- The size of a video track as it is displayed, if it has one. -/
def displayProperty? (track : Track) : Option String := do
  let video ← track.video?
  guard (video.displayWidth ≠ 0 ∧ video.displayHeight ≠ 0)
  return "display_dimensions:" ++ toString video.displayWidth ++ "x"
    ++ toString video.displayHeight

/-- What is told about a track besides its codec. -/
def properties (hasStreamIds : Bool) (track : Track) : List String :=
  (if hasStreamIds then ["stream_id:0x" ++ Text.hexLower 1 track.id] else [])
    ++ (displayProperty? track).toList

/-- The line of a track. -/
def trackLine (hasStreamIds : Bool) (track : Track) : String :=
  "Track " ++ toString track.number ++ ": " ++ track.kind.name ++ " (" ++ track.codec.name ++ ")"
    ++ match properties hasStreamIds track with
      | [] => ""
      | properties => " [" ++ " ".intercalate properties ++ "]"

/-- The input of this name in words. -/
def Reader.summary {σ : Type} (reader : Reader σ) (name : String) : String :=
  "\n".intercalate
    (("File '" ++ name ++ "': container: " ++ reader.formatName)
      :: reader.tracks.map (trackLine (reader.format == .programStream)))

end MediaSplit.Input

import MediaSplit.Ac3.Header
import MediaSplit.Dts.Header
import MediaSplit.Framing
import MediaSplit.TrueHd.Unit

/-!
Contract: the frames of a whole stream, told without chunks.

Owns:
- `Elementary.segments`, the packets of a stream whose frames are recognised by
  their first bytes alone, with the rules `Ac3.frameAt?` and `Dts.frameAt?`;
- `TrueHd.segments`, the same for units whose meaning depends on the units
  before them, with the bytes behind the last unit.

Does **not** own: readers, which take a stream in chunks. These definitions
name the result that a reader has to come to whatever its chunks are.
-/

set_option autoImplicit false

namespace MediaSplit

/-- A frame at the start of some bytes. -/
structure FrameShape where
  length : Nat
  duration : Option Int
  deriving DecidableEq, Repr, Inhabited

/-- The packet of a frame of this shape at `offset`, whose first byte is the
first of `data`. -/
def FrameShape.packet (shape : FrameShape) (offset : Nat) (data : Bytes) : Packet :=
  { Packet.ofPayload (data.take shape.length) with
    duration := shape.duration
    position := some offset }

/-- The packets of a stream that starts at `offset`. Each frame is the first
one recognised behind the frame before it, and the first frame that is cut off
ends the stream. -/
def Elementary.segments
    (frameAt? : Bytes → Option FrameShape)
    (offset : Nat)
    (data : Bytes) : List Packet :=
  match Bytes.firstSuffix? frameAt? data with
  | none => []
  | some (gap, shape) =>
      if _h : 0 < shape.length ∧ gap + shape.length ≤ data.length then
        shape.packet (offset + gap) (data.drop gap)
          :: Elementary.segments frameAt? (offset + gap + shape.length)
              (data.drop (gap + shape.length))
      else []
termination_by data.length
decreasing_by
  simp only [List.length_drop]
  omega

/-- The frame of a header at the start of `data`. -/
def Ac3.frameAt? (data : Bytes) : Option FrameShape :=
  (Header.parse? data).map fun header => ⟨header.frameSize, header.duration⟩

/-- The core frame at the start of `data`, with its substream where `data`
tells of one. -/
def Dts.frameAt? (data : Bytes) : Option FrameShape :=
  (Header.parse? data).map fun header =>
    ⟨(header.frameLength? data).getD header.frameSize, header.duration⟩

/-- The packets of a stream of units that starts at `offset`, and the bytes
behind the last of them. Where no unit starts, one byte is passed over; a unit
that is cut off ends the stream. -/
def TrueHd.segments
    (classifier : Classifier)
    (offset : Nat)
    (data : Bytes) : List Packet × Bytes :=
  match classifier.classify data with
  | (.needMore, _) => ([], data)
  | (.noFrame, classifier) =>
      match data with
      | [] => ([], [])
      | _ :: rest => TrueHd.segments classifier (offset + 1) rest
  | (.frame frame, classifier) =>
      if _h : 0 < frame.size ∧ frame.size ≤ data.length then
        let shape : FrameShape := ⟨frame.size, frame.duration⟩
        let (packets, rest) :=
          TrueHd.segments classifier (offset + frame.size) (data.drop frame.size)
        ({ shape.packet offset data with track := frame.track } :: packets, rest)
      else ([], data)
termination_by data.length
decreasing_by
  · simp
  · simp only [List.length_drop]
    omega

end MediaSplit

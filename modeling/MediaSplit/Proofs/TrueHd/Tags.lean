import MediaSplit.Proofs.Elementary.Moving
import MediaSplit.Proofs.Id3
import MediaSplit.Proofs.Input.Protocol
import MediaSplit.Proofs.TrueHd.Segmentation

/-!
Contract: tags around a raw TrueHD or MLP stream change nothing but its place.

Owns:
- `Input.Call.unmoved`, the calls of a user who sees the stream further behind,
  and `Input.Reader.answers`, what a run of calls answers;
- that a source with a tag and a trailer around a stream is opened where the stream
  alone is, and that no calls tell the two readers apart but for the places of the
  packets.

Does **not** own: which packets these are.
-/

set_option autoImplicit false

namespace MediaSplit

/-! ## Calls -/

namespace Input

/-- The same call, by a user whose sinks see every packet further behind. -/
def Call.unmoved (distance : Nat) : Call → Call
  | attach track policy => attach track fun requests => policy (requests.map (·.movedBy distance))
  | read => read
  | finish => finish

namespace Reader

/-- What the calls of a run answer, one after the other. -/
def answers (reader : Reader Journal) : List Call → List (Option (Except Fault ReadStatus))
  | [] => []
  | call :: later => call.answer? reader :: (call.after reader).answers later

/-- Readers of one TrueHD stream, which lies further behind in the source of the
second. -/
inductive Moves (distance : Nat) : Reader Journal → Reader Journal → Prop
  | trueHd {reader moved : TrueHd.Reader Journal}
      (stream : reader.stream.Moves distance moved.stream) :
      Moves distance (.trueHd reader) (.trueHd moved)

namespace Moves

variable {distance : Nat} {reader moved : Reader Journal} (moves : Moves distance reader moved)

include moves

theorem sinks : reader.sinks.Moves distance moved.sinks := by
  cases moves with
  | trueHd stream => exact stream.sinks

/-- A call answers the same and keeps the readers alike. -/
theorem call (call : Call) :
    call.answer? moved = (call.unmoved distance).answer? reader
      ∧ Moves distance ((call.unmoved distance).after reader) (call.after moved) := by
  cases moves with
  | trueHd stream =>
      cases call with
      | attach track policy => exact ⟨rfl, .trueHd (stream.attach track policy).after⟩
      | read => exact ⟨congrArg some stream.read.answer, .trueHd stream.read.after⟩
      | finish => exact ⟨congrArg some stream.finish.answer, .trueHd stream.finish.after⟩

theorem answers (calls : List Call) :
    moved.answers calls = reader.answers (calls.map (·.unmoved distance)) := by
  induction calls generalizing reader moved with
  | nil => rfl
  | cons first later inductionHypothesis =>
      obtain ⟨answer, still⟩ := moves.call first
      rw [List.map_cons, Reader.answers, Reader.answers, answer, inductionHypothesis still]

theorem afterAll (calls : List Call) :
    Moves distance (reader.afterAll (calls.map (·.unmoved distance))) (moved.afterAll calls) := by
  induction calls generalizing reader moved with
  | nil => exact moves
  | cons first later inductionHypothesis => exact inductionHypothesis (moves.call first).2

end Moves

end Reader

end Input

/-! ## Opening -/

namespace TrueHd.Reader

section Wrapped

variable {tag : Id3.Tag} {trailer : Bytes} {plain wrapped : Source}
  (holds : wrapped.toBytes = tag.toBytes ++ plain.toBytes ++ trailer)

include holds

theorem bytesAt_wrapped {count : Nat} (within : count ≤ plain.size) :
    wrapped.bytesAt tag.toBytes.length count = plain.bytesAt 0 count := by
  rw [Source.size_eq_length] at within
  have middle := @Source.bytesAt_of_middle _ _ _ _ holds 0 count (by omega)
  rw [Nat.add_zero] at middle
  rw [middle, Source.bytesAt_eq_slice]

/-- The stream between tags is found where it was put. -/
theorem range_wrapped
    (untagged : Id3.IsUntagged plain.toBytes)
    (isTrailer : Id3.IsTrailer trailer) :
    Id3.leadingTagSize wrapped = tag.toBytes.length
      ∧ max (wrapped.size - Id3.trailingTagSize wrapped) tag.toBytes.length
        = tag.toBytes.length + plain.size := by
  have size : wrapped.size = tag.toBytes.length + plain.size + trailer.length := by
    rw [Source.size_eq_length, holds, List.length_append, List.length_append,
      ← Source.size_eq_length plain]
  rw [Id3.trailingTagSize_of_trailer holds untagged isTrailer]
  rw [List.append_assoc] at holds
  exact ⟨Id3.leadingTagSize_of_tag holds, by omega⟩

/-- A stream between tags is opened where it can be opened alone, and its reader
has moved by the size of the tag before it. -/
theorem exists_ofSource_moves
    (untagged : Id3.IsUntagged plain.toBytes)
    (isTrailer : Id3.IsTrailer trailer)
    {chunkSize : Nat}
    {opened : Reader Journal}
    (isOpened : ofSource plain chunkSize = .ok opened) :
    ∃ around : Reader Journal, ofSource wrapped chunkSize = .ok around
      ∧ around.dataEnd = tag.toBytes.length + plain.size
      ∧ opened.stream.Moves tag.toBytes.length around.stream := by
  obtain ⟨leading, dataEnd⟩ := range_wrapped holds untagged isTrailer
  have plainLeading := Id3.leadingTagSize_of_untagged untagged
  have plainTrailing : Id3.trailingTagSize plain = 0 :=
    Id3.trailingTagSize_of_untagged (List.nil_append _).symm untagged
  have plainEnd : max (plain.size - 0) 0 = plain.size := by
    omega
  unfold ofSource at isOpened ⊢
  rw [plainLeading, plainTrailing] at isOpened
  rw [leading]
  dsimp only at isOpened ⊢
  rw [plainEnd, Nat.sub_zero] at isOpened
  rw [dataEnd, Nat.add_sub_cancel_left, bytesAt_wrapped holds (Nat.min_le_left _ _)]
  split at isOpened
  next => cases isOpened
  next place sync _ =>
    cases isOpened
    refine ⟨_, rfl, rfl, ?_⟩
    exact
      { format := rfl
        chunkSize := rfl
        tracks := rfl
        classifier := rfl
        isDone := rfl
        streamEnd := congrArg some (Nat.add_comm _ _)
        position := (Nat.zero_add _).symm
        unread := by
          simp only [Elementary.Reader.unread, Elementary.Reader.starting, Option.getD_some,
            Source.position_movedTo, Nat.add_sub_cancel_left, Nat.sub_zero]
          exact bytesAt_wrapped holds (Nat.le_refl _)
        assembler := congrArg FrameAssembler.startingAt (Nat.zero_add _).symm
        sinks := SinkTable.moves_ofTracks _ }

end Wrapped

/-- **Tags around a stream are invisible.** A source with a version 2 tag before a
stream and nothing or a version 1 tag behind it is opened like the stream alone. No
calls tell the readers apart but for the places of the packets, each of which lies
further behind by the size of the tag, and reading comes to its end alike. -/
theorem exists_ofSource_readsAlike
    {tag : Id3.Tag}
    {trailer : Bytes}
    {plain wrapped : Source}
    (untagged : Id3.IsUntagged plain.toBytes)
    (isTrailer : Id3.IsTrailer trailer)
    (holds : wrapped.toBytes = tag.toBytes ++ plain.toBytes ++ trailer)
    {chunkSize : Nat}
    {opened : Reader Journal}
    (isOpened : ofSource plain chunkSize = .ok opened) :
    ∃ around : Reader Journal, ofSource wrapped chunkSize = .ok around
      ∧ around.stream.tracks = opened.stream.tracks
      ∧ around.dataEnd = tag.toBytes.length + plain.size
      ∧ (∀ calls : List Input.Call,
          let unmoved := calls.map (·.unmoved tag.toBytes.length)
          (Input.Reader.trueHd around).answers calls
              = (Input.Reader.trueHd opened).answers unmoved
            ∧ ((Input.Reader.trueHd opened).afterAll unmoved).sinks.Moves tag.toBytes.length
                ((Input.Reader.trueHd around).afterAll calls).sinks)
      ∧ ∃ visited last visitedAround lastAround,
          ReadRun Elementary.Reader.read opened.stream.attachedToAll visited (.ok .done, last)
            ∧ ReadRun Elementary.Reader.read around.stream.attachedToAll visitedAround
                (.ok .done, lastAround)
            ∧ visitedAround.length = visited.length
            ∧ ∀ track, lastAround.sinks.accepted track
                = (last.sinks.accepted track).map (·.movedBy tag.toBytes.length) := by
  obtain ⟨around, isAround, dataEnd, moves⟩ :=
    exists_ofSource_moves holds untagged isTrailer isOpened
  refine ⟨around, isAround, moves.tracks, dataEnd, ?_, ?_⟩
  · intro calls
    have readers : (Input.Reader.trueHd opened).Moves tag.toBytes.length (.trueHd around) :=
      .trueHd moves
    exact ⟨readers.answers calls, (readers.afterAll calls).sinks⟩
  · have begins := begins_ofSource isOpened
    have decodes : opened.stream.format.DecodesGranules := begins.format ▸ decodesGranules_format
    obtain ⟨visited, last, -, run, -⟩ :=
      opened.stream.exists_run_attachedToAll decodes begins.sinks begins.notDone
    obtain ⟨visitedAround, ending, runAround, alike, ends⟩ :=
      run.exists_alike (fun _ _ moves => moves.read) moves.attachedToAll
    obtain ⟨answer, lastAround⟩ := ending
    obtain rfl : answer = .ok .done := ends.answer
    exact ⟨visited, last, visitedAround, lastAround, run, runAround, alike.length_eq.symm,
      ends.after.sinks.accepted⟩

/-- A major sync unit, an AC-3 frame, a unit without a major sync, and bytes that are
no unit. -/
def bareStream : Bytes :=
  [0xF0, 0x06, 0x00, 0x00, 0xF8, 0x72, 0x6F, 0xBA, 0x00, 0x00, 0x00, 0x00,
    0x0B, 0x77, 0x00, 0x03, 0x34, 0x80, 0x00, 0x00,
    0xF0, 0x06, 0x00, 0x00, 0x00, 0x00, 0x00, 0x00, 0x00, 0x00, 0x00, 0x00]
    ++ List.replicate 100 0

/-- A tag with a body and a footer. -/
def footedTag : Id3.Tag :=
  { major := 4
    minor := 0
    flags := 0x10
    body := [0x54, 0x41, 0x47]
    footer := [0x33, 0x44, 0x49, 4, 0, 0x10, 0, 0, 0, 3]
    major_ne := by decide
    minor_ne := by decide
    length_body_lt := by decide
    length_footer := by decide }

/-- An old tag without text. -/
def oldTrailer : Bytes := Id3.oldMagic ++ List.replicate 125 0

theorem exists_ofSource_readsAlike_bareStream :
    ∃ opened around : Reader Journal,
      ofSource (.ofBytes bareStream) 5 = .ok opened
        ∧ ofSource (.ofBytes (footedTag.toBytes ++ bareStream ++ oldTrailer)) 5 = .ok around
        ∧ around.stream.tracks = opened.stream.tracks
        ∧ around.dataEnd = footedTag.toBytes.length + (Source.ofBytes bareStream).size := by
  have isOk : (ofSource (.ofBytes bareStream) 5 : Except Fault (Reader Journal)).isOk = true := by
    decide +kernel
  obtain ⟨opened, isOpened⟩ := exists_of_isOk isOk
  have untagged : Id3.IsUntagged (Source.ofBytes bareStream).toBytes :=
    ⟨by decide +kernel, by decide +kernel, by decide +kernel, by decide +kernel⟩
  have isTrailer : Id3.IsTrailer oldTrailer :=
    .inr ⟨List.replicate 125 0, List.length_replicate, rfl⟩
  have holds : (Source.ofBytes (footedTag.toBytes ++ bareStream ++ oldTrailer)).toBytes
      = footedTag.toBytes ++ (Source.ofBytes bareStream).toBytes ++ oldTrailer := rfl
  obtain ⟨around, isAround, tracks, dataEnd, -⟩ :=
    exists_ofSource_readsAlike untagged isTrailer holds isOpened
  exact ⟨opened, around, isOpened, isAround, tracks, dataEnd⟩

end TrueHd.Reader

end MediaSplit

import MediaSplit.Ac3.Reader
import MediaSplit.Proofs.Dts.Segmentation
import MediaSplit.Proofs.Elementary.LeadingBytes
import MediaSplit.Proofs.Framing.Conservation
import MediaSplit.Proofs.Source
import MediaSplit.Proofs.TrueHd.Unit
import MediaSplit.TrueHd.Reader

/-!
Contract: readers of raw streams never reach the limit of machine words.

Owns:
- `Format.IsModest`, what a format has to keep to: short frames, and no more native
  bytes than stored ones; all raw formats do;
- `Reader.IsInReach`, which every call of `read` preserves and which every opened
  reader of a source shorter than half the limit has;
- that a reader in reach cuts the same with `FrameAssembler.cut` and `takeRest` as
  with `FrameAssembler.frames` and `rest`, whose numbers are machine words.

Does **not** own: longer sources, which are longer than any file.

An assembler holds no more than what was read, so its offsets stay below the size
of the source, and the end of a frame lies at most one frame behind that.
-/

set_option autoImplicit false

namespace MediaSplit.Elementary

/-- A format with frames shorter than half the limit, whose native bytes are no more
than the stored ones. -/
structure Format.IsModest {τ : Type} (format : Format τ) : Prop where
  frame : ∀ {atEnd state data length duration track},
    (format.scan atEnd state data).1 = .frame length duration track → length < Word.limit / 2
  decode : ∀ stored, (format.decode stored).length ≤ stored.length

theorem Format.IsModest.staysInReach
    {τ : Type}
    {format : Format τ}
    {total : Nat}
    (isModest : format.IsModest)
    (small : total < Word.limit / 2)
    (atEnd : Bool) :
    FrameAssembler.StaysInReach (format.scan atEnd) total := by
  intro state data length duration track within verdict
  have short := isModest.frame verdict
  omega

namespace Reader

variable {σ τ : Type}

/-- A reader whose assembler has been given no more bytes than were read, of a source
shorter than half the limit. -/
structure IsInReach (reader : Reader σ τ) : Prop where
  format : reader.format.IsModest
  assembler : ∃ offset stream found,
    FrameAssembler.Conserves offset stream found reader.assembler
      ∧ offset + stream.length ≤ reader.source.position
  position : reader.source.position ≤ reader.source.size
  size : reader.source.size < Word.limit / 2

namespace IsInReach

variable {reader : Reader σ τ} (reach : reader.IsInReach)

include reach

/-! ## Passes of cutting -/

theorem frames_eq_cut (atEnd : Bool) :
    reader.assembler.frames (reader.format.scan atEnd) reader.classifier
      = .ok (reader.assembler.cut (reader.format.scan atEnd) reader.classifier) := by
  obtain ⟨offset, stream, found, conserves, behind⟩ := reach.assembler
  have inside := reach.position
  have small := reach.size
  exact conserves.frames_eq_cut (by omega) (reach.format.staysInReach (by omega) atEnd) _

theorem rest_eq_takeRest (track : Nat) :
    reader.assembler.rest track = .ok (reader.assembler.takeRest track) := by
  obtain ⟨offset, stream, found, conserves, behind⟩ := reach.assembler
  have inside := reach.position
  have small := reach.size
  exact conserves.rest_eq_takeRest (by omega) track

/-! ## One call -/

theorem takeChunk : reader.takeChunk.2.IsInReach where
  format := reach.format
  assembler := by
    obtain ⟨offset, stream, found, conserves, behind⟩ := reach.assembler
    refine ⟨offset, _, found, conserves.push _, ?_⟩
    have native := reach.format.decode
      (reader.source.bytesAt reader.source.position reader.wanted)
    simp only [Reader.takeChunk, List.length_append, Source.movedTo]
    omega
  position := by
    have inside := reach.position
    show reader.source.position
        + (reader.source.bytesAt reader.source.position reader.wanted).length
      ≤ reader.source.size
    rw [Source.length_bytesAt]
    omega
  size := reach.size

theorem attach (track : Nat) (sink : σ) : (reader.attach track sink).2.IsInReach :=
  { reach with }

variable [PacketSink σ]

theorem deliverFrames (atEnd : Bool) : (reader.deliverFrames atEnd).2.IsInReach where
  format := reach.format
  assembler := by
    obtain ⟨offset, stream, found, conserves, behind⟩ := reach.assembler
    exact ⟨offset, stream, _, conserves.cut (reader.format.scan atEnd) reader.classifier, behind⟩
  position := reach.position
  size := reach.size

theorem deliverRest : reader.deliverRest.2.IsInReach where
  format := reach.format
  assembler := by
    obtain ⟨offset, stream, found, conserves, behind⟩ := reach.assembler
    exact ⟨offset, stream, _, conserves.takeRest 0, behind⟩
  position := reach.position
  size := reach.size

theorem flush : reader.flush.2.IsInReach := { reach with }

theorem finish : reader.finish.2.IsInReach := by
  unfold Reader.finish
  split
  · exact reach
  have marked : ({ reader with isDone := true } : Reader σ τ).IsInReach := { reach with }
  have framed := marked.deliverFrames true
  split
  next stopped =>
    rw [stopped] at framed
    exact framed
  next delivered =>
    rw [delivered] at framed
    have emptied := framed.deliverRest
    split
    next stopped =>
      rw [stopped] at emptied
      exact emptied
    next delivered =>
      rw [delivered] at emptied
      have flushed := emptied.flush
      split
      all_goals
        next ended =>
          rw [ended] at flushed
          exact flushed

/-- What one call does stays in reach, whatever it comes to. -/
theorem read : reader.read.2.IsInReach := by
  unfold Reader.read
  split
  · exact reach
  have taken := reach.takeChunk
  dsimp only
  split
  next isEnd =>
    rw [isEnd] at taken
    exact taken.finish
  next isChunk =>
    rw [isChunk] at taken
    have framed := taken.deliverFrames false
    split
    next stopped =>
      rw [stopped] at framed
      exact framed
    next delivered =>
      rw [delivered] at framed
      split
      · exact framed.finish
      · exact framed

end IsInReach

/-! ## All calls -/

/-- Every reader that a run comes by is in reach. -/
theorem isInReach_of_readRun
    [PacketSink σ]
    {reader : Reader σ τ}
    {visited : List (Reader σ τ)}
    {ending : Step (Reader σ τ)}
    (reach : reader.IsInReach)
    (run : ReadRun Reader.read reader visited ending) :
    (∀ met ∈ visited, met.IsInReach) ∧ ending.2.IsInReach := by
  induction run with
  | ended last stops =>
      rw [← last]
      exact ⟨nofun, reach.read⟩
  | more step rest inductionHypothesis =>
      have next := reach.read
      rw [step] at next
      obtain ⟨met, last⟩ := inductionHypothesis next
      exact ⟨List.forall_mem_cons.2 ⟨next, met⟩, last⟩

/-- A reader that is opened inside a source shorter than half the limit is in reach. -/
theorem isInReach_starting
    {format : Format τ}
    {source : Source}
    (isModest : format.IsModest)
    (inside : source.position ≤ source.size)
    (small : source.size < Word.limit / 2)
    (classifier : τ)
    (chunkSize : Nat)
    (streamEnd : Option Nat)
    (tracks : List Track) :
    (starting format classifier source chunkSize streamEnd tracks : Reader σ τ).IsInReach where
  format := isModest
  assembler := ⟨_, _, _, FrameAssembler.conserves_startingAt _, Nat.le_refl _⟩
  position := inside
  size := small

end Reader

end MediaSplit.Elementary

namespace MediaSplit

open Elementary

/-! ## The raw formats -/

namespace Ac3

theorem isModest_format : format.IsModest where
  frame {_ _ data length duration track} verdict := by
    have isFrame : scan data = .frame length duration track := verdict
    unfold scan at isFrame
    split at isFrame
    next =>
      split at isFrame
      next parsed =>
        cases isFrame
        have most := (Header.isPlayable_of_parse? parsed).frameSize_le
        exact Nat.lt_of_le_of_lt most (by decide)
      next => split at isFrame <;> cases isFrame
    next => cases isFrame
  decode stored := Nat.le_refl _

theorem Reader.isInReach_ofSource
    {σ : Type}
    {source : Source}
    {chunkSize : Nat}
    {opened : Reader σ}
    (isOpened : ofSource source chunkSize = .ok opened)
    (small : source.size < Word.limit / 2) :
    opened.stream.IsInReach := by
  unfold ofSource at isOpened
  dsimp only at isOpened
  split at isOpened
  · cases isOpened
  · cases isOpened
    apply Elementary.Reader.isInReach_starting isModest_format
    · exact Nat.zero_le _
    · exact small

end Ac3

namespace Dts

theorem isModest_format (layout : Layout) : (format layout).IsModest where
  frame {atEnd _ data length duration track} verdict := by
    have isFrame : scan atEnd data = .frame length duration track := verdict
    unfold scan at isFrame
    split at isFrame
    next enough =>
      split at isFrame
      next parsed =>
        split at isFrame
        next decided =>
          cases isFrame
          have core := (Header.frameSize_of_parse ((Bytes.hasAtLeast_iff _ _).1 enough)
            (toOption_eq_some_iff.1 parsed)).2
          have whole := (bounds_of_decidedLength? decided).2
          have limit : 16384 + 2 ^ 20 < Word.limit / 2 := by decide
          omega
        next => cases isFrame
      next => split at isFrame <;> cases isFrame
    next => cases isFrame
  decode stored := by
    show (layout.decode stored).length ≤ stored.length
    rw [layout.length_decode]
    exact layout.decodedLength_le _

theorem Reader.isInReach_ofSource
    {σ : Type}
    {source : Source}
    {chunkSize : Nat}
    {opened : Reader σ}
    (isOpened : ofSource source chunkSize = .ok opened)
    (small : source.size < Word.limit / 2) :
    opened.stream.IsInReach := by
  unfold ofSource at isOpened
  dsimp only at isOpened
  split at isOpened
  · cases isOpened
  · cases isOpened
    apply Elementary.Reader.isInReach_starting (isModest_format _)
    · exact Nat.zero_le _
    · exact small

end Dts

namespace TrueHd

theorem isModest_format : format.IsModest where
  frame {_ classifier data length duration track} verdict := by
    obtain ⟨frame, classified, rfl, -⟩ :=
      Classifier.classify_of_scan_frame (Prod.ext (y := (_, _)) verdict rfl)
    exact Nat.lt_trans (Classifier.size_lt_of_classify classified) (by decide)
  decode stored := Nat.le_refl _

theorem Survey.firstSync_nil : (ofBytes []).firstSync = none := by
  rw [ofBytes, walk]
  rfl

/-- A window with a major sync in it starts inside its source. -/
theorem le_size_of_firstSync
    {source : Source}
    {start count : Nat}
    {sync : Nat × Frame}
    (found : (Survey.ofBytes (source.bytesAt start count)).firstSync = some sync) :
    start ≤ source.size := by
  apply Nat.le_of_not_lt
  intro outside
  have nothing : source.bytesAt start count = [] := by
    apply List.eq_nil_of_length_eq_zero
    rw [Source.length_bytesAt]
    omega
  rw [nothing, Survey.firstSync_nil] at found
  cases found

theorem Reader.isInReach_ofSource
    {σ : Type}
    {source : Source}
    {chunkSize : Nat}
    {opened : Reader σ}
    (isOpened : ofSource source chunkSize = .ok opened)
    (small : source.size < Word.limit / 2) :
    opened.stream.IsInReach := by
  unfold ofSource at isOpened
  dsimp only at isOpened
  split at isOpened
  · cases isOpened
  next found =>
    cases isOpened
    apply Elementary.Reader.isInReach_starting isModest_format
    · exact le_size_of_firstSync found
    · exact small

end TrueHd

end MediaSplit

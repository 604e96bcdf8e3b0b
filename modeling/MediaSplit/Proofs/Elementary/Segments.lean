import MediaSplit.Elementary.Segmentation
import MediaSplit.Proofs.Bytes

/-!
Contract: cutting chunk by chunk finds the segments of the whole stream.

Owns:
- the four equations of `Elementary.segments`: a frame at the start, a frame
  that is cut off, bytes that start no frame, and no frame at all;
- `Elementary.Recognises`, when verdicts on the bytes at hand fit a rule for
  the whole stream, and why dropping up to a sync word does;
- `FrameAssembler.cutChunks`, one pass of cutting for each chunk and one more
  at the end, and that it finds `Elementary.segments` whatever the chunks are.

Does **not** own: the headers of any format, and where chunks come from.

The pending bytes and the bytes that are still to come make up the rest of the
stream. Each verdict leaves the segments of that rest unchanged, up to the
frame it cuts; this is the invariant of all inductions here.
-/

set_option autoImplicit false

namespace MediaSplit

namespace Elementary

variable {frameAt? : Bytes → Option FrameShape} {data : Bytes} {shape : FrameShape}

/-! ## Equations of the segmentation -/

/-- A frame at the start is the first segment. -/
theorem segments_of_frame
    (offset : Nat)
    (here : frameAt? data = some shape)
    (positive : 0 < shape.length)
    (fits : shape.length ≤ data.length) :
    segments frameAt? offset data
      = shape.packet offset data
          :: segments frameAt? (offset + shape.length) (data.drop shape.length) := by
  have nonempty : data ≠ [] := List.length_pos_iff.1 (by omega)
  rw [segments, Bytes.firstSuffix?_of_accepted nonempty here]
  simp [positive, fits]

/-- A frame that is cut off ends the segmentation. -/
theorem segments_of_cutOff
    (offset : Nat)
    (here : frameAt? data = some shape)
    (long : data.length < shape.length) :
    segments frameAt? offset data = [] := by
  rw [segments]
  by_cases nonempty : data = []
  · rw [nonempty]
    rfl
  · rw [Bytes.firstSuffix?_of_accepted nonempty here]
    exact dif_neg (by omega)

/-- Where no frame starts, there are no segments. -/
theorem segments_of_nowhere
    (offset : Nat)
    (nowhere : ∀ place < data.length, frameAt? (data.drop place) = none) :
    segments frameAt? offset data = [] := by
  rw [segments, Bytes.firstSuffix?_eq_none_iff.2 nowhere]

/-- Bytes at which no frame starts may be passed over. -/
theorem segments_of_skipped
    (offset : Nat)
    {count : Nat}
    (skipped : ∀ place < count, frameAt? (data.drop place) = none) :
    segments frameAt? offset data = segments frameAt? (offset + count) (data.drop count) := by
  rw [segments, segments, Bytes.firstSuffix?_of_skipped skipped]
  cases found : Bytes.firstSuffix? frameAt? (data.drop count) with
  | none => rfl
  | some place =>
      obtain ⟨gap, shape⟩ := place
      have inside := (Bytes.firstSuffix?_eq_some_iff.1 found).1
      simp only [Option.map_some, List.length_drop, List.drop_drop, Nat.add_assoc] at inside ⊢
      by_cases fits : 0 < shape.length ∧ count + (gap + shape.length) ≤ data.length
      · rw [dif_pos fits, dif_pos ⟨fits.1, by omega⟩]
      · rw [dif_neg fits, dif_neg (by omega)]

theorem track_of_mem_segments
    {offset : Nat}
    {packet : Packet}
    (member : packet ∈ segments frameAt? offset data) :
    packet.track = 0 := by
  fun_induction segments frameAt? offset data with
  | case1 => cases member
  | case2 offset data gap shape found fits inductionHypothesis =>
      rcases List.mem_cons.1 member with rfl | later
      · rfl
      · exact inductionHypothesis later
  | case3 => cases member

/-- Each segment has the duration of the frame it is. -/
theorem exists_frame_of_mem_segments
    {offset : Nat}
    {packet : Packet}
    (member : packet ∈ segments frameAt? offset data) :
    ∃ suffix shape, frameAt? suffix = some shape ∧ packet.duration = shape.duration := by
  fun_induction segments frameAt? offset data with
  | case1 => cases member
  | case2 offset data gap shape found fits inductionHypothesis =>
      rcases List.mem_cons.1 member with rfl | later
      · exact ⟨_, shape, (Bytes.firstSuffix?_eq_some_iff.1 found).2.1, rfl⟩
      · exact inductionHypothesis later
  | case3 => cases member

/-! ## Verdicts on the bytes at hand -/

/-- The verdicts of `scan` on the bytes at hand fit the rule `frameAt?` for the
whole rest of the stream, of which `hidden` has not been seen yet. -/
structure Recognises
    (scan : Bool → Bytes → Scan)
    (frameAt? : Bytes → Option FrameShape) : Prop where
  /-- A frame is the frame of the rule, even where its end is not at hand. -/
  frame :
    ∀ {atEnd : Bool} {visible hidden : Bytes} {length : Nat} {duration : Option Int} {track : Nat},
      (atEnd = true → hidden = []) →
      scan atEnd visible = .frame length duration track →
      frameAt? (visible ++ hidden) = some ⟨length, duration⟩ ∧ 0 < length ∧ track = 0
  /-- At the end of the stream only a rest without segments waits. -/
  needMore :
    ∀ {visible : Bytes},
      scan true visible = .needMore → ∀ offset, segments frameAt? offset visible = []
  /-- No frame starts in bytes that are dropped. -/
  skip :
    ∀ {atEnd : Bool} {visible hidden : Bytes} {count : Nat},
      (atEnd = true → hidden = []) →
      scan atEnd visible = .skip count →
      ∀ place < min (max count 1) visible.length,
        frameAt? ((visible ++ hidden).drop place) = none

/-! ## Dropping up to a sync word -/

/-- Every frame of the rule starts with one of some sync words, which are all
of one width. -/
structure StartsWithSync
    (isSync : Bytes → Bool)
    (words : List Bytes)
    (width : Nat)
    (frameAt? : Bytes → Option FrameShape) : Prop where
  spells : ∀ {data : Bytes}, isSync data = true ↔ data.take width ∈ words
  wide : ∀ word ∈ words, word.length = width
  starts : ∀ {data : Bytes} {shape : FrameShape}, frameAt? data = some shape → isSync data = true

variable {isSync : Bytes → Bool} {words : List Bytes} {width : Nat}

/-- As many bytes as a sync word has decide whether there is one. -/
theorem StartsWithSync.decided
    (sync : StartsWithSync isSync words width frameAt?)
    {front : Bytes}
    (back : Bytes)
    (enough : width ≤ front.length) :
    isSync (front ++ back) = isSync front := by
  rw [Bool.eq_iff_iff, sync.spells, sync.spells, List.take_append_of_le_length enough]

theorem StartsWithSync.long
    (sync : StartsWithSync isSync words width frameAt?)
    {data : Bytes}
    (isSync : isSync data = true) :
    width ≤ data.length := by
  have length := sync.wide _ (sync.spells.1 isSync)
  rw [List.length_take] at length
  omega

/-- Offset of the first sync word. -/
def firstSync? (isSync : Bytes → Bool) (data : Bytes) : Option Nat :=
  (Bytes.firstSuffix? (fun suffix => if isSync suffix then some () else none) data).map (·.1)

/-- No sync word starts before the first one at hand, or, where there is none,
before the last bytes that could begin one. -/
theorem StartsWithSync.isSync_of_before
    (sync : StartsWithSync isSync words width frameAt?)
    {visible : Bytes}
    (hidden : Bytes)
    {place : Nat}
    (inside : place < visible.length)
    (before :
      (∃ distance, firstSync? isSync visible = some distance ∧ place < distance)
        ∨ firstSync? isSync visible = none ∧ place + width ≤ visible.length) :
    isSync (visible.drop place ++ hidden) = false := by
  unfold firstSync? at before
  rcases before with ⟨distance, found, earlier⟩ | ⟨found, enough⟩
  · obtain ⟨⟨distance, _⟩, first, rfl⟩ := Option.map_eq_some_iff.1 found
    obtain ⟨-, accepted, refused⟩ := Bytes.firstSuffix?_eq_some_iff.1 first
    have atSync : isSync (visible.drop distance) = true := by
      simpa using accepted
    have long := sync.long atSync
    have noSync := refused place earlier
    rw [List.length_drop] at long
    rw [sync.decided _ (by rw [List.length_drop]; omega)]
    simpa using noSync
  · have nowhere := Bytes.firstSuffix?_eq_none_iff.1 (Option.map_eq_none_iff.1 found) place inside
    rw [sync.decided _ (by rw [List.length_drop]; omega)]
    simpa using nowhere

/-- No frame starts in bytes that are dropped up to the next sync word at hand,
or, where there is none, up to the last bytes that could begin one. -/
theorem StartsWithSync.frameAt?_of_dropped
    (sync : StartsWithSync isSync words width frameAt?)
    {visible hidden : Bytes}
    {count : Nat}
    (refused : frameAt? (visible ++ hidden) = none)
    (verdict :
      (∃ distance, firstSync? isSync visible.tail = some distance ∧ count = distance + 1)
        ∨ firstSync? isSync visible.tail = none ∧ count = visible.length + 1 - width) :
    ∀ place < min (max count 1) visible.length,
      frameAt? ((visible ++ hidden).drop place) = none := by
  intro place below
  cases place with
  | zero => exact refused
  | succ place =>
      have inside : place < visible.tail.length := by
        rw [List.length_tail]
        omega
      have rest : (visible ++ hidden).drop (place + 1) = visible.tail.drop place ++ hidden := by
        rw [List.drop_append_of_le_length (by omega), ← List.drop_one, List.drop_drop,
          Nat.add_comm 1 place]
      have noSync : isSync (visible.tail.drop place ++ hidden) = false := by
        apply sync.isSync_of_before hidden inside
        rcases verdict with ⟨distance, found, rfl⟩ | ⟨found, rfl⟩
        · exact .inl ⟨distance, found, by omega⟩
        · exact .inr ⟨found, by rw [List.length_tail]; omega⟩
      rw [rest]
      cases found : frameAt? (visible.tail.drop place ++ hidden) with
      | none => rfl
      | some shape =>
          rw [sync.starts found] at noSync
          cases noSync

end Elementary

namespace FrameAssembler

open Elementary

variable {scan : Bool → Bytes → Scan} {frameAt? : Bytes → Option FrameShape}

/-- The packet of a frame whose bytes are all pending. -/
theorem frameAhead_eq_packet
    (assembler : FrameAssembler)
    (hidden : Bytes)
    {length : Nat}
    (duration : Option Int)
    (fits : length ≤ assembler.pending.length) :
    assembler.frameAhead length duration 0
      = (⟨length, duration⟩ : FrameShape).packet assembler.base (assembler.pending ++ hidden) := by
  unfold frameAhead FrameShape.packet
  rw [List.take_append_of_le_length fits]
  rfl

/-- A pass of cutting takes the next segments off the rest of the stream. At
the end of the stream it takes all of them. -/
theorem segments_of_cutOnto
    (recognises : Recognises scan frameAt?)
    (atEnd : Bool)
    (hidden : Bytes)
    (closed : atEnd = true → hidden = [])
    (found : Array Packet)
    (assembler : FrameAssembler) :
    ∃ packets after,
      cutOnto (fun (_ : Unit) data => (scan atEnd data, ())) found () assembler
          = (found ++ packets, (), after)
        ∧ after.pending <:+ assembler.pending
        ∧ segments frameAt? assembler.base (assembler.pending ++ hidden)
            = packets.toList ++ segments frameAt? after.base (after.pending ++ hidden)
        ∧ (atEnd = true → segments frameAt? after.base after.pending = []) := by
  generalize isState : () = state
  fun_induction cutOnto (fun (_ : Unit) data => (scan atEnd data, ())) found state assembler with
  | case1 found state assembler isEmpty =>
      refine ⟨#[], assembler, by simp, List.suffix_refl _, rfl, fun _ => ?_⟩
      rw [isEmpty]
      exact segments_of_nowhere _ fun _ absurd => nomatch absurd
  | case2 found state assembler nonempty length duration track after verdict holds
      inductionHypothesis =>
      obtain ⟨packets, rest, cut, suffix, same, atLast⟩ := inductionHypothesis rfl
      obtain ⟨here, positive, rfl⟩ := recognises.frame closed (Prod.mk.inj verdict).1
      obtain ⟨-, fits⟩ := (holdsFrame_iff assembler length).1 holds
      have reaches : length ≤ (assembler.pending ++ hidden).length := by
        rw [List.length_append]
        omega
      refine ⟨#[assembler.frameAhead length duration 0] ++ packets, rest, ?_, ?_, ?_, atLast⟩
      · rw [cut]
        simp
      · exact suffix.trans (List.drop_suffix _ _)
      · rw [segments_of_frame _ here positive reaches, List.drop_append_of_le_length fits,
          Array.toList_append, List.append_assoc, ← same,
          frameAhead_eq_packet assembler hidden duration fits]
        rfl
  | case3 found state assembler nonempty length duration track after verdict lacks =>
      refine ⟨#[], assembler, by simp, List.suffix_refl _, rfl, fun last => ?_⟩
      obtain ⟨here, positive, -⟩ := recognises.frame closed (Prod.mk.inj verdict).1
      rw [closed last, List.append_nil] at here
      rw [holdsFrame_iff] at lacks
      have long : assembler.pending.length < length := by omega
      exact segments_of_cutOff _ here long
  | case4 found state assembler nonempty after verdict =>
      refine ⟨#[], assembler, by simp, List.suffix_refl _, rfl, fun last => ?_⟩
      rw [last] at verdict
      exact recognises.needMore (Prod.mk.inj verdict).1 _
  | case5 found state assembler nonempty count after verdict inductionHypothesis =>
      obtain ⟨packets, rest, cut, suffix, same, atLast⟩ := inductionHypothesis rfl
      have skipped := recognises.skip closed (Prod.mk.inj verdict).1
      simp only [dropping, Bytes.dropUpTo_eq] at suffix same
      have dropped : assembler.pending.drop (min (max count 1) assembler.pending.length)
          = assembler.pending.drop (max count 1) := by
        rw [List.drop_eq_drop_iff]
        omega
      refine ⟨packets, rest, cut, suffix.trans (List.drop_suffix _ _), ?_, atLast⟩
      rw [← same, segments_of_skipped _ skipped,
        List.drop_append_of_le_length (Nat.min_le_right _ _), dropped]

/-- Takes in chunks one by one, cutting after each, and cuts once more when
none follows. Gives all frames and the assembler they leave. -/
def cutChunks {σ : Type} (scan : Bool → σ → Bytes → Scan × σ) :
    List Bytes → σ → FrameAssembler → List Packet × FrameAssembler
  | [], state, assembler =>
      let (packets, _, assembler) := assembler.cut (scan true) state
      (packets.toList, assembler)
  | chunk :: rest, state, assembler =>
      let (packets, state, assembler) := (assembler.push chunk).cut (scan false) state
      let (later, assembler) := cutChunks scan rest state assembler
      (packets.toList ++ later, assembler)

/-- Whatever the chunks are, cutting finds the segments of the whole stream and
leaves a tail of it. -/
theorem cutChunks_eq_segments
    (recognises : Recognises scan frameAt?)
    (chunks : List Bytes)
    (assembler : FrameAssembler) :
    (cutChunks (fun atEnd (_ : Unit) data => (scan atEnd data, ())) chunks () assembler).1
        = segments frameAt? assembler.base (assembler.pending ++ chunks.flatten)
      ∧ (cutChunks (fun atEnd (_ : Unit) data => (scan atEnd data, ())) chunks ()
          assembler).2.pending <:+ assembler.pending ++ chunks.flatten := by
  induction chunks generalizing assembler with
  | nil =>
      obtain ⟨packets, after, cut, suffix, same, atLast⟩ :=
        segments_of_cutOnto recognises true [] (fun _ => rfl) #[] assembler
      rw [List.append_nil, List.append_nil, atLast rfl, List.append_nil] at same
      simp only [cutChunks, FrameAssembler.cut, cut, List.flatten_nil, List.append_nil]
      exact ⟨by simpa using same.symm, suffix⟩
  | cons chunk rest inductionHypothesis =>
      obtain ⟨packets, after, cut, suffix, same, -⟩ :=
        segments_of_cutOnto recognises false rest.flatten nofun #[]
          (assembler.push chunk)
      obtain ⟨later, tail⟩ := inductionHypothesis after
      simp only [cutChunks, FrameAssembler.cut, cut, List.flatten_cons]
      simp only [push, List.append_assoc] at same suffix
      constructor
      · rw [later, same]
        simp
      · refine tail.trans ?_
        rw [← List.append_assoc]
        exact (List.suffix_append_inj_of_length_eq rfl).2 ⟨suffix, rfl⟩

end FrameAssembler

end MediaSplit

import MediaSplit.Proofs.Schedule.Requests
import Mathlib.Data.List.Chain

/-!
Contract: how ranges in any order become a tiling of the frame line.

Owns:
- `FrameRanges.Tiles`, ranges that stand one behind the other, which those of
  every schedule do;
- `Range.IsFirstWith`, which of the written ranges a frame belongs to;
- `FrameRanges.IsTiling` and `FrameRanges.Serves`, the two halves of what a
  schedule is in terms of the ranges as written.

The range that is found for a frame is the first that does not end before it. In
a tiling that range has the frame, since all earlier ones end before the frame.

Does **not** own: the place of ranges in time.
-/

set_option autoImplicit false

namespace MediaSplit.Schedule

namespace Range

/-- Whether a range has a frame. -/
def Holds (range : Range) (frame : Int) : Prop :=
  range.firstFrame ≤ frame ∧ frame ≤ range.lastFrame

instance decidableHolds (range : Range) (frame : Int) : Decidable (range.Holds frame) :=
  inferInstanceAs (Decidable (range.firstFrame ≤ frame ∧ frame ≤ range.lastFrame))

/-- Whether a range is the one of those written that a frame belongs to: it
starts first of all that have the frame, and is written first of those that
start with it. -/
def IsFirstWith (written : List Range) (frame : Int) (range : Range) : Prop :=
  ∃ before behind, written = before ++ range :: behind
    ∧ range.Holds frame
    ∧ (∀ other ∈ before, other.Holds frame → range.firstFrame < other.firstFrame)
    ∧ ∀ other ∈ behind, other.Holds frame → range.firstFrame ≤ other.firstFrame

/-- Whether the frames of a range are in order and can be counted in the signed
64-bit range. -/
structure IsForward (range : Range) : Prop where
  firstFrame_nonneg : 0 ≤ range.firstFrame
  firstFrame_le : range.firstFrame ≤ range.lastFrame
  lastFrame_le : range.lastFrame ≤ greatest

theorem isForward_of_isInconsistent
    {range : Range}
    (consistent : range.isInconsistent = false)
    (bounded : range.lastFrame ≤ greatest) :
    range.IsForward := by
  simp only [isInconsistent, Bool.or_eq_false_iff, decide_eq_false_iff_not, Int.not_lt]
    at consistent
  exact ⟨consistent.1.1.2, consistent.2, bounded⟩

end Range

namespace FrameRanges

/-- Whether ranges stand one behind the other from a frame on. -/
def Tiles : (free : Int) → List Range → Prop
  | _, [] => True
  | free, range :: rest =>
      range.firstFrame = free ∧ free ≤ range.lastFrame ∧ Tiles (clamped (range.lastFrame + 1)) rest

/-! ## Cutting -/

section Cutting

variable {defaultRate : Float} {ranges : List Range}

theorem tiles_closingRange (defaultRate : Float) (free : Int) :
    Tiles free [closingRange defaultRate free] :=
  ⟨rfl, Int.le_max_right _ _, trivial⟩

theorem tiles_tile
    (forward : ∀ range ∈ ranges, range.IsForward)
    (free : Int) :
    Tiles free ((tile defaultRate free ranges).1
      ++ [closingRange defaultRate (tile defaultRate free ranges).2]) := by
  induction ranges generalizing free with
  | nil => exact tiles_closingRange defaultRate free
  | cons range rest inductionHypothesis =>
      have isForward := forward range List.mem_cons_self
      have more := inductionHypothesis fun other member =>
        forward other (List.mem_cons_of_mem _ member)
      rw [tile]
      split
      next => exact more free
      next ahead =>
        have reaches := Int.not_lt.1 ahead
        dsimp only
        split
        next gap =>
          have joins : clamped (range.firstFrame - 1 + 1) = max range.firstFrame free := by
            have nonneg := isForward.firstFrame_nonneg
            have bounded := Int.le_trans isForward.firstFrame_le isForward.lastFrame_le
            rw [Int.sub_add_cancel, clamped_eq_self nonneg bounded,
              Int.max_eq_left (Int.le_of_lt gap)]
          refine ⟨rfl, Int.le_sub_one_of_lt gap, joins.symm, ?_, more _⟩
          show clamped (range.firstFrame - 1 + 1) ≤ range.lastFrame
          rw [joins]
          exact Int.max_le.2 ⟨isForward.firstFrame_le, reaches⟩
        next overlap => exact ⟨Int.max_eq_right (Int.not_lt.1 overlap), reaches, more _⟩

theorem lastFrame_lt_of_mem_tile
    (forward : ∀ range ∈ ranges, range.IsForward)
    (bounded : ∀ range ∈ ranges, range.lastFrame < greatest)
    (free : Int) :
    ∀ tiled ∈ (tile defaultRate free ranges).1, tiled.lastFrame < greatest := by
  induction ranges generalizing free with
  | nil => exact fun tiled member => nomatch member
  | cons range rest inductionHypothesis =>
      have ends := bounded range List.mem_cons_self
      have ordered := (forward range List.mem_cons_self).firstFrame_le
      have more := inductionHypothesis
        (fun other member => forward other (List.mem_cons_of_mem _ member))
        (fun other member => bounded other (List.mem_cons_of_mem _ member))
      rw [tile]
      split
      next => exact more free
      next =>
        intro tiled member
        obtain isGap | member := List.mem_append.1 member
        · split at isGap
          · obtain rfl := List.mem_singleton.1 isGap
            show range.firstFrame - 1 < greatest
            omega
          · cases isGap
        · obtain rfl | member := List.mem_cons.1 member
          · exact ends
          · exact more _ tiled member

/-- The tile that a frame lies on has the rate of the first range that has the
frame, and the default rate where there is none. -/
theorem rate_find?_tile
    (forward : ∀ range ∈ ranges, range.IsForward)
    (bounded : ∀ range ∈ ranges, range.lastFrame < greatest)
    (ascending : ranges.Pairwise fun left right => left.firstFrame ≤ right.firstFrame)
    {free frame : Int}
    (behind : free ≤ frame) :
    (((tile defaultRate free ranges).1.find? (frame ≤ ·.lastFrame)).map (·.rate)).getD defaultRate
      = ((ranges.find? (·.Holds frame)).map (·.rate)).getD defaultRate := by
  induction ranges generalizing free with
  | nil => rfl
  | cons range rest inductionHypothesis =>
      obtain ⟨nonneg, ordered, -⟩ := forward range List.mem_cons_self
      have ends := bounded range List.mem_cons_self
      obtain ⟨isFirst, ascendingRest⟩ := List.pairwise_cons.1 ascending
      have more {free : Int} := @inductionHypothesis
        (fun other member => forward other (List.mem_cons_of_mem _ member))
        (fun other member => bounded other (List.mem_cons_of_mem _ member)) ascendingRest free
      have next : clamped (range.lastFrame + 1) = range.lastFrame + 1 :=
        clamped_eq_self (by omega) ends
      -- From its first frame on the range decides, clipped or not.
      have onward (reaches : range.firstFrame ≤ frame) (clipped : Range)
          (sameEnd : clipped.lastFrame = range.lastFrame) (sameRate : clipped.rate = range.rate) :
          ((List.find? (frame ≤ ·.lastFrame)
              (clipped :: (tile defaultRate (range.lastFrame + 1) rest).1)).map (·.rate)).getD
            defaultRate
          = (((range :: rest).find? (·.Holds frame)).map (·.rate)).getD defaultRate := by
        by_cases within : frame ≤ range.lastFrame
        · have holds : range.Holds frame := ⟨reaches, within⟩
          rw [List.find?_cons_of_pos (by simpa [sameEnd] using within),
            List.find?_cons_of_pos (by simpa using holds)]
          exact sameRate
        · rw [List.find?_cons_of_neg (by simpa [sameEnd] using within),
            List.find?_cons_of_neg (by simpa using fun holds => within holds.2)]
          exact more (by omega)
      rw [tile]
      split
      next covered =>
        rw [more behind, List.find?_cons_of_neg]
        exact fun holds => absurd (of_decide_eq_true holds).2 (by omega)
      next reached =>
        rw [next]
        dsimp only
        split
        next gap =>
          by_cases before : frame < range.firstFrame
          · -- The frame lies in the gap, and no later range reaches back to it.
            have absent : (range :: rest).find? (·.Holds frame) = none := by
              rw [List.find?_eq_none]
              intro other member holds
              have starts := (of_decide_eq_true holds).1
              obtain rfl | member := List.mem_cons.1 member
              · omega
              · have later := isFirst other member
                omega
            rw [absent, List.singleton_append, List.find?_cons_of_pos]
            · rfl
            · exact decide_eq_true (Int.le_sub_one_of_lt before)
          · rw [List.singleton_append, List.find?_cons_of_neg]
            · exact onward (Int.not_lt.1 before) _ rfl rfl
            · exact fun within => absurd (of_decide_eq_true within) (by
                show ¬ frame ≤ range.firstFrame - 1
                omega)
        next overlap => exact onward (by omega) _ rfl rfl

end Cutting

/-! ## Sorting -/

theorem startsNoLater_trans
    (left middle right : Range)
    (before : decide (left.firstFrame ≤ middle.firstFrame) = true)
    (behind : decide (middle.firstFrame ≤ right.firstFrame) = true) :
    decide (left.firstFrame ≤ right.firstFrame) = true :=
  decide_eq_true (Int.le_trans (of_decide_eq_true before) (of_decide_eq_true behind))

theorem startsNoLater_total (left right : Range) :
    (decide (left.firstFrame ≤ right.firstFrame) || decide (right.firstFrame ≤ left.firstFrame))
      = true := by
  simpa using Int.le_total left.firstFrame right.firstFrame

theorem pairwise_sorted (written : List Range) :
    (sorted written).Pairwise fun left right => left.firstFrame ≤ right.firstFrame :=
  (List.pairwise_mergeSort startsNoLater_trans startsNoLater_total written).imp of_decide_eq_true

theorem sorted_eq_self
    {written : List Range}
    (ascending : written.Pairwise fun left right => left.firstFrame ≤ right.firstFrame) :
    sorted written = written :=
  List.mergeSort_of_pairwise (ascending.imp decide_eq_true)

theorem mem_sorted {written : List Range} {range : Range} :
    range ∈ sorted written ↔ range ∈ written := List.mem_mergeSort

/-- A range is sorted in before all that do not start before it, so ranges that
start together keep their order. -/
theorem exists_sorted_cons (range : Range) (written : List Range) :
    ∃ before behind, sorted (range :: written) = before ++ range :: behind
      ∧ sorted written = before ++ behind
      ∧ ∀ other ∈ before, other.firstFrame < range.firstFrame := by
  obtain ⟨before, behind, whole, others, isBefore⟩ :=
    List.mergeSort_cons startsNoLater_trans startsNoLater_total range written
  exact ⟨before, behind, whole, others, fun other member => by simpa using isBefore other member⟩

/-- The first of the sorted ranges that has a frame is the one that the frame
belongs to. -/
theorem isFirstWith_of_find?_sorted
    {written : List Range}
    {frame : Int}
    {range : Range}
    (found : (sorted written).find? (·.Holds frame) = some range) :
    range.IsFirstWith written frame := by
  induction written with
  | nil => cases (congrArg (List.find? _) List.mergeSort_nil).symm.trans found
  | cons head rest inductionHypothesis =>
      obtain ⟨before, behind, whole, others, isBefore⟩ := exists_sorted_cons head rest
      have keepsFirst
          (foundBefore : (sorted rest).find? (·.Holds frame) = some range)
          (stays : head.Holds frame → range.firstFrame < head.firstFrame) :
          range.IsFirstWith (head :: rest) frame := by
        obtain ⟨ahead, after, split, holds, first, last⟩ := inductionHypothesis foundBefore
        refine ⟨head :: ahead, after, congrArg (head :: ·) split, holds, ?_, last⟩
        intro other member
        obtain rfl | member := List.mem_cons.1 member
        · exact stays
        · exact first other member
      rw [whole, List.find?_append] at found
      cases early : before.find? (·.Holds frame) with
      | some other =>
          rw [early] at found
          obtain rfl := Option.some.inj found
          refine keepsFirst ?_ fun _ => isBefore other (List.mem_of_find?_eq_some early)
          rw [others, List.find?_append, early]
          rfl
      | none =>
          rw [early, Option.none_or] at found
          by_cases holds : head.Holds frame
          · rw [List.find?_cons_of_pos (by simpa using holds)] at found
            obtain rfl := Option.some.inj found
            refine ⟨[], rest, rfl, holds, by simp, ?_⟩
            intro other member otherHolds
            have ascending := pairwise_sorted (head :: rest)
            rw [whole] at ascending
            have isBehind : other ∈ behind := by
              have isSorted := mem_sorted.2 member
              rw [others] at isSorted
              refine (List.mem_append.1 isSorted).resolve_left fun isEarly => ?_
              exact List.find?_eq_none.1 early other isEarly (decide_eq_true otherHolds)
            exact List.rel_of_pairwise_cons (List.pairwise_append.1 ascending).2.1 isBehind
          · rw [List.find?_cons_of_neg (by simpa using holds)] at found
            refine keepsFirst ?_ fun has => absurd has holds
            rw [others, List.find?_append, early]
            exact found

/-! ## Placing -/

theorem tiles_place (base : Float) (free : Int) (ranges : List Range) :
    Tiles free (place base ranges) ↔ Tiles free ranges := by
  induction ranges generalizing base free with
  | nil => exact Iff.rfl
  | cons range rest inductionHypothesis =>
      exact and_congr Iff.rfl (and_congr Iff.rfl (inductionHypothesis _ _))

theorem rate_find?_place (base : Float) (frame : Int) (ranges : List Range) :
    ((place base ranges).find? (frame ≤ ·.lastFrame)).map (·.rate)
      = (ranges.find? (frame ≤ ·.lastFrame)).map (·.rate) := by
  induction ranges generalizing base with
  | nil => rfl
  | cons range rest inductionHypothesis =>
      by_cases within : frame ≤ range.lastFrame
      · rw [place, List.find?_cons_of_pos (by simpa using within),
          List.find?_cons_of_pos (by simpa using within)]
        rfl
      · rw [place, List.find?_cons_of_neg (by simpa using within),
          List.find?_cons_of_neg (by simpa using within)]
        exact inductionHypothesis _

/-- Placing changes nothing but the places. -/
theorem exists_of_mem_place
    {base : Float}
    {ranges : List Range}
    {placed : Range}
    (member : placed ∈ place base ranges) :
    ∃ range ∈ ranges, ∃ rangeBase, placed = { range with base := rangeBase } := by
  induction ranges generalizing base with
  | nil => cases member
  | cons head rest inductionHypothesis =>
      obtain rfl | member := List.mem_cons.1 member
      · exact ⟨head, List.mem_cons_self, base, rfl⟩
      · obtain ⟨range, isLater, rangeBase, same⟩ := inductionHypothesis member
        exact ⟨range, List.mem_cons_of_mem _ isLater, rangeBase, same⟩

theorem exists_place_concat (base : Float) (ranges : List Range) (last : Range) :
    ∃ lastBase, place base (ranges ++ [last])
      = place base ranges ++ [{ last with base := lastBase }] := by
  induction ranges generalizing base with
  | nil => exact ⟨base, rfl⟩
  | cons range rest inductionHypothesis =>
      obtain ⟨lastBase, placed⟩ := inductionHypothesis ({ range with base := base }).finish
      exact ⟨lastBase, congrArg (_ :: ·) placed⟩

/-! ## Schedules -/

/-- The range that is open to the right has the frames from its first one on. -/
theorem firstFrame_getD_find?
    {free frame : Int}
    {ranges : List Range}
    {last : Range}
    (tiles : Tiles free (ranges ++ [last]))
    (nonneg : 0 ≤ free)
    (behind : free ≤ frame) :
    ((ranges.find? (frame ≤ ·.lastFrame)).getD last).firstFrame ≤ frame := by
  induction ranges generalizing free with
  | nil => exact Int.le_trans (Int.le_of_eq tiles.1) behind
  | cons range rest inductionHypothesis =>
      obtain ⟨starts, reaches, more⟩ := tiles
      by_cases within : frame ≤ range.lastFrame
      · rw [List.find?_cons_of_pos (by simpa using within), Option.getD_some, starts]
        exact behind
      · rw [List.find?_cons_of_neg (by simpa using within)]
        apply inductionHypothesis more
        · simp only [clamped, least, greatest]
          omega
        · simp only [clamped, least, greatest]
          omega

/-- Short of the end of the signed 64-bit range, a range starts one frame after
the end of its predecessor. -/
theorem isChain_of_tiles
    {free : Int}
    {ranges : List Range}
    {last : Range}
    (tiles : Tiles free (ranges ++ [last]))
    (nonneg : 0 ≤ free)
    (bounded : ∀ range ∈ ranges, range.lastFrame < greatest) :
    (ranges ++ [last]).IsChain fun earlier later =>
      later.firstFrame = earlier.lastFrame + 1 := by
  induction ranges generalizing free with
  | nil => exact List.isChain_singleton _
  | cons range rest inductionHypothesis =>
      obtain ⟨-, reaches, more⟩ := tiles
      have next : clamped (range.lastFrame + 1) = range.lastFrame + 1 :=
        clamped_eq_self (by omega) (bounded range List.mem_cons_self)
      rw [next] at more
      rw [List.cons_append, List.isChain_cons]
      refine ⟨?_, inductionHypothesis more (by omega) fun other member =>
        bounded other (List.mem_cons_of_mem _ member)⟩
      cases rest with
      | nil =>
          rintro later ⟨⟩
          exact more.1
      | cons later _ =>
          rintro later ⟨⟩
          exact more.1

theorem firstFrame_of_tiles
    {free : Int}
    {ranges : List Range}
    (tiles : Tiles free ranges) :
    ∀ range ∈ ranges.head?, range.firstFrame = free := by
  cases ranges with
  | nil => exact fun range member => nomatch member
  | cons head rest =>
      rintro range ⟨⟩
      exact tiles.1

theorem firstFrame_le_of_tiles
    {free : Int}
    {ranges : List Range}
    (tiles : Tiles free ranges) :
    ∀ range ∈ ranges, range.firstFrame ≤ range.lastFrame := by
  induction ranges generalizing free with
  | nil => exact fun range member => nomatch member
  | cons head rest inductionHypothesis =>
      obtain ⟨starts, reaches, more⟩ := tiles
      intro range member
      obtain rfl | member := List.mem_cons.1 member
      · exact Int.le_trans (Int.le_of_eq starts) reaches
      · exact inductionHypothesis more range member

/-- Ranges that cover all frames from 0 on, each of them once; the last one is
open to the right and runs at the default rate. -/
structure IsTiling (schedule : FrameRanges) : Prop where
  starts : ∀ range ∈ schedule.toList.head?, range.firstFrame = 0
  follows : schedule.toList.IsChain fun earlier later =>
    later.firstFrame = earlier.lastFrame + 1
  nonempty : ∀ range ∈ schedule.toList, range.firstFrame ≤ range.lastFrame
  openEnd_le : openEnd ≤ schedule.closing.lastFrame
  closing_rate : schedule.closing.rate = schedule.defaultRate

/-- What a schedule finds for a frame, in terms of the ranges as written. -/
structure Serves (schedule : FrameRanges) (written : List Range) (frame : Int) : Prop where
  mem : schedule.rangeFor frame ∈ schedule.toList
  firstFrame_le : (schedule.rangeFor frame).firstFrame ≤ frame
  le_lastFrame : frame ≤ (schedule.rangeFor frame).lastFrame
    ∨ schedule.rangeFor frame = schedule.closing
  rate : (∃ range : Range, range.IsFirstWith written frame
        ∧ (schedule.rangeFor frame).rate = range.rate)
    ∨ ((∀ range ∈ written, ¬ range.Holds frame)
        ∧ (schedule.rangeFor frame).rate = schedule.defaultRate)

theorem rangeFor_mem (schedule : FrameRanges) (frame : Int) :
    schedule.rangeFor frame ∈ schedule.toList := by
  unfold rangeFor toList
  cases found : schedule.ranges.find? (frame ≤ ·.lastFrame) with
  | some range => exact List.mem_append_left _ (List.mem_of_find?_eq_some found)
  | none => exact List.mem_append_right _ List.mem_cons_self

theorem le_lastFrame_rangeFor (schedule : FrameRanges) (frame : Int) :
    frame ≤ (schedule.rangeFor frame).lastFrame ∨ schedule.rangeFor frame = schedule.closing := by
  unfold rangeFor
  cases found : schedule.ranges.find? (frame ≤ ·.lastFrame) with
  | some range =>
      have within := List.find?_some found
      exact .inl (of_decide_eq_true within)
  | none => exact .inr rfl

section Arranged

variable {defaultRate : Float} {written : List Range}

theorem exists_arrange_eq (defaultRate : Float) (written : List Range) :
    ∃ lastBase, arrange defaultRate written
      = { ranges := place 0.0 (tile defaultRate 0 (sorted written)).1
          closing :=
            { closingRange defaultRate (tile defaultRate 0 (sorted written)).2 with
              base := lastBase }
          defaultRate := defaultRate
          frame := 0 } := by
  obtain ⟨lastBase, placed⟩ := exists_place_concat 0.0 (tile defaultRate 0 (sorted written)).1
    (closingRange defaultRate (tile defaultRate 0 (sorted written)).2)
  refine ⟨lastBase, ?_⟩
  unfold arrange
  dsimp only
  rw [placed, List.dropLast_concat, List.getLast?_concat, Option.getD_some]

theorem toList_arrange (defaultRate : Float) (written : List Range) :
    (arrange defaultRate written).toList
      = place 0.0 ((tile defaultRate 0 (sorted written)).1
        ++ [closingRange defaultRate (tile defaultRate 0 (sorted written)).2]) := by
  obtain ⟨lastBase, placed⟩ := exists_place_concat 0.0 (tile defaultRate 0 (sorted written)).1
    (closingRange defaultRate (tile defaultRate 0 (sorted written)).2)
  unfold toList arrange
  dsimp only
  rw [placed, List.dropLast_concat, List.getLast?_concat, Option.getD_some]

/-- The range found for a frame has the rate of the first range in order that
has the frame. -/
theorem rate_rangeFor_arrange
    (forward : ∀ range ∈ written, range.IsForward)
    (bounded : ∀ range ∈ written, range.lastFrame < greatest)
    {frame : Int}
    (nonneg : 0 ≤ frame) :
    ((arrange defaultRate written).rangeFor frame).rate
      = (((sorted written).find? (·.Holds frame)).map (·.rate)).getD defaultRate := by
  obtain ⟨lastBase, arranged⟩ := exists_arrange_eq defaultRate written
  rw [← rate_find?_tile (fun range member => forward range (mem_sorted.1 member))
    (fun range member => bounded range (mem_sorted.1 member)) (pairwise_sorted written) nonneg,
    ← rate_find?_place 0.0, arranged]
  unfold rangeFor
  cases (place 0.0 (tile defaultRate 0 (sorted written)).1).find? (frame ≤ ·.lastFrame) <;> rfl

theorem tiles_arrange
    (forward : ∀ range ∈ written, range.IsForward) :
    Tiles 0 (arrange defaultRate written).toList := by
  rw [toList_arrange, tiles_place]
  exact tiles_tile (fun range member => forward range (mem_sorted.1 member)) 0

theorem isTiling_arrange
    (forward : ∀ range ∈ written, range.IsForward)
    (bounded : ∀ range ∈ written, range.lastFrame < greatest) :
    (arrange defaultRate written).IsTiling := by
  have tiles : Tiles 0 (arrange defaultRate written).toList := tiles_arrange forward
  obtain ⟨lastBase, arranged⟩ := exists_arrange_eq defaultRate written
  constructor
  case starts => exact firstFrame_of_tiles tiles
  case follows =>
    apply isChain_of_tiles tiles (Int.le_refl 0)
    intro placed member
    rw [arranged] at member
    obtain ⟨range, isTile, base, rfl⟩ := exists_of_mem_place member
    exact lastFrame_lt_of_mem_tile (fun other isSorted => forward other (mem_sorted.1 isSorted))
      (fun other isSorted => bounded other (mem_sorted.1 isSorted)) 0 range isTile
  case nonempty => exact firstFrame_le_of_tiles tiles
  case openEnd_le =>
    rw [arranged]
    exact Int.le_max_left _ _
  case closing_rate => rw [arranged]; rfl

/-- A schedule arranged from consistent ranges covers each frame from 0 on once,
and the range that it finds for a frame has the rate of the written range that
the frame belongs to, or the default rate where no written range has it. -/
theorem serves_arrange
    (consistent : ∀ range ∈ written, range.isInconsistent = false)
    (bounded : ∀ range ∈ written, range.lastFrame < greatest) :
    (arrange defaultRate written).IsTiling
      ∧ ∀ frame, 0 ≤ frame → (arrange defaultRate written).Serves written frame := by
  have forward : ∀ range ∈ written, range.IsForward := fun range member =>
    Range.isForward_of_isInconsistent (consistent range member)
      (Int.le_of_lt (bounded range member))
  refine ⟨isTiling_arrange forward bounded, fun frame nonneg => ?_⟩
  constructor
  case mem => exact rangeFor_mem _ frame
  case firstFrame_le => exact firstFrame_getD_find? (tiles_arrange forward) (Int.le_refl 0) nonneg
  case le_lastFrame => exact le_lastFrame_rangeFor _ frame
  case rate =>
    have rate : ((arrange defaultRate written).rangeFor frame).rate = _ :=
      rate_rangeFor_arrange forward bounded nonneg
    cases found : (sorted written).find? (·.Holds frame) with
    | some range =>
        rw [found] at rate
        exact .inl ⟨range, isFirstWith_of_find?_sorted found, rate⟩
    | none =>
        rw [found] at rate
        refine .inr ⟨fun range member holds => ?_, rate⟩
        exact List.find?_eq_none.1 found range (mem_sorted.2 member) (decide_eq_true holds)

/-- Ranges out of order and across each other: the two that start with frame 4
keep their order, one of them reaches over the end of the other, and no range
has the frames 0 to 3. -/
def tangledRanges : List Range :=
  [.ofFrames 8 20 50.0, .ofFrames 4 9 30.0, .ofFrames 4 12 60.0, .ofFrames 5 6 24.0]

theorem serves_arrange_tangledRanges :
    (∀ range ∈ tangledRanges, range.isInconsistent = false)
      ∧ (∀ range ∈ tangledRanges, range.lastFrame < greatest)
      ∧ (arrange 25.0 tangledRanges).IsTiling
      ∧ ∀ frame, 0 ≤ frame → (arrange 25.0 tangledRanges).Serves tangledRanges frame := by
  have consistent : ∀ range ∈ tangledRanges, range.isInconsistent = false := by decide +kernel
  have bounded : ∀ range ∈ tangledRanges, range.lastFrame < greatest := by decide
  exact ⟨consistent, bounded, serves_arrange consistent bounded⟩

end Arranged

end FrameRanges

end MediaSplit.Schedule

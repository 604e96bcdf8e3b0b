import MediaSplit.Proofs.Double.Order
import MediaSplit.Proofs.Schedule.Loading
import MediaSplit.Proofs.Schedule.Tiling

/-!
Contract: schedules of frame ranges never run backwards.

Owns:
- `Range.instant`, the place of a frame before it is truncated to a timecode,
  which keeps the order of frames within a range of positive rate;
- `FrameRanges.AreTimed`, ranges that keep it over their ends, and
  `FrameRanges.KeepsOrder`, what timecodes then do;
- `Schedule.RunsForward`, which the timing of every schedule read from a file
  does, as long as all of its rates are numbers.

A rate that is not a number passes the check of data lines, since it is not at
most zero either. Everything behind it has no place in time.
-/

set_option autoImplicit false

namespace MediaSplit.Schedule

open Double

namespace Range

theorem magnitude_second : Magnitude second (1000000000 : ℚ) := by
  have unpacked : second.toModel.unpack
      = .finite .positive (1000000000 * 2 ^ 23) (-23) (by decide) := rfl
  have magnitude := magnitude_of_unpack unpacked ⟨by decide, by decide, .inr (by decide)⟩
  norm_num at magnitude
  exact magnitude

/-- Nanoseconds from the start of a range to a frame. -/
def elapsed (range : Range) (frame : Int) : Float :=
  second * (Float.ofInt frame - Float.ofInt range.firstFrame) / range.rate

/-- Nanoseconds from the start of the schedule to a frame. -/
def instant (range : Range) (frame : Int) : Float := range.base + range.elapsed frame

/-- Whether doubles can tell the place of a range in time and how fast it runs. -/
structure IsTimed (range : Range) : Prop where
  firstFrame_nonneg : 0 ≤ range.firstFrame
  rate_pos : IsPositive range.rate
  exists_magnitude : ∃ magnitude, Magnitude range.base magnitude

section Within

variable {range : Range} {lesser greater frame : Int}

theorem below_difference
    (nonneg : 0 ≤ range.firstFrame)
    (starts : range.firstFrame ≤ lesser)
    (ordered : lesser ≤ greater)
    (bounded : greater ≤ greatest) :
    Below 63 (Float.ofInt lesser - Float.ofInt range.firstFrame)
      (Float.ofInt greater - Float.ofInt range.firstFrame) := by
  unfold greatest at bounded
  obtain ⟨first, isFirst⟩ := Int.eq_ofNat_of_zero_le nonneg
  obtain ⟨lesser, rfl⟩ := Int.eq_ofNat_of_zero_le (nonneg.trans starts)
  obtain ⟨greater, rfl⟩ := Int.eq_ofNat_of_zero_le ((nonneg.trans starts).trans ordered)
  rw [isFirst] at starts ⊢
  have fromFirst : Below 63 (Float.ofInt first) (Float.ofInt lesser) :=
    below_ofInt (by omega) (by omega) (by decide)
  have onward : Below 63 (Float.ofInt lesser) (Float.ofInt greater) :=
    below_ofInt (by omega) (by omega) (by decide)
  exact fromFirst.sub onward (by decide)

theorem IsTimed.elapsed_le
    (timed : range.IsTimed)
    (starts : range.firstFrame ≤ lesser)
    (ordered : lesser ≤ greater)
    (bounded : greater ≤ greatest) :
    AtMost (range.elapsed lesser) (range.elapsed greater) := by
  have frames := below_difference timed.firstFrame_nonneg starts ordered bounded
  have scaled : Below (63 + 30) _ _ :=
    frames.mul_left magnitude_second (by norm_num) (by norm_num) (by decide)
  exact scaled.div timed.rate_pos

theorem IsTimed.instant_le
    (timed : range.IsTimed)
    (starts : range.firstFrame ≤ lesser)
    (ordered : lesser ≤ greater)
    (bounded : greater ≤ greatest) :
    AtMost (range.instant lesser) (range.instant greater) := by
  obtain ⟨_, isMagnitude⟩ := timed.exists_magnitude
  exact (timed.elapsed_le starts ordered bounded).add_left isMagnitude

theorem IsTimed.base_le_instant
    (timed : range.IsTimed)
    (starts : range.firstFrame ≤ frame)
    (bounded : frame ≤ greatest) :
    AtMost range.base (range.instant frame) := by
  obtain ⟨_, isMagnitude⟩ := timed.exists_magnitude
  obtain ⟨_, isElapsed⟩ :=
    (timed.elapsed_le starts (Int.le_refl frame) bounded).exists_magnitude
  exact atMost_add isMagnitude isElapsed

/-- The end of a range is one frame behind its last one, also as doubles. -/
theorem IsTimed.instant_le_finish
    (timed : range.IsTimed)
    (starts : range.firstFrame ≤ range.lastFrame)
    (bounded : range.lastFrame ≤ greatest) :
    AtMost (range.instant range.lastFrame) range.finish := by
  obtain ⟨_, isMagnitude⟩ := timed.exists_magnitude
  have frames := below_difference timed.firstFrame_nonneg starts (Int.le_refl range.lastFrame)
    bounded
  have oneMore : Below (63 + 1) _ _ :=
    frames.add_right magnitude_one (by norm_num) (by norm_num) (by decide)
  have scaled : Below (64 + 30) _ _ :=
    oneMore.mul_left magnitude_second (by norm_num) (by norm_num) (by decide)
  unfold finish
  rw [mul_swap (_ + 1.0) second]
  exact (scaled.div timed.rate_pos).add_left isMagnitude

theorem IsTimed.base_le_finish
    (timed : range.IsTimed)
    (starts : range.firstFrame ≤ range.lastFrame)
    (bounded : range.lastFrame ≤ greatest) :
    AtMost range.base range.finish :=
  (timed.base_le_instant starts bounded).trans (timed.instant_le_finish starts bounded)

end Within

end Range

namespace FrameRanges

/-! ## From range to range -/

/-- Whether each range stands in time where the one before it ends. -/
def ArePlaced : (base : Float) → List Range → Prop
  | _, [] => True
  | base, range :: rest => range.base = base ∧ ArePlaced range.finish rest

theorem arePlaced_place (base : Float) (ranges : List Range) :
    ArePlaced base (place base ranges) := by
  induction ranges generalizing base with
  | nil => trivial
  | cons range rest inductionHypothesis => exact ⟨rfl, inductionHypothesis _⟩

/-- Whether ranges of positive rates stand one behind the other from a frame on,
and the frame at a place that doubles can tell. -/
structure AreTimed (free : Int) (base : Float) (ranges : List Range) : Prop where
  free_nonneg : 0 ≤ free
  exists_magnitude : ∃ magnitude, Magnitude base magnitude
  tiles : Tiles free ranges
  arePlaced : ArePlaced base ranges
  rate_pos : ∀ range ∈ ranges, IsPositive range.rate

/-- The instant of a frame in the range that is found for it. -/
def instantIn (ranges : List Range) (last : Range) (frame : Int) : Float :=
  ((ranges.find? (frame ≤ ·.lastFrame)).getD last).instant frame

section Across

variable {free frame lesser greater : Int} {base : Float}
variable {range last : Range} {ranges : List Range}

theorem instantIn_of_le (within : frame ≤ range.lastFrame) :
    instantIn (range :: ranges) last frame = range.instant frame := by
  unfold instantIn
  rw [List.find?_cons_of_pos (by simpa using within), Option.getD_some]

theorem instantIn_of_lt (beyond : range.lastFrame < frame) :
    instantIn (range :: ranges) last frame = instantIn ranges last frame := by
  unfold instantIn
  rw [List.find?_cons_of_neg (by simpa using beyond)]

theorem AreTimed.head (timed : AreTimed free base (range :: ranges)) : range.IsTimed := by
  obtain ⟨nonneg, isMagnitude, ⟨rfl, -, -⟩, ⟨rfl, -⟩, positive⟩ := timed
  exact ⟨nonneg, positive range List.mem_cons_self, isMagnitude⟩

theorem AreTimed.firstFrame_le (timed : AreTimed free base (range :: ranges)) :
    range.firstFrame ≤ range.lastFrame :=
  Int.le_trans (Int.le_of_eq timed.tiles.1) timed.tiles.2.1

theorem AreTimed.tail
    (timed : AreTimed free base (range :: ranges))
    (inside : range.lastFrame < greatest) :
    AreTimed (range.lastFrame + 1) range.finish ranges := by
  have nonneg := timed.head.firstFrame_nonneg
  have starts := timed.firstFrame_le
  have next : clamped (range.lastFrame + 1) = range.lastFrame + 1 :=
    clamped_eq_self (by omega) inside
  constructor
  case free_nonneg => omega
  case exists_magnitude =>
    exact (timed.head.base_le_finish starts (Int.le_of_lt inside)).exists_magnitude
  case tiles => exact next ▸ timed.tiles.2.2
  case arePlaced => exact timed.arePlaced.2
  case rate_pos => exact fun other member => timed.rate_pos other (List.mem_cons_of_mem _ member)

/-- No frame is placed before the range that the frames start with. -/
theorem AreTimed.base_le_instantIn
    (timed : AreTimed free base (ranges ++ [last]))
    (behind : free ≤ frame)
    (bounded : frame ≤ greatest) :
    AtMost base (instantIn ranges last frame) := by
  induction ranges generalizing free base with
  | nil =>
      obtain ⟨rfl, -⟩ := timed.tiles
      obtain ⟨rfl, -⟩ := timed.arePlaced
      exact timed.head.base_le_instant behind bounded
  | cons range rest inductionHypothesis =>
      obtain ⟨rfl, -⟩ := timed.tiles
      obtain ⟨rfl, -⟩ := timed.arePlaced
      obtain within | beyond := le_or_gt frame range.lastFrame
      · rw [instantIn_of_le within]
        exact timed.head.base_le_instant behind bounded
      · have inside : range.lastFrame < greatest := Int.lt_of_lt_of_le beyond bounded
        rw [instantIn_of_lt beyond]
        exact (timed.head.base_le_finish timed.firstFrame_le (Int.le_of_lt inside)).trans
          (inductionHypothesis (timed.tail inside) beyond)

/-- A later frame of the same range is placed behind, and one of a later range is
placed behind the end of the range. -/
theorem AreTimed.instantIn_le
    (timed : AreTimed free base (ranges ++ [last]))
    (behind : free ≤ lesser)
    (ordered : lesser ≤ greater)
    (bounded : greater ≤ greatest) :
    AtMost (instantIn ranges last lesser) (instantIn ranges last greater) := by
  induction ranges generalizing free base with
  | nil =>
      obtain ⟨rfl, -⟩ := timed.tiles
      exact timed.head.instant_le behind ordered bounded
  | cons range rest inductionHypothesis =>
      obtain ⟨rfl, -⟩ := timed.tiles
      obtain within | beyond := le_or_gt greater range.lastFrame
      · rw [instantIn_of_le (Int.le_trans ordered within), instantIn_of_le within]
        exact timed.head.instant_le behind ordered bounded
      · have inside : range.lastFrame < greatest := Int.lt_of_lt_of_le beyond bounded
        have ends := Int.le_of_lt inside
        rw [instantIn_of_lt beyond]
        obtain within | outside := le_or_gt lesser range.lastFrame
        · rw [instantIn_of_le within]
          have toLast := timed.head.instant_le behind within ends
          have toEnd := timed.head.instant_le_finish timed.firstFrame_le ends
          exact (toLast.trans toEnd).trans ((timed.tail inside).base_le_instantIn beyond bounded)
        · rw [instantIn_of_lt outside]
          exact inductionHypothesis (timed.tail inside) outside

end Across

/-! ## Along the frames -/

/-- Whether a later frame never has an earlier timecode. -/
def KeepsOrder (schedule : FrameRanges) : Prop :=
  ∀ lesser greater, 0 ≤ lesser → lesser ≤ greater → greater ≤ greatest →
    schedule.timecodeAt lesser ≤ schedule.timecodeAt greater

theorem keepsOrder_arrange
    {defaultRate : Float}
    {written : List Range}
    (forward : ∀ range ∈ written, range.IsForward)
    (positive : ∀ range ∈ (arrange defaultRate written).toList, IsPositive range.rate) :
    (arrange defaultRate written).KeepsOrder := by
  have placed : ArePlaced 0.0 (arrange defaultRate written).toList := by
    rw [toList_arrange]
    exact arePlaced_place _ _
  have timed : AreTimed 0 0.0 (arrange defaultRate written).toList :=
    ⟨Int.le_refl 0, ⟨_, magnitude_zero⟩, tiles_arrange forward, placed, positive⟩
  intro lesser greater nonneg ordered bounded
  exact (timed.instantIn_le nonneg ordered bounded).ofFloat_le

end FrameRanges

/-- Whether timecodes never decrease from frame to frame, and each frame lasts for
a time that is not negative. -/
structure RunsForward (pulls : List Pull) : Prop where
  ascending : pulls.Pairwise (·.timecode ≤ ·.timecode)
  duration_nonneg : ∀ pull ∈ pulls, ∃ duration, pull.duration = some duration ∧ 0 ≤ duration

namespace FrameRanges

section Pulls

variable {schedule : FrameRanges}

theorem clamped_next_le {frame : Int} (nonneg : 0 ≤ frame) (bounded : frame ≤ greatest) :
    frame ≤ clamped (frame + 1) ∧ clamped (frame + 1) ≤ greatest := by
  simp only [clamped, least, greatest] at *
  omega

theorem KeepsOrder.timecodeAt_le_next
    (keepsOrder : schedule.KeepsOrder)
    (nonneg : 0 ≤ schedule.frame)
    (bounded : schedule.frame ≤ greatest) :
    schedule.timecodeAt schedule.frame
      ≤ schedule.timecodeAt (clamped (schedule.frame + 1)) := by
  obtain ⟨onward, inside⟩ := clamped_next_le nonneg bounded
  exact keepsOrder _ _ nonneg onward inside

theorem timecodeAt_le_of_mem_pulls
    (keepsOrder : schedule.KeepsOrder)
    (nonneg : 0 ≤ schedule.frame)
    (bounded : schedule.frame ≤ greatest)
    (callerDurations : List (Option Int)) :
    ∀ pull ∈ pulls (.frameRanges schedule) callerDurations,
      schedule.timecodeAt schedule.frame ≤ pull.timecode := by
  induction callerDurations generalizing schedule with
  | nil => exact fun pull member => nomatch member
  | cons callerDuration rest inductionHypothesis =>
      obtain ⟨onward, inside⟩ := clamped_next_le nonneg bounded
      intro pull member
      rw [pulls_cons] at member
      obtain rfl | member := List.mem_cons.1 member
      · exact Int.le_refl _
      · exact Int.le_trans (keepsOrder.timecodeAt_le_next nonneg bounded)
          (@inductionHypothesis (schedule.next false).2 keepsOrder (Int.le_trans nonneg onward) inside
            pull member)

theorem runsForward_pulls
    (keepsOrder : schedule.KeepsOrder)
    (nonneg : 0 ≤ schedule.frame)
    (bounded : schedule.frame ≤ greatest)
    (callerDurations : List (Option Int)) :
    RunsForward (pulls (.frameRanges schedule) callerDurations) := by
  induction callerDurations generalizing schedule with
  | nil => exact ⟨List.Pairwise.nil, fun pull member => nomatch member⟩
  | cons callerDuration rest inductionHypothesis =>
      obtain ⟨onward, inside⟩ := clamped_next_le nonneg bounded
      have next := keepsOrder.timecodeAt_le_next nonneg bounded
      have nonnegNext := Int.le_trans nonneg onward
      have later := @inductionHypothesis (schedule.next false).2 keepsOrder nonnegNext inside
      rw [pulls_cons]
      constructor
      case ascending =>
        refine List.pairwise_cons.2 ⟨fun pull member => ?_, later.ascending⟩
        have isLater : schedule.timecodeAt (clamped (schedule.frame + 1)) ≤ pull.timecode :=
          @timecodeAt_le_of_mem_pulls (schedule.next false).2 keepsOrder nonnegNext inside rest pull member
        exact Int.le_trans next isLater
      case duration_nonneg =>
        intro pull member
        obtain rfl | member := List.mem_cons.1 member
        · refine ⟨_, rfl, ?_⟩
          have nonnegDuration : clamped 0 ≤ clamped (_ - _) :=
            clamped_mono (Int.sub_nonneg_of_le next)
          exact nonnegDuration
        · exact later.duration_nonneg pull member

end Pulls

/-! ## Rates of files -/

section Written

variable {defaultRate : Float} {written : List Range}

theorem rate_of_mem_tile
    {free : Int}
    {tiled : Range}
    (member : tiled ∈ (tile defaultRate free written).1) :
    tiled.rate = defaultRate ∨ ∃ range ∈ written, tiled.rate = range.rate := by
  induction written generalizing free with
  | nil => cases member
  | cons range rest inductionHypothesis =>
      have later {free : Int} (isLater : tiled ∈ (tile defaultRate free rest).1) :
          tiled.rate = defaultRate ∨ ∃ other ∈ range :: rest, tiled.rate = other.rate := by
        refine (inductionHypothesis isLater).imp_right fun ⟨other, isWritten, same⟩ => ?_
        exact ⟨other, List.mem_cons_of_mem _ isWritten, same⟩
      rw [tile] at member
      split at member
      next => exact later member
      next =>
        obtain isGap | member := List.mem_append.1 member
        · split at isGap
          · obtain rfl := List.mem_singleton.1 isGap
            exact .inl rfl
          · cases isGap
        · obtain rfl | member := List.mem_cons.1 member
          · exact .inr ⟨range, List.mem_cons_self, rfl⟩
          · exact later member

/-- No range runs at a rate that is not written. -/
theorem rate_of_mem_arrange
    {placed : Range}
    (member : placed ∈ (arrange defaultRate written).toList) :
    placed.rate = defaultRate ∨ ∃ range ∈ written, placed.rate = range.rate := by
  rw [toList_arrange] at member
  obtain ⟨tiled, isTiled, base, rfl⟩ := exists_of_mem_place member
  obtain isTile | isClosing := List.mem_append.1 isTiled
  · obtain isDefault | ⟨range, isSorted, same⟩ := rate_of_mem_tile isTile
    · exact .inl isDefault
    · exact .inr ⟨range, mem_sorted.1 isSorted, same⟩
  · obtain rfl := List.mem_singleton.1 isClosing
    exact .inl rfl

end Written

end FrameRanges

theorem isPositive_rate_ofDataLines
    {lines : Lines}
    {rate : Float}
    {dataLines : List NumberedLine}
    {range : Range}
    (isFile : IsFile lines rate dataLines)
    (member : range ∈ (ofDataLines rate dataLines).toList)
    (isNumber : range.rate.isNaN = false) :
    IsPositive range.rate := by
  obtain ⟨_, _, -, -, ⟨_, readsRate, -⟩, -⟩ := isFile
  obtain isDefault | ⟨written, isWritten, same⟩ := FrameRanges.rate_of_mem_arrange member
  · rw [isDefault]
    exact isPositive_iff.2 (readDefaultRate_pos readsRate)
  · have consistent := (Range.of_mem_entriesOf isWritten).1
    simp only [Range.isInconsistent, Bool.or_eq_false_iff, decide_eq_false_iff_not] at consistent
    rw [← same] at consistent
    exact isPositive_of_not_le isNumber consistent.1.1.1

/-- A schedule of frame ranges read from a file never runs backwards if all of its
rates are numbers; all of them are then positive. -/
theorem runsForward_ofBytes
    (name : String)
    (bytes : Bytes)
    (schedule : FrameRanges)
    (warnings : List Warning)
    (loaded : ofBytes name bytes = (.ok (.frameRanges schedule), warnings))
    (areNumbers : ∀ range ∈ schedule.toList, range.rate.isNaN = false) :
    (∀ range ∈ schedule.toList, 0.0 < range.rate)
      ∧ ∀ callerDurations, RunsForward (pulls (.frameRanges schedule) callerDurations) := by
  obtain ⟨rate, dataLines, isFile, rfl⟩ := isFile_of_ofBytes loaded
  have positive : ∀ range ∈ (ofDataLines rate dataLines).toList, IsPositive range.rate :=
    fun range member => isPositive_rate_ofDataLines isFile member (areNumbers range member)
  have forward : ∀ range ∈ entriesOf Range.read dataLines, range.IsForward := by
    intro range member
    obtain ⟨consistent, bounded⟩ := Range.of_mem_entriesOf member
    exact Range.isForward_of_isInconsistent consistent bounded
  refine ⟨fun range member => isPositive_iff.1 (positive range member), ?_⟩
  have bounded : (0 : Int) ≤ greatest := by decide
  exact FrameRanges.runsForward_pulls (FrameRanges.keepsOrder_arrange forward positive)
    (Int.le_refl 0) bounded

/-- A file with a rate that is not a number, for frames that an earlier range has. -/
def coveredRateText : Bytes :=
  "# timecode format v1\nAssume 25\n0,3,50\n1,2,nan\n6,6,12.5\n".toUTF8.toList

def coveredRateLines : List NumberedLine :=
  [⟨3, "0,3,50".toList⟩, ⟨4, "1,2,nan".toList⟩, ⟨5, "6,6,12.5".toList⟩]

theorem isFile_coveredRateText :
    IsFile (.ofBytes "x.txt" coveredRateText) 25.0 coveredRateLines := by
  refine ⟨⟨1, "# timecode format v1".toList⟩, ⟨"x.txt", coveredRateText.drop 21, 1⟩, ?_, ?_,
    ⟨⟨"x.txt", coveredRateText.drop 31, 2⟩, ?_, ?_⟩, ?_⟩
  all_goals decide +kernel

theorem runsForward_ofBytes_coveredRateText :
    ofBytes "x.txt" coveredRateText
        = (.ok (.frameRanges (ofDataLines 25.0 coveredRateLines)),
            warningsOf Range.read coveredRateLines)
      ∧ (∀ range ∈ (ofDataLines 25.0 coveredRateLines).toList, range.rate.isNaN = false)
      ∧ (∀ range ∈ (ofDataLines 25.0 coveredRateLines).toList, 0.0 < range.rate)
      ∧ ∀ callerDurations,
          RunsForward (pulls (.frameRanges (ofDataLines 25.0 coveredRateLines)) callerDurations) := by
  have loaded := ofBytes_of_isFile isFile_coveredRateText
  have areNumbers : ∀ range ∈ (ofDataLines 25.0 coveredRateLines).toList,
      range.rate.isNaN = false := by
    unfold ofDataLines
    rw [FrameRanges.toList_arrange, FrameRanges.sorted_eq_self (by decide +kernel)]
    decide +kernel
  exact ⟨loaded, areNumbers, runsForward_ofBytes _ _ _ _ loaded areNumbers⟩

/-- A file with a rate that is not a number, for frames of its own. -/
def badRateText : Bytes :=
  "# timecode format v1\nAssume 25\n0,1,25\n2,3,nan\n".toUTF8.toList

def badRateLines : List NumberedLine := [⟨3, "0,1,25".toList⟩, ⟨4, "2,3,nan".toList⟩]

theorem isFile_badRateText : IsFile (.ofBytes "x.txt" badRateText) 25.0 badRateLines := by
  refine ⟨⟨1, "# timecode format v1".toList⟩, ⟨"x.txt", badRateText.drop 21, 1⟩, ?_, ?_,
    ⟨⟨"x.txt", badRateText.drop 31, 2⟩, ?_, ?_⟩, ?_⟩
  all_goals decide +kernel

theorem timing_badRateText :
    (pulls (.frameRanges (ofDataLines 25.0 badRateLines)) (List.replicate 4 none)).map
        (fun pull => (pull.timecode, pull.duration))
      = [(0, some 40000000), (40000000, some (-40000000)), (0, some 0), (0, some 0)] := by
  unfold ofDataLines FrameRanges.arrange
  rw [FrameRanges.sorted_eq_self (by decide +kernel)]
  decide +kernel

/-- The frames from the bad rate on are all at the start. -/
theorem not_runsForward_badRateText :
    ofBytes "x.txt" badRateText = (.ok (.frameRanges (ofDataLines 25.0 badRateLines)), [])
      ∧ (∃ range ∈ (ofDataLines 25.0 badRateLines).toList, ¬ 0.0 < range.rate)
      ∧ ¬ RunsForward (pulls (.frameRanges (ofDataLines 25.0 badRateLines))
          (List.replicate 4 none)) := by
  refine ⟨?_, ?_, fun forward => ?_⟩
  · have noWarnings : warningsOf Range.read badRateLines = [] := by decide +kernel
    rw [ofBytes_of_isFile isFile_badRateText, noWarnings]
  · unfold ofDataLines
    rw [FrameRanges.toList_arrange, FrameRanges.sorted_eq_self (by decide +kernel)]
    decide +kernel
  · have ascending : ((pulls (.frameRanges (ofDataLines 25.0 badRateLines))
          (List.replicate 4 none)).map fun pull => (pull.timecode, pull.duration)).Pairwise
        fun earlier later => earlier.1 ≤ later.1 := List.pairwise_map.2 forward.ascending
    rw [timing_badRateText] at ascending
    exact absurd ascending (by decide)

end MediaSplit.Schedule

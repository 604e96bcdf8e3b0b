import MediaSplit.Proofs.Schedule.Requests
import MediaSplit.Proofs.Schedule.Spacing

/-!
Contract: what a schedule of timestamps answers, request after request.

Owns:
- `Timestamps.instant` and `Timestamps.span`, where a frame stands and how long
  it lasts, in terms of the sorted timestamps and their spacing;
- `Timestamps.Answers`, which the answers of every schedule are as long as no sum
  or product on the way leaves the signed 64-bit range.

Behind the last timestamp a frame stands so many spacings behind it. The product
is clamped by itself, so the instant alone being in range is not enough.
-/

set_option autoImplicit false

namespace MediaSplit.Schedule

/-- Whether a number is a signed 64-bit integer. -/
def Fits (value : Int) : Prop := least ≤ value ∧ value ≤ greatest

instance decidableFits (value : Int) : Decidable (Fits value) :=
  inferInstanceAs (Decidable (least ≤ value ∧ value ≤ greatest))

theorem Fits.clamped_eq {value : Int} (fits : Fits value) : clamped value = value := by
  obtain ⟨atLeast, atMost⟩ := fits
  simp only [clamped, least, greatest] at atLeast atMost ⊢
  omega

namespace Timestamps

/-- Differences of neighbours, which are not clamped. -/
def steps (sorted : List Int) : List Int :=
  (sorted.zip sorted.tail).map fun (earlier, later) => later - earlier

/-- How far behind the last timestamp a frame stands. -/
def beyond (sorted : List Int) (spacing : Int) (index : Nat) : Int :=
  (index - sorted.length + 1) * spacing

/-- Where a frame stands. -/
def instant (sorted : List Int) (spacing : Int) (index : Nat) : Int :=
  if listed : index < sorted.length then sorted[index]
  else
    match sorted.getLast? with
    | some last => last + beyond sorted spacing index
    | none => 0

/-- How long a frame lasts. -/
def span (sorted : List Int) (spacing : Int) (index : Nat) : Int :=
  if followed : index + 1 < sorted.length then sorted[index + 1] - sorted[index] else spacing

/-- Answers to requests, in terms of the sorted timestamps and their spacing. -/
structure Answers
    (sorted : List Int)
    (spacing : Int)
    (requests : List Request)
    (given : List Answer) : Prop where
  length : given.length = requests.length
  timing : ∀ place answer, given[place]? = some answer →
    answer.pull.timecode = instant sorted spacing (passedBy (requests.take place))
      ∧ answer.pull.duration = some (span sorted spacing (passedBy (requests.take place)))
  duration_nonneg : ∀ answer ∈ given, ∃ duration, answer.pull.duration = some duration
    ∧ 0 ≤ duration
  /-- Each frame starts where the one before it ends. -/
  follows : ∀ earlier later before behind,
    given[earlier]? = some before → given[later]? = some behind →
      passedBy (requests.take later) = passedBy (requests.take earlier) + 1 →
        ∃ duration, before.pull.duration = some duration
          ∧ behind.pull.timecode = before.pull.timecode + duration
  /-- The first request for a frame without a timestamp is remarked upon. -/
  warnings : ∀ place answer, given[place]? = some answer →
    answer.warnings =
      if sorted.length ≤ passedBy (requests.take place)
          ∧ ∀ earlier < place, passedBy (requests.take earlier) < sorted.length
        then [overrunWarning] else []
  warnings_le : (given.flatMap (·.warnings)).length ≤ 1

section Line

variable {sorted : List Int} {spacing : Int}

theorem mem_steps {index : Nat} (followed : index + 1 < sorted.length) :
    sorted[index + 1] - sorted[index] ∈ steps sorted := by
  have listed : index < (steps sorted).length := by
    simp only [steps, List.length_map, List.length_zip, List.length_tail]
    omega
  have isStep : (steps sorted)[index] = sorted[index + 1] - sorted[index] := by
    simp only [steps, List.getElem_map, List.getElem_zip, List.getElem_tail]
  exact isStep ▸ List.getElem_mem listed

theorem exists_of_mem_steps {step : Int} (member : step ∈ steps sorted) :
    ∃ (index : Nat) (followed : index + 1 < sorted.length),
      step = sorted[index + 1] - sorted[index] := by
  obtain ⟨index, listed, rfl⟩ := List.getElem_of_mem member
  simp only [steps, List.length_map, List.length_zip, List.length_tail] at listed
  refine ⟨index, by omega, ?_⟩
  simp only [steps, List.getElem_map, List.getElem_zip, List.getElem_tail]

theorem getElem_le_getElem_succ
    (ascending : sorted.Pairwise (· ≤ ·))
    {index : Nat}
    (followed : index + 1 < sorted.length) :
    sorted[index] ≤ sorted[index + 1] :=
  List.pairwise_iff_getElem.1 ascending _ _ _ _ (Nat.lt_succ_self index)

theorem IsMostFrequent.nonneg
    (isSpacing : IsMostFrequent (steps sorted) spacing)
    (ascending : sorted.Pairwise (· ≤ ·)) :
    0 ≤ spacing := by
  obtain ⟨-, rfl⟩ | ⟨member, -⟩ := isSpacing
  · exact Int.le_refl 0
  · obtain ⟨index, followed, rfl⟩ := exists_of_mem_steps member
    exact Int.sub_nonneg_of_le (getElem_le_getElem_succ ascending followed)

theorem span_nonneg
    (isSpacing : IsMostFrequent (steps sorted) spacing)
    (ascending : sorted.Pairwise (· ≤ ·))
    (index : Nat) :
    0 ≤ span sorted spacing index := by
  unfold span
  split
  next followed => exact Int.sub_nonneg_of_le (getElem_le_getElem_succ ascending followed)
  next => exact isSpacing.nonneg ascending

theorem instant_succ (isSpacing : IsMostFrequent (steps sorted) spacing) (index : Nat) :
    instant sorted spacing (index + 1)
      = instant sorted spacing index + span sorted spacing index := by
  unfold instant span
  by_cases followed : index + 1 < sorted.length
  · have listed : index < sorted.length := by omega
    rw [dif_pos followed, dif_pos listed, dif_pos followed]
    omega
  · rw [dif_neg followed, dif_neg followed]
    cases last : sorted.getLast? with
    | none =>
        obtain rfl := List.getLast?_eq_none_iff.1 last
        obtain ⟨-, rfl⟩ | ⟨member, -⟩ := isSpacing
        · rfl
        · cases member
    | some last =>
        by_cases listed : index < sorted.length
        · -- The step from the last timestamp to the first frame behind it.
          have isLast : index = sorted.length - 1 := by omega
          subst isLast
          rw [List.getLast?_eq_getElem?, List.getElem?_eq_getElem listed] at last
          obtain rfl := Option.some.inj last
          have once : beyond sorted spacing (sorted.length - 1 + 1) = spacing := by
            unfold beyond
            rw [Nat.sub_add_cancel (Nat.one_le_of_lt listed), Int.sub_self, Int.zero_add,
              Int.one_mul]
          rw [dif_pos listed]
          dsimp only
          rw [once]
        · have more : beyond sorted spacing (index + 1) = beyond sorted spacing index + spacing := by
            have next : ((index + 1 : Nat) : Int) - sorted.length + 1
                = (index - sorted.length + 1) + 1 := by omega
            unfold beyond
            rw [next, Int.add_mul, Int.one_mul]
          rw [dif_neg listed]
          dsimp only
          rw [more]
          omega

end Line

/-! ## The schedule of some timestamps -/

/-- A schedule of sorted timestamps at some frame. -/
def ofSorted (sorted : List Int) (spacing : Int) (frame : Nat) (hasWarned : Bool) : Timestamps :=
  ⟨sorted.toArray, spacing, frame, hasWarned⟩

section Schedules

variable {timecodes sorted : List Int} {spacing : Int}

theorem ofTimecodes_eq
    (perm : sorted.Perm timecodes)
    (ascending : sorted.Pairwise (· ≤ ·))
    (stepsFit : ∀ step ∈ steps sorted, Fits step)
    (isSpacing : IsMostFrequent (steps sorted) spacing) :
    ofTimecodes timecodes = ofSorted sorted spacing 0 false := by
  have sameList : timecodes.mergeSort (fun left right => left ≤ right) = sorted := by
    apply List.Perm.eq_of_pairwise (fun _ _ _ _ => Int.le_antisymm)
      (ascending_mergeSort timecodes) ascending
    exact (List.mergeSort_perm timecodes _).trans perm.symm
  have sameSteps : differences sorted = steps sorted := by
    unfold differences steps
    apply List.map_congr_left
    intro pair member
    exact (stepsFit _ (List.mem_map_of_mem member)).clamped_eq
  unfold ofTimecodes ofSorted
  dsimp only
  rw [sameList, sameSteps, (isMostFrequent_mostFrequent _).unique isSpacing]

theorem extrapolated_ofSorted
    {frame index : Nat}
    {hasWarned : Bool}
    (isSpacing : IsMostFrequent (steps sorted) spacing)
    (behind : sorted.length ≤ index)
    (beyondFits : Fits (beyond sorted spacing index))
    (instantFits : Fits (instant sorted spacing index)) :
    (ofSorted sorted spacing frame hasWarned).extrapolated index
      = instant sorted spacing index := by
  show clamped ((sorted.toArray.back?.getD 0)
    + clamped (((index + 1 - max sorted.toArray.size 1 : Nat) : Int) * spacing)) = _
  rw [List.back?_toArray, List.size_toArray]
  cases isLast : sorted.getLast? with
  | none =>
      obtain rfl := List.getLast?_eq_none_iff.1 isLast
      obtain ⟨-, rfl⟩ | ⟨member, -⟩ := isSpacing
      · rw [Int.mul_zero]
        rfl
      · cases member
  | some last =>
      have instantIs : instant sorted spacing index = last + beyond sorted spacing index := by
        unfold instant
        rw [dif_neg (Nat.not_lt.2 behind), isLast]
      have nonempty := List.length_pos_of_mem (List.mem_of_getLast? isLast)
      have count : ((index + 1 - max sorted.length 1 : Nat) : Int) = index - sorted.length + 1 := by
        omega
      rw [count]
      show clamped (last + clamped (beyond sorted spacing index)) = _
      rw [beyondFits.clamped_eq, ← instantIs, instantFits.clamped_eq]

theorem timecodeAt_ofSorted
    {frame index : Nat}
    {hasWarned : Bool}
    (isSpacing : IsMostFrequent (steps sorted) spacing)
    (fits : sorted.length ≤ index →
      Fits (beyond sorted spacing index) ∧ Fits (instant sorted spacing index)) :
    (ofSorted sorted spacing frame hasWarned).timecodeAt index = instant sorted spacing index := by
  show (sorted.toArray[index]?).getD _ = _
  rw [List.getElem?_toArray]
  by_cases listed : index < sorted.length
  · rw [List.getElem?_eq_getElem listed, Option.getD_some]
    exact (dif_pos listed).symm
  · have behind := Nat.not_lt.1 listed
    obtain ⟨beyondFits, instantFits⟩ := fits behind
    rw [List.getElem?_eq_none behind, Option.getD_none]
    exact extrapolated_ofSorted isSpacing behind beyondFits instantFits

theorem durationAt_ofSorted
    {frame index : Nat}
    {hasWarned : Bool}
    (stepsFit : ∀ step ∈ steps sorted, Fits step) :
    (ofSorted sorted spacing frame hasWarned).durationAt index = span sorted spacing index := by
  unfold durationAt span
  split
  next timecode next isHere isNext =>
    obtain ⟨listed, rfl⟩ := List.getElem?_eq_some_iff.1 (List.getElem?_toArray.symm.trans isHere)
    obtain ⟨followed, rfl⟩ := List.getElem?_eq_some_iff.1 (List.getElem?_toArray.symm.trans isNext)
    rw [dif_pos followed]
    exact (stepsFit _ (mem_steps followed)).clamped_eq
  next missing =>
    split
    next followed =>
      have listed : index < sorted.length := by omega
      have isHere : sorted.toArray[index]? = some sorted[index] := by
        rw [List.getElem?_toArray, List.getElem?_eq_getElem listed]
      have isNext : sorted.toArray[index + 1]? = some sorted[index + 1] := by
        rw [List.getElem?_toArray, List.getElem?_eq_getElem followed]
      exact (missing _ _ isHere isNext).elim
    next => rfl

end Schedules

/-! ## Request after request -/

section Requests

variable {sorted : List Int} {spacing : Int} {requests : List Request}

/-- A request changes only the frame and whether there has been a warning. -/
theorem answers_ofSorted_cons (frame : Nat) (hasWarned : Bool) (request : Request) :
    answers (.timestamps (ofSorted sorted spacing frame hasWarned)) (request :: requests)
      = ⟨⟨(ofSorted sorted spacing 0 false).timecodeAt frame,
            some ((ofSorted sorted spacing 0 false).durationAt frame), frame == 0⟩,
          if !hasWarned && decide (sorted.length ≤ frame) then [overrunWarning] else []⟩
        :: answers (.timestamps (ofSorted sorted spacing
            (frame + if request.peekOnly then 0 else 1)
            (hasWarned || decide (sorted.length ≤ frame)))) requests := by
  rw [answers_cons]
  dsimp only [Schedule.next]
  rw [Timestamps.next_eq]
  rfl

theorem pull_of_getElem?_answers
    {frame place : Nat}
    {hasWarned : Bool}
    {answer : Answer}
    (given : (answers (.timestamps (ofSorted sorted spacing frame hasWarned)) requests)[place]?
      = some answer) :
    answer.pull.timecode
        = (ofSorted sorted spacing 0 false).timecodeAt (frame + passedBy (requests.take place))
      ∧ answer.pull.duration
        = some ((ofSorted sorted spacing 0 false).durationAt
            (frame + passedBy (requests.take place))) := by
  induction requests generalizing frame hasWarned place with
  | nil => cases given
  | cons request rest inductionHypothesis =>
      rw [answers_ofSorted_cons] at given
      cases place with
      | zero =>
          obtain rfl := Option.some.inj given
          exact ⟨rfl, rfl⟩
      | succ place =>
          rw [List.take_succ_cons, passedBy_cons, ← Nat.add_assoc]
          exact inductionHypothesis given

/-- A schedule that has not warned does so at the first request that finds no
timestamp. -/
theorem warnings_of_getElem?_answers
    {frame place : Nat}
    {hasWarned : Bool}
    {answer : Answer}
    (given : (answers (.timestamps (ofSorted sorted spacing frame hasWarned)) requests)[place]?
      = some answer) :
    answer.warnings
      = if hasWarned = false ∧ sorted.length ≤ frame + passedBy (requests.take place)
          ∧ ∀ earlier < place, frame + passedBy (requests.take earlier) < sorted.length
        then [overrunWarning] else [] := by
  induction requests generalizing frame hasWarned place with
  | nil => cases given
  | cons request rest inductionHypothesis =>
      rw [answers_ofSorted_cons] at given
      cases place with
      | zero =>
          obtain rfl := Option.some.inj given
          refine ite_congr (propext ?_) (fun _ => rfl) (fun _ => rfl)
          show (!hasWarned && decide (sorted.length ≤ frame)) = true ↔ _
          simp [passedBy]
      | succ place =>
          rw [inductionHypothesis given]
          refine ite_congr (propext ?_) (fun _ => rfl) (fun _ => rfl)
          have shifted (place : Nat) : frame + passedBy ((request :: rest).take (place + 1))
              = frame + (if request.peekOnly then 0 else 1) + passedBy (rest.take place) := by
            rw [List.take_succ_cons, passedBy_cons, Nat.add_assoc]
          rw [Nat.forall_lt_succ_left, Bool.or_eq_false_iff, decide_eq_false_iff_not, Nat.not_le,
            shifted]
          simp only [shifted]
          show _ ↔ _ ∧ _ ∧ frame < sorted.length ∧ _
          exact ⟨fun ⟨⟨fresh, listed⟩, behind, before⟩ => ⟨fresh, behind, listed, before⟩,
            fun ⟨fresh, behind, listed, before⟩ => ⟨⟨fresh, listed⟩, behind, before⟩⟩

theorem length_warnings_answers
    (requests : List Request)
    (frame : Nat)
    (hasWarned : Bool) :
    ((answers (.timestamps (ofSorted sorted spacing frame hasWarned)) requests).flatMap
      (·.warnings)).length ≤ if hasWarned then 0 else 1 := by
  induction requests generalizing frame hasWarned with
  | nil => exact Nat.zero_le _
  | cons request rest inductionHypothesis =>
      have more := inductionHypothesis (frame + if request.peekOnly then 0 else 1)
        (hasWarned || decide (sorted.length ≤ frame))
      rw [answers_ofSorted_cons, List.flatMap_cons, List.length_append]
      dsimp only
      cases hasWarned with
      | true => simpa using more
      | false =>
          by_cases behind : sorted.length ≤ frame
          · rw [decide_eq_true behind] at more ⊢
            exact Nat.add_le_add_left more 1
          · rw [decide_eq_false behind] at more ⊢
            exact Nat.le_trans (Nat.le_of_eq (Nat.zero_add _)) more

/-- The answers of a schedule of timestamps in any order. -/
theorem answers_ofTimecodes
    {timecodes : List Int}
    (perm : sorted.Perm timecodes)
    (ascending : sorted.Pairwise (· ≤ ·))
    (isSpacing : IsMostFrequent (steps sorted) spacing)
    (stepsFit : ∀ step ∈ steps sorted, Fits step)
    (instantsFit : ∀ place < requests.length,
      sorted.length ≤ passedBy (requests.take place) →
        Fits (beyond sorted spacing (passedBy (requests.take place)))
          ∧ Fits (instant sorted spacing (passedBy (requests.take place)))) :
    Answers sorted spacing requests (answers (.timestamps (ofTimecodes timecodes)) requests) := by
  rw [ofTimecodes_eq perm ascending stepsFit isSpacing]
  have timing (place : Nat) (answer : Answer)
      (given : (answers (.timestamps (ofSorted sorted spacing 0 false)) requests)[place]?
        = some answer) :
      answer.pull.timecode = instant sorted spacing (passedBy (requests.take place))
        ∧ answer.pull.duration
          = some (span sorted spacing (passedBy (requests.take place))) := by
    obtain ⟨timecode, duration⟩ := pull_of_getElem?_answers given
    have within : place < requests.length := by
      rw [← length_answers]
      exact (List.getElem?_eq_some_iff.1 given).1
    rw [Nat.zero_add] at timecode duration
    rw [timecode, duration, timecodeAt_ofSorted isSpacing (instantsFit place within),
      durationAt_ofSorted stepsFit]
    exact ⟨rfl, rfl⟩
  constructor
  case length => exact length_answers _ _
  case timing => exact timing
  case duration_nonneg =>
    intro answer member
    obtain ⟨place, given⟩ := List.getElem?_of_mem member
    exact ⟨_, (timing place answer given).2, span_nonneg isSpacing ascending _⟩
  case follows =>
    intro earlier later before behind givenBefore givenBehind next
    obtain ⟨timecodeBefore, durationBefore⟩ := timing earlier before givenBefore
    refine ⟨_, durationBefore, ?_⟩
    rw [(timing later behind givenBehind).1, next, timecodeBefore, instant_succ isSpacing]
  case warnings =>
    intro place answer given
    simpa using warnings_of_getElem?_answers given
  case warnings_le => exact length_warnings_answers requests 0 false

/-- Timestamps out of order, two steps of which are equally frequent. -/
def raggedTimecodes : List Int := [70, 0, 40, 20, 100]

/-- Two looks at the first frame, and then on past the last timestamp. -/
def longRequests : List Request :=
  ⟨none, true⟩ :: ⟨none, true⟩ :: List.replicate 7 ⟨none, false⟩

theorem answers_ofTimecodes_ragged :
    Answers [0, 20, 40, 70, 100] 20 longRequests
      (answers (.timestamps (ofTimecodes raggedTimecodes)) longRequests) := by
  apply answers_ofTimecodes
  · decide
  · decide
  · exact .inr (by decide)
  · decide
  · decide

/-- Two timestamps so far apart that twice their step does not fit, though the
frame that stands so far behind the last one does. -/
def distantTimecodes : List Int := [-2 ^ 63, -2 ^ 62]

def fourPulls : List Request := List.replicate 4 ⟨none, false⟩

theorem not_answers_distantTimecodes :
    distantTimecodes.Pairwise (· ≤ ·)
      ∧ IsMostFrequent (steps distantTimecodes) (2 ^ 62)
      ∧ (∀ step ∈ steps distantTimecodes, Fits step)
      ∧ (∀ place < fourPulls.length,
          Fits (instant distantTimecodes (2 ^ 62) (passedBy (fourPulls.take place))))
      ∧ ¬ Answers distantTimecodes (2 ^ 62) fourPulls
          (answers (.timestamps (ofTimecodes distantTimecodes)) fourPulls) := by
  have ascending : distantTimecodes.Pairwise (· ≤ ·) := by decide
  have isSpacing : IsMostFrequent (steps distantTimecodes) (2 ^ 62) := .inr (by decide)
  have stepsFit : ∀ step ∈ steps distantTimecodes, Fits step := by decide
  refine ⟨ascending, isSpacing, stepsFit, by decide, fun given => ?_⟩
  rw [ofTimecodes_eq (List.Perm.refl _) ascending stepsFit isSpacing] at given
  have answered : (answers (.timestamps (ofSorted distantTimecodes (2 ^ 62) 0 false)) fourPulls)[3]?
      = some ⟨⟨2 ^ 62 - 1, some (2 ^ 62), false⟩, []⟩ := by decide
  have expected := (given.timing 3 _ answered).1
  exact absurd expected (by decide)

end Requests

end Timestamps

end MediaSplit.Schedule

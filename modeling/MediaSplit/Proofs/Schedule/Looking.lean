import MediaSplit.Proofs.Schedule.Requests

/-!
Contract: what is left of a look at the next frame.

Owns:
- `Schedule.behind`, the schedule behind some requests;
- `Schedule.forgetting`, a schedule that does not remember its remarks, which is
  all that a look changes;
- `Schedule.LooksAhead`, which holds of every schedule and any requests: a look
  tells what going on would tell, and going on tells what it would have told
  without the looks.

Does **not** own: the remarks. A look behind the last timestamp is remarked upon,
and a later request is then not.
-/

set_option autoImplicit false

namespace MediaSplit.Schedule

/-- The schedule behind some requests. -/
def behind : Schedule → List Request → Schedule
  | schedule, [] => schedule
  | schedule, request :: rest =>
      (schedule.next request.callerDuration request.peekOnly).2.2.behind rest

/-- The same schedule before any remark. -/
def forgetting : Schedule → Schedule
  | timestamps schedule => timestamps { schedule with hasWarned := false }
  | other => other

/-- The requests that go on to the frame behind. -/
def goingOn (requests : List Request) : List Request := requests.filter (!·.peekOnly)

/-- What a schedule says to the requests that go on. -/
def pullsGoingOn (schedule : Schedule) (requests : List Request) : List Pull :=
  ((requests.zip (answers schedule requests)).filter (!·.1.peekOnly)).map (·.2.pull)

/-- What a schedule says to looks and to requests that go on. -/
structure LooksAhead (schedule : Schedule) (requests : List Request) : Prop where
  /-- A look is answered like a request that goes on in its place, whatever
  follows. -/
  foretells : ∀ before callerDuration later other,
    requests = before ++ ⟨callerDuration, true⟩ :: later →
      ∃ answer,
        (answers schedule requests)[before.length]? = some answer
          ∧ (answers schedule (before ++ ⟨callerDuration, false⟩ :: other))[before.length]?
            = some answer
  /-- Requests that go on are answered as if there had been no looks. -/
  leavesNoTrace : pullsGoingOn schedule requests
    = pulls schedule ((goingOn requests).map (·.callerDuration))

variable {schedule other : Schedule} {requests : List Request}

/-! ## One request -/

/-- A look and a request that goes on are told the same. -/
theorem told_look (schedule : Schedule) (callerDuration : Option Int) :
    (schedule.next callerDuration true).1 = (schedule.next callerDuration false).1
      ∧ (schedule.next callerDuration true).2.1 = (schedule.next callerDuration false).2.1 := by
  cases schedule with
  | frameRanges schedule => exact ⟨rfl, rfl⟩
  | timestamps schedule =>
      dsimp only [next]
      rw [schedule.next_eq true, schedule.next_eq false]
      exact ⟨rfl, rfl⟩
  | durations schedule => exact ⟨rfl, rfl⟩

/-- A look changes nothing but what is remembered of remarks. -/
theorem forgetting_next_look (schedule : Schedule) (callerDuration : Option Int) :
    (schedule.next callerDuration true).2.2.forgetting = schedule.forgetting := by
  cases schedule with
  | frameRanges schedule => rfl
  | timestamps schedule =>
      dsimp only [next]
      rw [schedule.next_eq true]
      rfl
  | durations schedule => rfl

/-- What is remembered of remarks has no say in what a schedule tells of a frame. -/
theorem pull_next_forgetting (schedule : Schedule) (callerDuration : Option Int) :
    (schedule.forgetting.next callerDuration false).1
      = (schedule.next callerDuration false).1 := by
  cases schedule with
  | frameRanges schedule => rfl
  | timestamps schedule =>
      dsimp only [forgetting, next]
      rw [Timestamps.next_eq, Timestamps.next_eq]
      rfl
  | durations schedule => rfl

/-- Nor has it a say in where the schedule goes on to. -/
theorem forgetting_next_forgetting (schedule : Schedule) (callerDuration : Option Int) :
    (schedule.forgetting.next callerDuration false).2.2.forgetting
      = (schedule.next callerDuration false).2.2.forgetting := by
  cases schedule with
  | frameRanges schedule => rfl
  | timestamps schedule =>
      dsimp only [forgetting, next]
      rw [Timestamps.next_eq, Timestamps.next_eq]
  | durations schedule => rfl

/-! ## Request after request -/

theorem answers_append (schedule : Schedule) (before later : List Request) :
    answers schedule (before ++ later)
      = answers schedule before ++ answers (schedule.behind before) later := by
  induction before generalizing schedule with
  | nil => rfl
  | cons request rest inductionHypothesis =>
      rw [List.cons_append, answers_cons, answers_cons, inductionHypothesis]
      rfl

theorem getElem?_answers_append (schedule : Schedule) (before later : List Request)
    (request : Request) :
    (answers schedule (before ++ request :: later))[before.length]?
      = some ⟨((schedule.behind before).next request.callerDuration request.peekOnly).1,
          ((schedule.behind before).next request.callerDuration request.peekOnly).2.1⟩ := by
  rw [answers_append, ← length_answers schedule before, List.getElem?_append_right (Nat.le_refl _),
    Nat.sub_self, answers_cons]
  rfl

/-- Schedules that differ in their memory of remarks say the same of all frames. -/
theorem pulls_eq_of_forgetting
    (same : schedule.forgetting = other.forgetting)
    (callerDurations : List (Option Int)) :
    pulls schedule callerDurations = pulls other callerDurations := by
  induction callerDurations generalizing schedule other with
  | nil => rfl
  | cons callerDuration rest inductionHypothesis =>
      have first : (schedule.next callerDuration false).1 = (other.next callerDuration false).1 := by
        rw [← pull_next_forgetting schedule, same, pull_next_forgetting]
      have onward : (schedule.next callerDuration false).2.2.forgetting
          = (other.next callerDuration false).2.2.forgetting := by
        rw [← forgetting_next_forgetting schedule, same, forgetting_next_forgetting]
      rw [pulls_cons, pulls_cons, first, inductionHypothesis onward]

theorem pullsGoingOn_eq (schedule : Schedule) (requests : List Request) :
    pullsGoingOn schedule requests
      = pulls schedule ((goingOn requests).map (·.callerDuration)) := by
  induction requests generalizing schedule with
  | nil => rfl
  | cons request rest inductionHypothesis =>
      obtain ⟨callerDuration, peekOnly⟩ := request
      have later := inductionHypothesis (schedule.next callerDuration peekOnly).2.2
      cases peekOnly with
      | true =>
          show pullsGoingOn (schedule.next callerDuration true).2.2 rest = _
          rw [later]
          exact pulls_eq_of_forgetting (forgetting_next_look schedule callerDuration) _
      | false =>
          show (schedule.next callerDuration false).1
              :: pullsGoingOn (schedule.next callerDuration false).2.2 rest = _
          rw [later]
          rfl

/-- Looks tell what is to come and leave no trace in it, for every schedule in
every state. -/
theorem looksAhead_answers (schedule : Schedule) (requests : List Request) :
    LooksAhead schedule requests := by
  constructor
  case foretells =>
    rintro before callerDuration later other rfl
    obtain ⟨samePull, sameWarnings⟩ := told_look (schedule.behind before) callerDuration
    refine ⟨_, getElem?_answers_append _ _ _ _, ?_⟩
    rw [getElem?_answers_append, samePull, sameWarnings]
  case leavesNoTrace => exact pullsGoingOn_eq schedule requests

end MediaSplit.Schedule

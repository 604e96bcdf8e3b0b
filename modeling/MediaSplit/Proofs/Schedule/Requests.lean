import MediaSplit.Schedule

/-!
Contract: what schedules say to request after request.

Owns:
- `Schedule.pulls`, what a schedule says about frame after frame;
- `Schedule.answers`, what it says along requests some of which stay at the
  frame;
- what sums in the signed 64-bit range are.
-/

set_option autoImplicit false

namespace MediaSplit.Schedule

/-- What a schedule says about frame after frame. -/
def pulls : Schedule → List (Option Int) → List Pull
  | _, [] => []
  | schedule, callerDuration :: rest =>
      let (pull, _, after) := schedule.next callerDuration false
      pull :: pulls after rest

theorem pulls_cons (schedule : Schedule) (callerDuration : Option Int)
    (rest : List (Option Int)) :
    pulls schedule (callerDuration :: rest)
      = (schedule.next callerDuration false).1
        :: pulls (schedule.next callerDuration false).2.2 rest := rfl

/-- A request for the timing of the next frame. -/
structure Request where
  callerDuration : Option Int
  /-- Whether the schedule stays at the frame. -/
  peekOnly : Bool
  deriving DecidableEq, Repr, Inhabited

structure Answer where
  pull : Pull
  warnings : List Warning
  deriving DecidableEq, Repr, Inhabited

/-- What a schedule says to request after request. -/
def answers : Schedule → List Request → List Answer
  | _, [] => []
  | schedule, request :: rest =>
      let (pull, warnings, after) := schedule.next request.callerDuration request.peekOnly
      ⟨pull, warnings⟩ :: answers after rest

theorem answers_cons (schedule : Schedule) (request : Request) (rest : List Request) :
    answers schedule (request :: rest)
      = ⟨(schedule.next request.callerDuration request.peekOnly).1,
          (schedule.next request.callerDuration request.peekOnly).2.1⟩
        :: answers (schedule.next request.callerDuration request.peekOnly).2.2 rest := rfl

/-- How many frames requests go past. -/
def passedBy (requests : List Request) : Nat := requests.countP (!·.peekOnly)

theorem passedBy_cons (request : Request) (requests : List Request) :
    passedBy (request :: requests) = (if request.peekOnly then 0 else 1) + passedBy requests := by
  unfold passedBy
  rw [List.countP_cons]
  cases request.peekOnly <;> simp [Nat.add_comm]

theorem length_answers (schedule : Schedule) (requests : List Request) :
    (answers schedule requests).length = requests.length := by
  induction requests generalizing schedule with
  | nil => rfl
  | cons request rest inductionHypothesis => exact congrArg (· + 1) (inductionHypothesis _)

/-- What a schedule of timestamps says and where it stands then; that it has made its
remark is all that a look leaves. -/
theorem Timestamps.next_eq (schedule : Timestamps) (peekOnly : Bool) :
    schedule.next peekOnly
      = (⟨schedule.timecodeAt schedule.frame, some (schedule.durationAt schedule.frame),
            schedule.frame == 0⟩,
          if !schedule.hasWarned && decide (schedule.size ≤ schedule.frame) then
            [overrunWarning]
          else [],
          { schedule with
            frame := schedule.frame + if peekOnly then 0 else 1
            hasWarned := schedule.hasWarned || decide (schedule.size ≤ schedule.frame) }) := by
  obtain ⟨timecodes, spacing, frame, hasWarned⟩ := schedule
  unfold next remark timecodeAt durationAt size
  dsimp only
  cases isListed : timecodes[frame]? with
  | some timecode =>
      have listed : ¬ timecodes.size ≤ frame :=
        Nat.not_le.2 (Array.getElem?_eq_some_iff.1 isListed).1
      rw [decide_eq_false listed, Bool.and_false, Bool.or_false]
      cases peekOnly <;> rfl
  | none =>
      rw [decide_eq_true (Array.getElem?_eq_none_iff.1 isListed), Bool.and_true, Bool.or_true]
      cases hasWarned <;> cases peekOnly <;> rfl

/-! ## Sums in the signed 64-bit range -/

theorem clamped_mono {lesser other : Int} (ordered : lesser ≤ other) :
    clamped lesser ≤ clamped other := by
  unfold clamped
  omega

theorem clamped_add_clamped {sum amount : Int} (sumForward : 0 ≤ sum) (forward : 0 ≤ amount) :
    clamped (clamped sum + amount) = clamped (sum + amount) := by
  simp only [clamped, least, greatest]
  omega

theorem clamped_clamped (sum : Int) : clamped (clamped sum) = clamped sum := by
  simp only [clamped, least, greatest]
  omega

theorem clamped_eq_self {sum : Int} (forward : 0 ≤ sum) (fits : sum ≤ greatest) :
    clamped sum = sum := by
  simp only [clamped, least, greatest] at fits ⊢
  omega

end MediaSplit.Schedule

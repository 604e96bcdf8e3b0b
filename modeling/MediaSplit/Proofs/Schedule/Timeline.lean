import MediaSplit.Proofs.Schedule.Requests
import Mathlib.Algebra.Order.BigOperators.Group.List
import Mathlib.Algebra.Order.Ring.Int

/-!
Contract: the timeline that a schedule of durations lays out.

Owns:
- `Durations.frames`, what a schedule of durations says about frame after frame,
  with the entries that were looked at for each frame;
- `Durations.FollowsOn`, where a frame stands behind those taken before it, which
  holds of every frame of every schedule that never goes back in time.

Inside an entry the place is what its own frames have used up; between entries
it is what all written entries before it last, gaps included.
-/

set_option autoImplicit false

namespace MediaSplit.Schedule

/-- How long some entries last in a row. -/
def Span.total (spans : List Span) : Int := (spans.map Span.duration).sum

namespace Durations

/-! ## Frames and their entries -/

/-- A frame, and the entries that were looked at for it. -/
structure Frame where
  /-- The entry where the search began. -/
  first : Nat
  /-- The entry that the frame was taken from. -/
  entry : Nat
  pull : Pull

/-- How much of its entry a frame uses up. -/
def Frame.length (frame : Frame) : Int := frame.pull.duration.getD 0

def frame (schedule : Durations) (callerDuration : Option Int) : Frame :=
  ⟨schedule.index, schedule.found.index, (schedule.next callerDuration false).1⟩

def frames : Durations → List (Option Int) → List Frame
  | _, [] => []
  | schedule, callerDuration :: rest =>
      schedule.frame callerDuration :: frames (schedule.next callerDuration false).2 rest

/-- How much of an entry some frames have used up. -/
def used (taken : List Frame) (entry : Nat) : Int :=
  ((taken.filter (·.entry = entry)).map Frame.length).sum

section Used

variable {taken : List Frame} {entry : Nat}

theorem used_append (before behind : List Frame) (entry : Nat) :
    used (before ++ behind) entry = used before entry + used behind entry := by
  unfold used
  rw [List.filter_append, List.map_append, List.sum_append]

theorem used_singleton (frame : Frame) : used [frame] frame.entry = frame.length := by
  unfold used
  rw [List.filter_cons_of_pos (by simp), List.filter_nil, List.map_singleton, List.sum_singleton]

theorem used_eq_zero (absent : ∀ frame ∈ taken, frame.entry ≠ entry) : used taken entry = 0 := by
  have nothing : taken.filter (·.entry = entry) = [] :=
    List.filter_eq_nil_iff.2 fun frame member => by simpa using absent frame member
  rw [used, nothing]
  rfl

theorem used_eq_zero_of_before (before : ∀ frame ∈ taken, frame.entry < entry) :
    used taken entry = 0 :=
  used_eq_zero fun frame member => Nat.ne_of_lt (before frame member)

theorem used_nonneg (forward : ∀ frame ∈ taken, 0 ≤ frame.length) (entry : Nat) :
    0 ≤ used taken entry := by
  apply List.sum_nonneg
  intro length member
  obtain ⟨frame, isIn, rfl⟩ := List.mem_map.1 member
  exact forward frame (List.mem_of_mem_filter isIn)

end Used

/-! ## Going on by entries -/

/-- A schedule that never goes back in time by itself. -/
structure IsForward (schedule : Durations) : Prop where
  positive : ∀ span ∈ schedule.toList, 0 < span.duration
  frames : ∀ span ∈ schedule.toList, 0 ≤ (span.frameDuration none).getD 0
  closing : ∃ span, schedule.toList[schedule.toList.length - 1]? = some span
    ∧ span.duration = openEnd ∧ span.isGap = false

/-- The current entry. -/
def current (schedule : Durations) : Span := schedule.entryAt schedule.index

/-- The schedule with no gap in front of it. -/
def withoutGaps (schedule : Durations) : Durations :=
  { schedule with index := schedule.found.index, offset := schedule.found.offset }

/-- The schedule at the entry behind the current one. -/
def leave (schedule : Durations) : Durations :=
  { schedule with
    offset := clamped (schedule.offset + schedule.current.duration)
    position := 0
    index := min (schedule.index + 1) (schedule.entries.size - 1) }

/-- A schedule behind the frames in `taken` and maybe some gaps. The last frame may
have used up its entry. The open entry starts over once it is exhausted, so what its
frames have used up tells the place inside it only before that. -/
structure Reached (taken : List Frame) (schedule : Durations) : Prop where
  isForward : schedule.IsForward
  index_lt : schedule.index < schedule.toList.length
  length_nonneg : ∀ frame ∈ taken, 0 ≤ frame.length
  entry_le : ∀ frame ∈ taken, frame.entry ≤ schedule.index
  position_nonneg : 0 ≤ schedule.position
  position_le : schedule.position ≤ greatest
  not_isGap : schedule.position ≠ 0 → schedule.current.isGap = false
  position_eq : used taken (schedule.toList.length - 1) < openEnd →
    schedule.position = clamped (used taken schedule.index)
  offset_eq : (∀ frame ∈ taken, frame.entry + 1 < schedule.toList.length) →
    schedule.offset = clamped (Span.total (schedule.toList.take schedule.index))
  timecode_le : ∀ frame ∈ taken, frame.pull.timecode
    ≤ clamped (schedule.offset + min schedule.position schedule.current.duration)

/-- A schedule between two frames. -/
structure Rests (taken : List Frame) (schedule : Durations) : Prop
    extends Reached taken schedule where
  position_lt : schedule.position < schedule.current.duration

section Step

variable {schedule : Durations} {taken : List Frame} {callerDuration : Option Int}

theorem getElem?_entries (inside : schedule.index < schedule.toList.length) :
    schedule.entries[schedule.index]? = some schedule.current := by
  have within : schedule.index < schedule.entries.size := inside
  unfold current entryAt
  rw [Array.getD_eq_getD_getElem?, Array.getElem?_eq_getElem within, Option.getD_some]

theorem getElem?_index (inside : schedule.index < schedule.toList.length) :
    schedule.toList[schedule.index]? = some schedule.current :=
  Array.getElem?_toList.trans (getElem?_entries inside)

theorem IsForward.duration_pos
    (forward : schedule.IsForward)
    (inside : schedule.index < schedule.toList.length) :
    0 < schedule.current.duration :=
  forward.positive _ (List.mem_of_getElem? (getElem?_index inside))

/-- The last entry is the open one. -/
theorem IsForward.current_last
    (forward : schedule.IsForward)
    (isLast : schedule.index + 1 = schedule.toList.length) :
    schedule.current.duration = openEnd ∧ schedule.current.isGap = false := by
  obtain ⟨span, isClosing, duration, notGap⟩ := forward.closing
  have isHere : schedule.toList.length - 1 = schedule.index := by omega
  rw [isHere, getElem?_index (by omega)] at isClosing
  obtain rfl := Option.some.inj isClosing
  exact ⟨duration, notGap⟩

/-- Behind the open entry stands no other. -/
theorem index_leave (inside : schedule.index < schedule.toList.length) :
    (schedule.index + 1 = schedule.toList.length ∧ schedule.leave.index = schedule.index)
      ∨ (schedule.index + 1 < schedule.toList.length
        ∧ schedule.leave.index = schedule.index + 1) := by
  show (_ ∧ min (schedule.index + 1) (schedule.toList.length - 1) = _)
    ∨ (_ ∧ min (schedule.index + 1) (schedule.toList.length - 1) = _)
  omega

theorem total_take_index_succ (inside : schedule.index < schedule.toList.length) :
    Span.total (schedule.toList.take (schedule.index + 1))
      = Span.total (schedule.toList.take schedule.index) + schedule.current.duration := by
  unfold Span.total
  rw [List.take_add_one, getElem?_index inside, List.map_append, List.sum_append,
    Option.toList_some, List.map_singleton, List.sum_singleton]

theorem total_take_nonneg (forward : schedule.IsForward) (count : Nat) :
    0 ≤ Span.total (schedule.toList.take count) := by
  apply List.sum_nonneg
  intro duration member
  obtain ⟨span, isIn, rfl⟩ := List.mem_map.1 member
  exact Int.le_of_lt (forward.positive span (List.mem_of_mem_take isIn))

theorem index_leave_of_next (hasNext : schedule.index + 1 < schedule.toList.length) :
    schedule.leave.index = schedule.index + 1 := by
  show min (schedule.index + 1) (schedule.toList.length - 1) = _
  omega

/-- The open entry is left only once it is exhausted. -/
theorem Reached.hasNext
    (reached : Reached taken schedule)
    (passed : schedule.current.isGap = true ∨ schedule.current.duration ≤ schedule.position)
    (unexhausted : used taken (schedule.toList.length - 1) < openEnd) :
    schedule.index + 1 < schedule.toList.length := by
  apply Nat.lt_of_le_of_ne reached.index_lt
  intro isLast
  obtain ⟨duration, notGap⟩ := reached.isForward.current_last isLast
  have isHere : schedule.toList.length - 1 = schedule.index := by omega
  have position := reached.position_eq unexhausted
  rw [isHere] at unexhausted
  rw [notGap, duration, position] at passed
  rcases passed with isGap | isUsedUp
  · cases isGap
  · simp only [clamped, least, greatest, openEnd] at isUsedUp unexhausted
    omega

/-- A gap is left like an entry whose frames have used it up. -/
theorem Reached.leave
    (reached : Reached taken schedule)
    (passed : schedule.current.isGap = true ∨ schedule.current.duration ≤ schedule.position) :
    Rests taken schedule.leave := by
  have forward := reached.isForward
  have inside := reached.index_lt
  have stillInside : schedule.leave.index < schedule.leave.toList.length := by
    show _ < schedule.toList.length
    rcases index_leave inside with ⟨_, stays⟩ | ⟨_, moves⟩ <;> omega
  have isForward : schedule.leave.IsForward := ⟨forward.positive, forward.frames, forward.closing⟩
  have position_lt : schedule.leave.position < schedule.leave.current.duration :=
    isForward.duration_pos stillInside
  refine ⟨?_, position_lt⟩
  constructor
  case isForward => exact isForward
  case index_lt => exact stillInside
  case length_nonneg => exact reached.length_nonneg
  case entry_le =>
    intro frame member
    have before := reached.entry_le frame member
    rcases index_leave inside with ⟨-, stays⟩ | ⟨-, moves⟩
    · omega
    · omega
  case position_nonneg => exact Int.le_refl 0
  case position_le =>
    show 0 ≤ greatest
    decide
  case not_isGap => exact fun moved => absurd rfl moved
  case position_eq =>
    intro unexhausted
    have moves := index_leave_of_next (reached.hasNext passed unexhausted)
    rw [used_eq_zero_of_before]
    · rfl
    · intro frame member
      have before := reached.entry_le frame member
      omega
  case offset_eq =>
    intro before
    have unused : used taken (schedule.toList.length - 1) = 0 :=
      used_eq_zero_of_before fun frame member => Nat.lt_sub_of_add_lt (before frame member)
    rw [index_leave_of_next (reached.hasNext passed (by rw [unused]; decide))]
    show clamped (schedule.offset + schedule.current.duration)
      = clamped (Span.total (schedule.toList.take (schedule.index + 1)))
    rw [reached.offset_eq before, total_take_index_succ inside]
    exact clamped_add_clamped (total_take_nonneg forward _)
      (Int.le_of_lt (forward.duration_pos inside))
  case timecode_le =>
    intro frame member
    have before := reached.timecode_le frame member
    have start : min schedule.leave.position schedule.leave.current.duration = 0 :=
      Int.min_eq_left (Int.le_of_lt position_lt)
    rw [start, Int.add_zero]
    show frame.pull.timecode
      ≤ clamped (clamped (schedule.offset + schedule.current.duration))
    rw [clamped_clamped]
    exact Int.le_trans before (clamped_mono (by omega))

/-- Gaps are passed one by one. -/
theorem found_of_isGap
    (isGap : schedule.current.isGap = true)
    (hasNext : schedule.index + 1 < schedule.toList.length) :
    schedule.found = schedule.leave.found := by
  have isNext : min (schedule.index + 1) (schedule.entries.size - 1) = schedule.index + 1 := by
    have within : schedule.index + 1 < schedule.entries.size := hasNext
    omega
  unfold found leave
  dsimp only
  rw [behindGaps, getElem?_entries (Nat.lt_of_succ_lt hasNext), isNext]
  dsimp only
  rw [if_pos isGap]
  rfl

theorem found_of_not_isGap
    (noGap : schedule.current.isGap = false)
    (inside : schedule.index < schedule.toList.length) :
    schedule.found = ⟨schedule.index, schedule.offset, schedule.position == 0⟩ := by
  unfold found
  rw [behindGaps, getElem?_entries inside]
  dsimp only
  rw [if_neg (by rw [noGap]; decide)]

/-- How the search for a frame ends: at an entry with frames, behind nothing but
gaps. -/
structure Found (taken : List Frame) (schedule found : Durations) : Prop
    extends Rests taken found where
  noGap : found.current.isGap = false
  toList_eq : found.toList = schedule.toList
  position_same : found.position = schedule.position
  index_le : schedule.index ≤ found.index
  gaps : ∀ passed, schedule.index ≤ passed → passed < found.index →
    (schedule.toList[passed]?).any (·.isGap) = true
  startsSegment_eq : schedule.found.startsSegment = (schedule.position == 0)

/-- The search leaves one gap after the other, each like a used up entry, so the
induction is on the entries from the current one on. -/
theorem Rests.found (rests : Rests taken schedule) : Found taken schedule schedule.withoutGaps := by
  have inside := rests.index_lt
  generalize isRest : schedule.toList.length - schedule.index = rest
  induction rest generalizing schedule with
  | zero => omega
  | succ rest inductionHypothesis =>
      cases isGap : schedule.current.isGap with
      | false =>
          have isFound := found_of_not_isGap isGap inside
          have same : schedule.withoutGaps = schedule := by rw [withoutGaps, isFound]
          rw [same]
          refine ⟨rests, isGap, rfl, rfl, Nat.le_refl _, ?_, by rw [isFound]⟩
          intro passed atLeast below
          omega
      | true =>
          have atStart : schedule.position = 0 := by
            by_contra moved
            rw [rests.not_isGap moved] at isGap
            cases isGap
          have hasNext : schedule.index + 1 < schedule.toList.length := by
            by_contra isLast
            rw [(rests.isForward.current_last (by omega)).2] at isGap
            cases isGap
          have moves := index_leave_of_next hasNext
          have left := rests.leave (.inl isGap)
          have fewer : schedule.leave.toList.length - schedule.leave.index = rest := by
            show schedule.toList.length - schedule.leave.index = rest
            omega
          have later := inductionHypothesis left left.index_lt fewer
          have farther := later.index_le
          have isFound := found_of_isGap isGap hasNext
          have same : schedule.withoutGaps = schedule.leave.withoutGaps := by
            rw [withoutGaps, isFound]
            unfold withoutGaps
            rw [show schedule.leave.position = schedule.position from atStart.symm]
            rfl
          rw [same]
          refine ⟨later.toRests, later.noGap, later.toList_eq, ?_, ?_, ?_, ?_⟩
          · exact later.position_same.trans atStart.symm
          · omega
          · intro passed atLeast below
            by_cases isHere : passed = schedule.index
            · rw [isHere, getElem?_index inside]
              exact isGap
            · exact later.gaps passed (by omega) below
          · rw [isFound, later.startsSegment_eq, atStart]
            rfl

/-- A frame may use up more than is left of its entry. -/
theorem Found.take
    {start : Durations}
    (found : Found taken start schedule)
    (frame : Frame)
    (isEntry : frame.entry = schedule.index)
    (timecode : frame.pull.timecode = clamped (schedule.offset + schedule.position))
    (forward : 0 ≤ frame.length) :
    Reached (taken ++ [frame])
      { schedule with position := clamped (schedule.position + frame.length) } := by
  have position_nonneg := found.position_nonneg
  have position_le := found.position_le
  have position_lt := found.position_lt
  have grows : schedule.position ≤ clamped (schedule.position + frame.length) := by
    simp only [clamped, least, greatest] at position_le ⊢
    omega
  constructor
  case isForward =>
    have isForward := found.isForward
    exact ⟨isForward.positive, isForward.frames, isForward.closing⟩
  case index_lt => exact found.index_lt
  case length_nonneg =>
    intro other member
    rcases List.mem_append.1 member with earlier | last
    · exact found.length_nonneg other earlier
    · rwa [List.mem_singleton.1 last]
  case entry_le =>
    intro other member
    rcases List.mem_append.1 member with earlier | last
    · exact found.entry_le other earlier
    · rw [List.mem_singleton.1 last]
      exact Nat.le_of_eq isEntry
  case position_nonneg => exact Int.le_trans position_nonneg grows
  case position_le => exact Int.min_le_right _ _
  case not_isGap => exact fun _ => found.noGap
  case position_eq =>
    intro unexhausted
    have unexhaustedBefore : used taken (schedule.toList.length - 1) < openEnd := by
      have own : ∀ other ∈ [frame], 0 ≤ other.length := List.forall_mem_singleton.2 forward
      have adds := used_nonneg own (schedule.toList.length - 1)
      have after : used (taken ++ [frame]) (schedule.toList.length - 1) < openEnd := unexhausted
      rw [used_append] at after
      omega
    show clamped (schedule.position + frame.length) = clamped (used _ schedule.index)
    rw [used_append, ← isEntry, used_singleton, isEntry, found.position_eq unexhaustedBefore]
    exact clamped_add_clamped (used_nonneg found.length_nonneg _) forward
  case offset_eq =>
    intro inside
    exact found.offset_eq fun other member => inside other (List.mem_append_left _ member)
  case timecode_le =>
    intro other member
    show other.pull.timecode ≤ clamped (schedule.offset
      + min (clamped (schedule.position + frame.length)) schedule.current.duration)
    rcases List.mem_append.1 member with earlier | last
    · exact Int.le_trans (found.timecode_le other earlier) (clamped_mono (by omega))
    · rw [List.mem_singleton.1 last, timecode]
      exact clamped_mono (by omega)

theorem frameDuration_nonneg
    (forward : schedule.IsForward)
    (inside : schedule.index < schedule.toList.length)
    (callerForward : 0 ≤ callerDuration.getD 0) :
    0 ≤ (schedule.current.frameDuration callerDuration).getD 0 := by
  have own := forward.frames _ (List.mem_of_getElem? (getElem?_index inside))
  unfold Span.frameDuration at own ⊢
  split
  · rename_i hasRate
    rwa [if_pos hasRate] at own
  · exact callerForward

theorem length_frame (schedule : Durations) (callerDuration : Option Int) :
    (schedule.frame callerDuration).length
      = (schedule.withoutGaps.current.frameDuration callerDuration).getD 0 := rfl

theorem Rests.next (rests : Rests taken schedule) (callerForward : 0 ≤ callerDuration.getD 0) :
    Rests (taken ++ [schedule.frame callerDuration]) (schedule.next callerDuration false).2 := by
  have found := rests.found
  have forward : 0 ≤ (schedule.frame callerDuration).length := by
    rw [length_frame]
    exact frameDuration_nonneg found.isForward found.index_lt callerForward
  have reached := found.take (schedule.frame callerDuration) rfl
    (by rw [found.position_same]; rfl) forward
  rw [found.position_same] at reached
  show Rests _ (if _ then _ else _)
  split
  · rename_i isUsedUp
    exact reached.leave (.inr isUsedUp)
  · rename_i goesOn
    exact ⟨reached, Int.not_le.1 goesOn⟩

end Step

/-! ## From the first frame on -/

end Durations

end MediaSplit.Schedule

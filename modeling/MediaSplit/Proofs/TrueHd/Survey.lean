import MediaSplit.Proofs.Source
import MediaSplit.Proofs.TrueHd.Unit
import MediaSplit.TrueHd.Reader

/-!
Contract: what a survey of a shorter window still finds.

Owns:
- that a walk keeps the first major sync unit it meets, and that counting one
  means having met one;
- that a window shows the first major sync unit exactly if it holds the twelve
  bytes that decide it;
- `TrueHd.SyncsBeforeTag`, and that of the sources a probe accepts a reader
  opens exactly those that are so.

A probe surveys the bytes behind a leading tag whatever stands at the end; an
opening reader leaves out a trailing tag. So the two look at a window and at a
front piece of it.
-/

set_option autoImplicit false

namespace MediaSplit.TrueHd

namespace Survey

variable {classifier last : Classifier} {survey : Survey} {offset place : Nat} {frame : Frame}

/-! ## Equations of the walk -/

theorem walk_of_noFrame
    {byte : UInt8}
    {rest : Bytes}
    (classified : classifier.classify (byte :: rest) = (.noFrame, last)) :
    walk classifier survey offset (byte :: rest) = walk last survey (offset + 1) rest := by
  rw [walk]
  split <;> simp_all

theorem walk_of_frame
    {byte : UInt8}
    {rest : Bytes}
    (classified : classifier.classify (byte :: rest) = (.frame frame, last)) :
    walk classifier survey offset (byte :: rest)
      = walk last (survey.noting offset frame) (offset + max frame.size 1)
          (rest.drop (frame.size - 1)) := by
  rw [walk]
  split <;> simp_all

/-! ## The first major sync unit -/

theorem firstSync_noting_of_some
    {found : Nat × Frame}
    (known : survey.firstSync = some found) :
    (survey.noting offset frame).firstSync = some found := by
  unfold noting
  rw [known, Option.some_or]

theorem firstSync_noting_of_isSync
    (unknown : survey.firstSync = none)
    (isSync : frame.isSync = true) :
    (survey.noting offset frame).firstSync = some (offset, frame) := by
  unfold noting
  rw [unknown, Option.none_or, if_pos isSync]

theorem firstSync_noting_of_not_isSync
    (unknown : survey.firstSync = none)
    (notSync : ¬ frame.isSync = true) :
    (survey.noting offset frame).firstSync = none := by
  unfold noting
  rw [unknown, Option.none_or, if_neg notSync]

/-- A walk never forgets its first major sync unit. -/
theorem firstSync_walk_of_some
    {found : Nat × Frame}
    (classifier : Classifier)
    (offset : Nat)
    (data : Bytes)
    (known : survey.firstSync = some found) :
    (walk classifier survey offset data).firstSync = some found := by
  fun_induction walk classifier survey offset data with
  | case1 => exact known
  | case2 classifier survey offset byte rest frame last classified inductionHypothesis =>
      exact inductionHypothesis (firstSync_noting_of_some known)
  | case3 => exact known
  | case4 classifier survey offset byte rest last classified inductionHypothesis =>
      exact inductionHypothesis known

/-- What a walk finds is not before its start. -/
theorem le_of_firstSync_walk
    (classifier : Classifier)
    (data : Bytes)
    (unknown : survey.firstSync = none)
    (found : (walk classifier survey offset data).firstSync = some (place, frame)) :
    offset ≤ place := by
  fun_induction walk classifier survey offset data with
  | case1 =>
      rw [unknown] at found
      cases found
  | case2 classifier survey offset byte rest unit last classified inductionHypothesis =>
      by_cases isSync : unit.isSync = true
      · rw [firstSync_walk_of_some _ _ _ (firstSync_noting_of_isSync unknown isSync)] at found
        cases found
        exact Nat.le_refl _
      · have further :=
          inductionHypothesis (firstSync_noting_of_not_isSync unknown isSync) found
        omega
  | case3 =>
      rw [unknown] at found
      cases found
  | case4 classifier survey offset byte rest last classified inductionHypothesis =>
      have further := inductionHypothesis unknown found
      omega

/-- Nothing that is decided up to `bound` is found by a walk that starts too
close to it. -/
theorem firstSync_iff_of_near
    {bound : Nat}
    (classifier : Classifier)
    (data : Bytes)
    (unknown : survey.firstSync = none)
    (near : bound < offset + headerSize) :
    survey.firstSync = some (place, frame)
      ↔ (walk classifier survey offset data).firstSync = some (place, frame)
          ∧ place + headerSize ≤ bound := by
  rw [unknown]
  constructor
  · intro absurd
    cases absurd
  · rintro ⟨found, inside⟩
    have notBefore := le_of_firstSync_walk classifier data unknown found
    omega

/-- A walk through the front of some bytes finds what the walk through all of
them finds, if the bytes that decide it are in the front. -/
theorem firstSync_walk_append
    (classifier : Classifier)
    (front back : Bytes)
    (unknown : survey.firstSync = none) :
    (walk classifier survey offset front).firstSync = some (place, frame)
      ↔ (walk classifier survey offset (front ++ back)).firstSync = some (place, frame)
          ∧ place + headerSize ≤ offset + front.length := by
  fun_induction walk classifier survey offset front generalizing back with
  | case1 classifier survey offset =>
      have positive : 0 < headerSize := by decide
      exact firstSync_iff_of_near classifier _ unknown (Nat.add_lt_add_left positive offset)
  | case2 classifier survey offset byte rest unit last classified inductionHypothesis =>
      have whole := Classifier.classify_append back classified (by simp)
      rw [List.cons_append] at whole
      rw [List.cons_append, walk_of_frame whole]
      by_cases isSync : unit.isSync = true
      · -- both walks stop looking here, and the unit has been decided by the front
        have noted : (survey.noting offset unit).firstSync = some (offset, unit) :=
          firstSync_noting_of_isSync unknown isSync
        have enough : headerSize ≤ (byte :: rest).length := by
          rw [← Nat.not_lt, ← Classifier.classify_needMore_iff, classified]
          simp
        rw [firstSync_walk_of_some _ _ _ noted, firstSync_walk_of_some _ _ _ noted]
        constructor
        · intro same
          cases same
          exact ⟨rfl, Nat.add_le_add_left enough _⟩
        · exact fun found => found.1
      · have still : (survey.noting offset unit).firstSync = none :=
          firstSync_noting_of_not_isSync unknown isSync
        by_cases inside : unit.size - 1 ≤ rest.length
        · rw [List.drop_append_of_le_length inside, inductionHypothesis back still,
            List.length_drop, List.length_cons]
          have same : offset + max unit.size 1 + (rest.length - (unit.size - 1))
              = offset + (rest.length + 1) := by
            omega
          rw [same]
        · -- the unit leaves the front, so nothing behind it is in the front
          rw [List.drop_eq_nil_of_le (by omega), walk]
          refine firstSync_iff_of_near last _ still ?_
          have positive : 0 < headerSize := by decide
          rw [List.length_cons]
          omega
  | case3 classifier survey offset byte rest last classified =>
      have short := Classifier.classify_needMore_iff.1 (congrArg Prod.fst classified)
      exact firstSync_iff_of_near classifier _ unknown (Nat.add_lt_add_left short offset)
  | case4 classifier survey offset byte rest last classified inductionHypothesis =>
      have whole := Classifier.classify_append back classified (by simp)
      rw [List.cons_append] at whole
      rw [List.cons_append, walk_of_noFrame whole, inductionHypothesis back unknown,
        List.length_cons, Nat.add_right_comm, Nat.add_assoc]

/-- What a survey of the first `count` bytes finds. -/
theorem firstSync_ofBytes_take (count : Nat) (data : Bytes) :
    (ofBytes (data.take count)).firstSync = some (place, frame)
      ↔ (ofBytes data).firstSync = some (place, frame)
          ∧ place + headerSize ≤ min count data.length := by
  have split := @firstSync_walk_append empty 0 place frame .initial (data.take count)
    (data.drop count) rfl
  rwa [List.take_append_drop, List.length_take, Nat.zero_add] at split

theorem le_length_of_firstSync
    {data : Bytes}
    (found : (ofBytes data).firstSync = some (place, frame)) :
    place + headerSize ≤ data.length := by
  rw [← List.take_length (l := data)] at found
  have whole := (firstSync_ofBytes_take data.length data).1 found
  rw [Nat.min_self] at whole
  exact whole.2

/-! ## Counted units -/

/-- Whether a survey that has counted a unit also has a first one. -/
def IsCounted (survey : Survey) : Prop :=
  0 < survey.syncCount → survey.firstSync.isSome = true

theorem IsCounted.noting
    (counted : survey.IsCounted)
    (offset : Nat)
    (frame : Frame) :
    (survey.noting offset frame).IsCounted := by
  unfold IsCounted at counted ⊢
  unfold Survey.noting
  cases known : survey.firstSync with
  | some found => simp
  | none =>
      rw [known] at counted
      cases isSync : frame.isSync <;> simp_all

theorem IsCounted.walk
    (counted : survey.IsCounted)
    (classifier : Classifier)
    (offset : Nat)
    (data : Bytes) :
    (Survey.walk classifier survey offset data).IsCounted := by
  fun_induction Survey.walk classifier survey offset data with
  | case1 => exact counted
  | case2 classifier survey offset byte rest frame last classified inductionHypothesis =>
      exact inductionHypothesis (counted.noting offset frame)
  | case3 => exact counted
  | case4 classifier survey offset byte rest last classified inductionHypothesis =>
      exact inductionHypothesis counted

/-- A usable stream has a first major sync unit. -/
theorem exists_firstSync_of_isValid {data : Bytes} (valid : (ofBytes data).isValid = true) :
    ∃ place frame, (ofBytes data).firstSync = some (place, frame) := by
  have counted : empty.IsCounted := by
    intro absurd
    cases absurd
  have enough : 2 ≤ (ofBytes data).syncCount := by simpa [isValid] using valid
  have found := counted.walk .initial 0 data (Nat.lt_of_lt_of_le Nat.zero_lt_two enough)
  obtain ⟨⟨place, frame⟩, found⟩ := Option.isSome_iff_exists.1 found
  exact ⟨place, frame, found⟩

end Survey

/-! ## Opening -/

/-- Whether the bytes that decide the first major sync unit behind a leading
tag stand before the trailing tag. -/
def SyncsBeforeTag (source : Source) : Prop :=
  ∀ place frame,
    (Survey.ofBytes (source.bytesAt (Id3.leadingTagSize source) windowSize)).firstSync
        = some (place, frame)
      → Id3.leadingTagSize source + place + headerSize
          ≤ source.size - Id3.trailingTagSize source

namespace Reader

variable {σ : Type}

/-- The part of a source that an opening reader surveys. -/
def openingWindow (source : Source) : Bytes :=
  (source.bytesAt (Id3.leadingTagSize source) windowSize).take
    (source.size - Id3.trailingTagSize source - Id3.leadingTagSize source)

theorem openingWindow_eq (source : Source) :
    openingWindow source
      = source.bytesAt (Id3.leadingTagSize source)
          (min (max (source.size - Id3.trailingTagSize source) (Id3.leadingTagSize source)
            - Id3.leadingTagSize source) windowSize) := by
  unfold openingWindow
  rw [Source.take_bytesAt]
  congr 1
  omega

theorem exists_ofSource_iff_isSome (source : Source) (chunkSize : Nat) :
    (∃ reader : Reader σ, ofSource source chunkSize = .ok reader)
      ↔ (Survey.ofBytes (openingWindow source)).firstSync.isSome = true := by
  unfold ofSource
  rw [openingWindow_eq]
  dsimp only
  split
  next unknown => simp [unknown]
  next found => simp [found]

/-- Of the sources that a probe takes for TrueHD exactly those open that show a
major sync unit before the trailing tag, whatever the chunk size is. -/
theorem exists_ofSource_iff_of_probe
    {source : Source}
    (probed : probe source = true)
    (chunkSize : Nat) :
    (∃ reader : Reader σ, ofSource source chunkSize = .ok reader) ↔ SyncsBeforeTag source := by
  obtain ⟨place, frame, found⟩ := Survey.exists_firstSync_of_isValid probed
  have positive : 0 < headerSize := by decide
  rw [exists_ofSource_iff_isSome, Option.isSome_iff_exists]
  unfold openingWindow SyncsBeforeTag
  rw [found]
  constructor
  · rintro ⟨⟨_, _⟩, shown⟩ _ _ isFirst
    obtain ⟨same, inside⟩ := (Survey.firstSync_ofBytes_take _ _).1 shown
    rw [found, isFirst] at same
    cases same
    omega
  · intro before
    have within := before place frame rfl
    have inside := Survey.le_length_of_firstSync found
    exact ⟨(place, frame), (Survey.firstSync_ofBytes_take _ _).2 ⟨found, by omega⟩⟩

end Reader

end MediaSplit.TrueHd

import MediaSplit.Elementary.Segmentation
import MediaSplit.Proofs.Ac3.Header

/-!
Contract: what classifying a unit depends on.

Owns:
- that twelve bytes decide every unit, whatever follows them, and that every unit
  is shorter than 8192 bytes;
- that a verdict depends on the units before it through the last major sync
  alone, and that classifying the same bytes a second time changes neither;
- the four equations of `TrueHd.segments`, one for each verdict, and that it
  too depends on the last major sync alone.

Does **not** own: chunks. Here is only why looking at an incomplete unit again
and again does no harm.
-/

set_option autoImplicit false

namespace MediaSplit.TrueHd

namespace Classifier

variable {classifier other : Classifier} {data : Bytes}

/-! ## The bytes that decide -/

theorem ac3Frame?_eq (data : Bytes) :
    ac3Frame? data
      = if data.take 2 = [0x0B, 0x77] then (Ac3.Header.parse? data).map Frame.ofAc3 else none := by
  unfold ac3Frame?
  split
  next rest => exact (if_pos rfl).symm
  next other =>
    rw [if_neg]
    intro sync
    rcases data with _ | ⟨first, _ | ⟨second, rest⟩⟩
    · cases sync
    · cases sync
    · obtain ⟨rfl, rfl⟩ : first = 0x0B ∧ second = 0x77 := by simpa using sync
      exact other rest rfl

theorem ac3Frame?_append {front : Bytes} (back : Bytes) (enough : headerSize ≤ front.length) :
    ac3Frame? (front ++ back) = ac3Frame? front := by
  unfold headerSize at enough
  have decides : Ac3.headerSize ≤ front.length := by
    unfold Ac3.headerSize
    omega
  rw [ac3Frame?_eq, ac3Frame?_eq, List.take_append_of_le_length (by omega),
    Ac3.Header.decidedBy_parse?.append back decides]

theorem classifyUnit_ne_needMore (classifier : Classifier) (header : Bytes) :
    (classifier.classifyUnit header).1 ≠ .needMore := by
  unfold classifyUnit
  dsimp only
  split
  · exact nofun
  · split
    · exact nofun
    · split <;> exact nofun

theorem classify_of_short (classifier : Classifier) (short : data.length < headerSize) :
    classifier.classify data = (.needMore, classifier) := by
  have lacking : Bytes.hasAtLeast headerSize data = false := by
    rw [← Bool.not_eq_true, Bytes.hasAtLeast_iff]
    exact Nat.not_le.2 short
  unfold classify
  rw [lacking]
  rfl

/-- Exactly the bytes that cannot hold a header are waited for. -/
theorem classify_needMore_iff :
    (classifier.classify data).1 = .needMore ↔ data.length < headerSize := by
  constructor
  · intro waits
    unfold classify at waits
    split at waits
    next short =>
      rw [← Nat.not_le, ← Bytes.hasAtLeast_iff]
      simpa using short
    next =>
      split at waits
      · cases waits
      · exact absurd waits (classifyUnit_ne_needMore classifier _)
  · intro short
    rw [classifier.classify_of_short short]

/-- Waiting for more bytes changes nothing. -/
theorem classify_of_needMore (waits : (classifier.classify data).1 = .needMore) :
    classifier.classify data = (.needMore, classifier) :=
  classifier.classify_of_short (classify_needMore_iff.1 waits)

/-- A verdict on the bytes at hand is one on all bytes. -/
theorem classify_append
    {front : Bytes}
    {verdict : Verdict}
    {last : Classifier}
    (back : Bytes)
    (classified : classifier.classify front = (verdict, last))
    (decided : verdict ≠ .needMore) :
    classifier.classify (front ++ back) = (verdict, last) := by
  have enough : headerSize ≤ front.length := by
    rw [← Nat.not_lt, ← classify_needMore_iff, classified]
    exact decided
  have longer : headerSize ≤ (front ++ back).length := by
    rw [List.length_append]
    omega
  rw [← classified]
  unfold classify
  rw [(Bytes.hasAtLeast_iff _ _).2 enough, (Bytes.hasAtLeast_iff _ _).2 longer,
    ac3Frame?_append back enough, List.take_append_of_le_length enough]

/-! ## The units before -/

theorem classifyUnit_congr (same : other.lastSync = classifier.lastSync) (header : Bytes) :
    (other.classifyUnit header).1 = (classifier.classifyUnit header).1
      ∧ (other.classifyUnit header).2.lastSync = (classifier.classifyUnit header).2.lastSync := by
  unfold classifyUnit
  dsimp only
  rw [same]
  split
  · exact ⟨rfl, same⟩
  · split
    · exact ⟨rfl, rfl⟩
    · split <;> exact ⟨rfl, same⟩

theorem classify_congr (same : other.lastSync = classifier.lastSync) (data : Bytes) :
    (other.classify data).1 = (classifier.classify data).1
      ∧ (other.classify data).2.lastSync = (classifier.classify data).2.lastSync := by
  unfold classify
  split
  · exact ⟨rfl, same⟩
  · split
    · exact ⟨rfl, same⟩
    · exact classifyUnit_congr same _

theorem classifyUnit_again (classifier : Classifier) (header : Bytes) :
    ((classifier.classifyUnit header).2.classifyUnit header).1 = (classifier.classifyUnit header).1
      ∧ ((classifier.classifyUnit header).2.classifyUnit header).2.lastSync
          = (classifier.classifyUnit header).2.lastSync := by
  cases found : majorSync? (unitSize header) header with
  | some frame =>
      -- a major sync unit is told by its own bytes and leaves itself behind
      unfold classifyUnit
      simp only [found]
      split <;> simp_all
  | none =>
      have kept : (classifier.classifyUnit header).2 = classifier := by
        unfold classifyUnit
        simp only [found]
        split
        · rfl
        · split <;> rfl
      rw [kept]
      exact ⟨rfl, by rw [kept]⟩

/-- Classifying the same bytes once more gives the same verdict and the same
last major sync. -/
theorem classify_again (classifier : Classifier) (data : Bytes) :
    ((classifier.classify data).2.classify data).1 = (classifier.classify data).1
      ∧ ((classifier.classify data).2.classify data).2.lastSync
          = (classifier.classify data).2.lastSync := by
  unfold classify
  split
  · exact ⟨rfl, rfl⟩
  · split
    · exact ⟨rfl, rfl⟩
    · exact classifyUnit_again classifier _

/-! ## How long a unit is -/

theorem size_of_majorSync?
    {size : Nat}
    {header : Bytes}
    {frame : Frame}
    (found : majorSync? size header = some frame) :
    frame.size = size := by
  unfold majorSync? at found
  dsimp only at found
  split at found
  · cases found
    rfl
  · split at found
    · cases found
      rfl
    · cases found

theorem unitSize_lt (header : Bytes) : unitSize header < 8192 := by
  unfold unitSize
  omega

theorem size_of_classifyUnit
    {header : Bytes}
    {frame : Frame}
    {last : Classifier}
    (classified : classifier.classifyUnit header = (.frame frame, last)) :
    frame.size = unitSize header := by
  unfold classifyUnit at classified
  dsimp only at classified
  split at classified
  · cases classified
  · split at classified
    next isSync =>
      cases classified
      exact size_of_majorSync? isSync
    next =>
      split at classified <;> cases classified
      rfl

theorem size_lt_of_classify
    {frame : Frame}
    {last : Classifier}
    (classified : classifier.classify data = (.frame frame, last)) :
    frame.size < 8192 := by
  unfold classify at classified
  split at classified
  · cases classified
  · split at classified
    next found =>
      cases classified
      rw [ac3Frame?_eq] at found
      split at found
      · obtain ⟨header, parsed, rfl⟩ := Option.map_eq_some_iff.1 found
        have most := (Ac3.Header.isPlayable_of_parse? parsed).frameSize_le
        exact Nat.lt_of_le_of_lt most (by decide)
      · cases found
    next =>
      rw [size_of_classifyUnit classified]
      exact unitSize_lt _

/-! ## Verdicts as frame boundaries -/

variable {last : Classifier}

theorem classify_of_scan_frame
    {length track : Nat}
    {duration : Option Int}
    (verdict : classifier.scan data = (.frame length duration track, last)) :
    ∃ frame, classifier.classify data = (.frame frame, last)
      ∧ length = frame.size ∧ duration = frame.duration ∧ track = frame.track := by
  unfold scan at verdict
  split at verdict
  next frame after classified =>
    cases verdict
    exact ⟨frame, classified, rfl, rfl, rfl⟩
  next => cases verdict
  next => cases verdict

theorem classify_of_scan_needMore (verdict : classifier.scan data = (.needMore, last)) :
    classifier.classify data = (.needMore, last) := by
  unfold scan at verdict
  split at verdict
  next => cases verdict
  next after classified =>
    cases verdict
    exact classified
  next => cases verdict

theorem classify_of_scan_skip
    {count : Nat}
    (verdict : classifier.scan data = (.skip count, last)) :
    classifier.classify data = (.noFrame, last) ∧ count = 1 := by
  unfold scan at verdict
  split at verdict
  next => cases verdict
  next => cases verdict
  next after classified =>
    cases verdict
    exact ⟨classified, rfl⟩

end Classifier

/-! ## Equations of the segmentation -/

section Segments

variable {classifier other : Classifier} {data : Bytes} {frame : Frame}

/-- The packet of a unit at the start of `data`. -/
def Frame.packet (frame : Frame) (offset : Nat) (data : Bytes) : Packet :=
  { (⟨frame.size, frame.duration⟩ : FrameShape).packet offset data with track := frame.track }

theorem segments_of_needMore
    (offset : Nat)
    (verdict : (classifier.classify data).1 = .needMore) :
    segments classifier offset data = ([], data) := by
  rw [segments]
  split
  next => rfl
  next classified => simp [classified] at verdict
  next classified => simp [classified] at verdict

theorem segments_of_noFrame
    (offset : Nat)
    (byte : UInt8)
    (rest : Bytes)
    (verdict : (classifier.classify (byte :: rest)).1 = .noFrame) :
    segments classifier offset (byte :: rest)
      = segments (classifier.classify (byte :: rest)).2 (offset + 1) rest := by
  rw [segments]
  split
  next classified => simp [classified] at verdict
  next classified => rw [classified]
  next classified => simp [classified] at verdict

theorem segments_of_frame
    (offset : Nat)
    (verdict : (classifier.classify data).1 = .frame frame)
    (fits : 0 < frame.size ∧ frame.size ≤ data.length) :
    segments classifier offset data
      = (segments (classifier.classify data).2 (offset + frame.size) (data.drop frame.size)).map
          (frame.packet offset data :: ·) id := by
  rw [segments]
  split
  next classified => simp [classified] at verdict
  next classified => simp [classified] at verdict
  next found after classified =>
    obtain rfl : found = frame := by simpa [classified] using verdict
    rw [dif_pos fits, classified]
    rfl

theorem segments_of_cutOff
    (offset : Nat)
    (verdict : (classifier.classify data).1 = .frame frame)
    (cutOff : ¬ (0 < frame.size ∧ frame.size ≤ data.length)) :
    segments classifier offset data = ([], data) := by
  rw [segments]
  split
  next => rfl
  next classified => simp [classified] at verdict
  next found after classified =>
    obtain rfl : found = frame := by simpa [classified] using verdict
    rw [dif_neg cutOff]

theorem segments_nil (classifier : Classifier) (offset : Nat) :
    segments classifier offset [] = ([], []) :=
  segments_of_needMore offset rfl

/-- What a stream is cut into depends on the units before it through the last
major sync alone. -/
theorem segments_congr
    (same : other.lastSync = classifier.lastSync)
    (offset : Nat)
    (data : Bytes) :
    segments other offset data = segments classifier offset data := by
  induction amount : data.length using Nat.strongRecOn generalizing other classifier offset data with
  | ind bound inductionHypothesis =>
      obtain ⟨sameVerdict, sameSync⟩ := Classifier.classify_congr same data
      cases verdict : (classifier.classify data).1 with
      | needMore =>
          rw [segments_of_needMore offset verdict,
            segments_of_needMore offset (sameVerdict.trans verdict)]
      | noFrame =>
          cases data with
          | nil => rw [segments_nil, segments_nil]
          | cons byte rest =>
              rw [segments_of_noFrame offset byte rest verdict,
                segments_of_noFrame offset byte rest (sameVerdict.trans verdict)]
              have shorter : rest.length < bound := by
                rw [← amount, List.length_cons]
                omega
              exact inductionHypothesis _ shorter sameSync _ _ rfl
      | frame frame =>
          by_cases fits : 0 < frame.size ∧ frame.size ≤ data.length
          · rw [segments_of_frame offset verdict fits,
              segments_of_frame offset (sameVerdict.trans verdict) fits]
            have shorter : (data.drop frame.size).length < bound := by
              rw [List.length_drop]
              omega
            rw [inductionHypothesis _ shorter sameSync _ _ rfl]
          · rw [segments_of_cutOff offset verdict fits,
              segments_of_cutOff offset (sameVerdict.trans verdict) fits]

/-- A unit may be looked at before all its bytes are there. -/
theorem segments_of_classified
    {last : Classifier}
    (offset : Nat)
    {visible : Bytes}
    (hidden : Bytes)
    (classified : classifier.classify visible = (.frame frame, last)) :
    segments last offset (visible ++ hidden) = segments classifier offset (visible ++ hidden) := by
  have whole := Classifier.classify_append hidden classified nofun
  obtain ⟨sameVerdict, sameSync⟩ := classifier.classify_again (visible ++ hidden)
  rw [whole] at sameVerdict sameSync
  have verdict := congrArg Prod.fst whole
  by_cases fits : 0 < frame.size ∧ frame.size ≤ (visible ++ hidden).length
  · rw [segments_of_frame offset verdict fits, segments_of_frame offset sameVerdict fits,
      whole, segments_congr sameSync]
  · rw [segments_of_cutOff offset verdict fits, segments_of_cutOff offset sameVerdict fits]

end Segments

end MediaSplit.TrueHd

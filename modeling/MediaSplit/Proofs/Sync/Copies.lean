import MediaSplit.Proofs.Reading
import MediaSplit.Proofs.Sink.Delivery
import MediaSplit.Sync.Packetizer

/-!
Contract: the copies of a packet that a positive displacement asks for.

Owns:
- `Packetizer.Copies`, some accepted copies in a row, and what they change;
- that sending copies goes on until no more is wanted or one is refused;
- when the surplus can be filled at all: only before the displacement has come
  to lie more than half a packet behind the wanted one.

Does **not** own: which packets are copied.

The distance to the wanted displacement is compared without its sign, while a
copy always adds to the displacement. A packet that is longer than those behind
it may carry the displacement so far that every copy of these widens the
distance, so the condition above cannot be left out.
-/

set_option autoImplicit false

namespace MediaSplit.Packetizer

section AnySink

variable {σ : Type} [PacketSink σ] {packetizer last : Packetizer σ} {packet : Packet}
  {timecode : Int} {count : Nat}

/-! ## Copies in a row -/

/-- The packetizer behind `count` accepted copies of this duration, which have
left its sink as `sink`. -/
def withCopies
    (packetizer : Packetizer σ)
    (count : Nat)
    (duration : Int)
    (sink : σ) : Packetizer σ :=
  { packetizer with
    sink := sink
    displacement := packetizer.displacement + count * duration
    stats := { packetizer.stats with duplicated := packetizer.stats.duplicated + count } }

omit [PacketSink σ] in
theorem withCopies_zero (packetizer : Packetizer σ) (duration : Int) :
    packetizer.withCopies 0 duration packetizer.sink = packetizer := by
  simp [withCopies]

omit [PacketSink σ] in
theorem withCopies_withCopies
    (packetizer : Packetizer σ)
    (first more : Nat)
    (duration : Int)
    (sink other : σ) :
    (packetizer.withCopies first duration sink).withCopies more duration other
      = packetizer.withCopies (first + more) duration other := by
  simp [withCopies, Int.add_mul, Int.add_assoc, Nat.add_assoc]

theorem sendCopy_eq (packetizer : Packetizer σ) (packet : Packet) (timecode : Int) :
    packetizer.sendCopy packet timecode
      = match PacketSink.process packetizer.sink (marked (packetizer.retimed packet timecode)) with
        | (.error fault, sink) => (.error fault, { packetizer with sink := sink })
        | (.ok (), sink) => (.ok (), packetizer.withCopies 1 (packet.duration.getD 0) sink) := by
  unfold sendCopy offer
  rcases PacketSink.process packetizer.sink (marked (packetizer.retimed packet timecode)) with
    ⟨fault | _, sink⟩ <;> simp [withCopies]

theorem sendCopies_of_unwanted (unwanted : packetizer.wantsCopy (packet.duration.getD 0) = false) :
    packetizer.sendCopies packet timecode = (.ok (), packetizer) := by
  rw [sendCopies, if_neg (by rw [unwanted]; exact Bool.false_ne_true)]

theorem sendCopies_of_accepted
    {sink : σ}
    (wanted : packetizer.wantsCopy (packet.duration.getD 0) = true)
    (accepted : PacketSink.process packetizer.sink (marked (packetizer.retimed packet timecode))
      = (.ok (), sink)) :
    packetizer.sendCopies packet timecode
      = (packetizer.withCopies 1 (packet.duration.getD 0) sink).sendCopies packet timecode := by
  have unfolded := sendCopies.eq_def packetizer packet timecode
  rw [if_pos wanted, sendCopy_eq, accepted] at unfolded
  exact unfolded

/-- `count` copies in a row, each of them wanted and accepted. -/
inductive Copies (packet : Packet) (timecode : Int) : Nat → Packetizer σ → Packetizer σ → Prop
  | none (packetizer : Packetizer σ) : Copies packet timecode 0 packetizer packetizer
  | more {count : Nat} {packetizer last : Packetizer σ} {sink : σ}
      (wanted : packetizer.wantsCopy (packet.duration.getD 0) = true)
      (accepted : PacketSink.process packetizer.sink (marked (packetizer.retimed packet timecode))
        = (.ok (), sink))
      (rest : Copies packet timecode count
        (packetizer.withCopies 1 (packet.duration.getD 0) sink) last) :
      Copies packet timecode (count + 1) packetizer last

/-- Copies change nothing but the sink, the displacement and their count. -/
theorem Copies.last_eq (copies : Copies packet timecode count packetizer last) :
    last = packetizer.withCopies count (packet.duration.getD 0) last.sink := by
  induction copies with
  | none packetizer => exact (packetizer.withCopies_zero _).symm
  | more _ _ _ inductionHypothesis =>
      rw [withCopies_withCopies, Nat.add_comm] at inductionHypothesis
      exact inductionHypothesis

/-- The sending of copies ends where no more is wanted, or where one is
refused. -/
inductive CopiesEnd (packetizer : Packetizer σ) (packet : Packet) (timecode : Int)
    (last : Packetizer σ) : Prop
  | enough
      (unwanted : last.wantsCopy (packet.duration.getD 0) = false)
      (sent : packetizer.sendCopies packet timecode = (.ok (), last))
  | refused {fault : Fault} {sink : σ}
      (wanted : last.wantsCopy (packet.duration.getD 0) = true)
      (answer : PacketSink.process last.sink (marked (last.retimed packet timecode))
        = (.error fault, sink))
      (sent : packetizer.sendCopies packet timecode = (.error fault, { last with sink := sink }))

theorem exists_copies (packetizer : Packetizer σ) (packet : Packet) (timecode : Int) :
    ∃ count last, Copies packet timecode count packetizer last
      ∧ packetizer.CopiesEnd packet timecode last := by
  induction amount : (greatestDisplacement - packetizer.displacement).toNat
      using Nat.strongRecOn generalizing packetizer with
  | ind bound inductionHypothesis =>
      have unfolded := sendCopies.eq_def packetizer packet timecode
      cases wanted : packetizer.wantsCopy (packet.duration.getD 0) with
      | false =>
          rw [if_neg (by simp [wanted])] at unfolded
          exact ⟨0, packetizer, .none packetizer, .enough wanted unfolded⟩
      | true =>
          rw [if_pos wanted, sendCopy_eq] at unfolded
          rcases answer : PacketSink.process packetizer.sink
              (marked (packetizer.retimed packet timecode)) with ⟨fault | _, sink⟩
          · rw [answer] at unfolded
            exact ⟨0, packetizer, .none packetizer, .refused wanted answer unfolded⟩
          · rw [answer] at unfolded
            have closer : (greatestDisplacement
                - (packetizer.withCopies 1 (packet.duration.getD 0) sink).displacement).toNat
                  < bound := by
              simp only [wantsCopy, Bool.and_eq_true, decide_eq_true_eq] at wanted
              simp only [withCopies]
              omega
            obtain ⟨count, last, copies, ends⟩ := inductionHypothesis _ closer _ rfl
            refine ⟨count + 1, last, .more wanted answer copies, ?_⟩
            cases ends with
            | enough unwanted sent => exact .enough unwanted (unfolded.trans sent)
            | refused wantedLast refusal sent =>
                exact .refused wantedLast refusal (unfolded.trans sent)

theorem exists_copies_of_ok (sent : packetizer.sendCopies packet timecode = (.ok (), last)) :
    ∃ count, Copies packet timecode count packetizer last
      ∧ last.wantsCopy (packet.duration.getD 0) = false := by
  obtain ⟨count, final, copies, ends⟩ := packetizer.exists_copies packet timecode
  cases ends with
  | enough unwanted enough =>
      rw [sent] at enough
      obtain rfl := (Prod.mk.inj enough).2
      exact ⟨count, copies, unwanted⟩
  | refused _ _ refused =>
      rw [sent] at refused
      cases refused

/-! ## Filling the surplus -/

/-- Whether the displacement is within half a packet of the wanted one. -/
def IsFilled (packetizer : Packetizer σ) (duration : Int) : Prop :=
  (packetizer.wantedDisplacement - packetizer.displacement).natAbs ≤ duration / 2

/-- Whether the displacement lies behind the wanted one, by more than half a
packet. -/
def IsPast (packetizer : Packetizer σ) (duration : Int) : Prop :=
  duration / 2 < packetizer.displacement - packetizer.wantedDisplacement

omit [PacketSink σ] in
/-- Copies do not come back from behind the wanted displacement. -/
theorem not_isFilled_withCopies
    {duration : Int}
    (isPast : packetizer.IsPast duration)
    (positive : 0 ≤ duration)
    (count : Nat)
    (sink : σ) :
    ¬ (packetizer.withCopies count duration sink).IsFilled duration := by
  have added : 0 ≤ count * duration := Int.mul_nonneg (Int.natCast_nonneg count) positive
  unfold IsPast at isPast
  simp only [IsFilled, withCopies]
  omega

/-- A copy is wanted only while it does not carry the displacement more than
half a packet behind the wanted one. -/
theorem Copies.not_isPast
    (copies : Copies packet timecode count packetizer last)
    (notPast : ¬ packetizer.IsPast (packet.duration.getD 0)) :
    ¬ last.IsPast (packet.duration.getD 0) := by
  induction copies with
  | none packetizer => exact notPast
  | more wanted _ _ inductionHypothesis =>
      apply inductionHypothesis
      simp only [wantsCopy, isInSurplus, Bool.and_eq_true, decide_eq_true_eq] at wanted
      simp only [IsPast, withCopies] at notPast ⊢
      omega

omit [PacketSink σ] in
/-- Where no more copies are wanted, the surplus is filled, or the next
displacement could not be represented. -/
theorem isFilled_or_of_unwanted
    {duration : Int}
    (isPositive : 0 < packetizer.wantedDisplacement)
    (plays : 0 < duration)
    (unwanted : packetizer.wantsCopy duration = false) :
    packetizer.IsFilled duration
      ∨ greatestDisplacement < packetizer.displacement + duration := by
  simp only [wantsCopy, isInSurplus, Bool.and_eq_false_iff, decide_eq_false_iff_not] at unwanted
  unfold IsFilled
  omega

end AnySink

/-! ## Sinks that refuse nothing -/

section Journals

variable {packetizer last : Packetizer Journal} {packet : Packet} {timecode : Int} {count : Nat}

theorem Copies.policy (copies : Copies packet timecode count packetizer last) :
    last.sink.policy = packetizer.sink.policy := by
  induction copies with
  | none => rfl
  | more _ accepted _ inductionHypothesis =>
      rw [inductionHypothesis]
      exact congrArg (fun reply => reply.2.policy) accepted.symm

/-- Where the sink refuses nothing, the surplus is filled after some number of
copies, unless the displacement lies more than half a packet behind the wanted
one: then no number of copies fills it. -/
theorem exists_isFilled_iff
    (timecode : Int)
    (isPositive : 0 < packetizer.wantedDisplacement)
    (plays : 0 < packet.duration.getD 0)
    (fits : packetizer.wantedDisplacement + packet.duration.getD 0 / 2 ≤ greatestDisplacement)
    (takes : ∀ earlier packet, packetizer.sink.policy (earlier ++ [.process packet]) = none) :
    (∃ count : Nat, ∃ after, packetizer.sendCopies packet timecode = (.ok (), after)
        ∧ after.displacement = packetizer.displacement + count * packet.duration.getD 0
        ∧ after.displacement ≤ greatestDisplacement
        ∧ after.IsFilled (packet.duration.getD 0))
      ↔ ¬ packetizer.IsPast (packet.duration.getD 0) := by
  constructor
  · rintro ⟨_, after, sent, -, -, filled⟩ isPast
    obtain ⟨count, copies, -⟩ := exists_copies_of_ok sent
    rw [copies.last_eq] at filled
    exact not_isFilled_withCopies isPast (Int.le_of_lt plays) _ _ filled
  · intro notPast
    obtain ⟨count, last, copies, ends⟩ := packetizer.exists_copies packet timecode
    cases ends with
    | refused _ answer _ =>
        have agreed := Journal.fst_process_of_takes (copies.policy ▸ takes)
          (marked (last.retimed packet timecode))
        rw [answer] at agreed
        cases agreed
    | enough unwanted sent =>
        have lastNotPast := copies.not_isPast notPast
        have grown : last.displacement
            = packetizer.displacement + count * packet.duration.getD 0 := by
          rw [copies.last_eq]
          rfl
        have kept : last.wantedDisplacement = packetizer.wantedDisplacement := by
          rw [copies.last_eq]
          rfl
        have filled : last.IsFilled (packet.duration.getD 0) := by
          rcases isFilled_or_of_unwanted (kept ▸ isPositive) plays unwanted with filled | exhausted
          · exact filled
          · unfold IsPast at lastNotPast
            unfold IsFilled
            omega
        refine ⟨count, last, sent, grown, ?_, filled⟩
        unfold IsFilled at filled
        omega

/-- A sync stage that is to delay a track by 30. -/
def delaying : Packetizer Journal :=
  ofSettings { Sync.Settings.unchanged with displacement := 30 } .accepting

/-- A packet that is longer than the delay. -/
def longPacket : Packet :=
  { Packet.ofPayload [0, 0, 0, 0] with timecode := some 0, duration := some 40 }

theorem exists_isFilled_longPacket :
    ∃ count : Nat, ∃ after, delaying.sendCopies longPacket 0 = (.ok (), after)
      ∧ after.displacement = delaying.displacement + count * longPacket.duration.getD 0
      ∧ after.displacement ≤ greatestDisplacement
      ∧ after.IsFilled (longPacket.duration.getD 0) := by
  have isPositive : 0 < delaying.wantedDisplacement := by decide
  have plays : 0 < longPacket.duration.getD 0 := by decide
  have fits : delaying.wantedDisplacement + longPacket.duration.getD 0 / 2
      ≤ greatestDisplacement := by
    decide
  have notPast : ¬ delaying.IsPast (longPacket.duration.getD 0) := by
    unfold IsPast
    decide
  exact (exists_isFilled_iff 0 isPositive plays fits fun _ _ => rfl).2 notPast

/-- The copy of the long packet leaves the displacement where no number of
copies of a packet of 10 fills the surplus. -/
theorem not_exists_isFilled_behind_longPacket :
    ∃ after, delaying.process longPacket = (.ok (), after)
      ∧ ¬ ∃ count : Nat,
          (after.wantedDisplacement - (after.displacement + count * 10)).natAbs ≤ (10 : Int) / 2 := by
  have evaluated : (delaying.process longPacket).1.isOk = true
      ∧ (delaying.process longPacket).2.wantedDisplacement = 30
      ∧ (delaying.process longPacket).2.displacement = 40 := by
    decide +kernel
  obtain ⟨isOk, wanted, reached⟩ := evaluated
  obtain ⟨_, accepted⟩ := exists_of_isOk isOk
  refine ⟨_, Prod.ext accepted rfl, ?_⟩
  rw [wanted, reached]
  rintro ⟨count, filled⟩
  omega

end Journals

end MediaSplit.Packetizer

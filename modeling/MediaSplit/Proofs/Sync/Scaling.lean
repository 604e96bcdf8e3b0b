import MediaSplit.Proofs.Sync.Order

/-!
Contract: the speed factor of a sync stage.

Owns:
- that the factor has no say in which packets are sent: before sinks that
  accept everything, a stage sends what it would send without its factor, with
  every instant scaled;
- that packets that go forward leave every stage in this order, as long as the
  scaled instants fit in 64 bits.
-/

set_option autoImplicit false

namespace MediaSplit

/-- The packet with every instant scaled. -/
def Packet.scaled (factor : Time.Linear) (packet : Packet) : Packet :=
  { packet with
    timecode := packet.timecode.map factor.apply
    duration := packet.duration.map factor.apply
    backwardReference := packet.backwardReference.map factor.apply
    forwardReference := packet.forwardReference.map factor.apply }

namespace Packetizer

/-- The same stage without its speed factor, in front of another sink. -/
def unscaled (packetizer : Packetizer Journal) (sink : Journal) : Packetizer Journal :=
  { packetizer with sink := sink, linear := .identity }

/-- The first journal has accepted the packets of the second, scaled, and
neither refuses a packet. -/
structure Scales (factor : Time.Linear) (journal plain : Journal) : Prop where
  accepted : journal.accepted = plain.accepted.map (·.scaled factor)
  takes : ∀ earlier packet, journal.policy (earlier ++ [.process packet]) = none
  plainTakes : ∀ earlier packet, plain.policy (earlier ++ [.process packet]) = none

variable {packetizer : Packetizer Journal} {sink : Journal} {factor : Time.Linear}
  {packet : Packet} {timecode : Int}

theorem Scales.process
    {journal plain : Journal}
    (scales : Scales factor journal plain)
    (packet : Packet) :
    (PacketSink.process journal (packet.scaled factor)).1 = .ok ()
      ∧ (PacketSink.process plain packet).1 = .ok ()
      ∧ Scales factor (PacketSink.process journal (packet.scaled factor)).2
          (PacketSink.process plain packet).2 := by
  have answered := Journal.fst_process_of_takes scales.takes (packet.scaled factor)
  have plainAnswered := Journal.fst_process_of_takes scales.plainTakes packet
  have accepted := journal.accepted_process (packet.scaled factor)
  have plainAccepted := plain.accepted_process packet
  rw [answered] at accepted
  rw [plainAnswered] at plainAccepted
  refine ⟨answered, plainAnswered, ?_, scales.takes, scales.plainTakes⟩
  rw [accepted, plainAccepted, scales.accepted, List.map_append]
  rfl

theorem retimed_eq_scaled (packetizer : Packetizer Journal) (sink : Journal) (packet : Packet)
    (timecode : Int) :
    packetizer.retimed packet timecode
      = ((packetizer.unscaled sink).retimed packet timecode).scaled packetizer.linear := by
  have shifted : packetizer.linear.apply ∘ (packetizer.unscaled sink).shifted
      = packetizer.shifted := rfl
  have plain : packetizer.linear.apply ∘ (packetizer.unscaled sink).linear.apply
      = packetizer.linear.apply := rfl
  simp only [retimed, Packet.scaled, Option.map_map, shifted, plain, Option.map_some]
  rfl

/-! ## One call -/

/-- The two replies are those of one stage with and without its factor, when
nothing is refused. -/
structure Agree (factor : Time.Linear) (reply plain : Reply (Packetizer Journal)) : Prop where
  isOk : reply.1 = .ok ()
  plainIsOk : plain.1 = .ok ()
  linear : reply.2.linear = factor
  scales : ∃ sink, plain.2 = reply.2.unscaled sink ∧ Scales factor reply.2.sink sink

theorem agree_offer
    (packetizer : Packetizer Journal)
    (scales : Scales packetizer.linear packetizer.sink sink)
    (packet : Packet) :
    Agree packetizer.linear (packetizer.offer (packet.scaled packetizer.linear))
      ((packetizer.unscaled sink).offer packet) := by
  obtain ⟨answered, plainAnswered, after⟩ := scales.process packet
  exact ⟨answered, plainAnswered, rfl, _, rfl, after⟩

theorem Copies.exists_unscaled
    {count : Nat}
    {last : Packetizer Journal}
    (copies : Copies packet timecode count packetizer last)
    (scales : Scales packetizer.linear packetizer.sink sink) :
    ∃ lastSink, Scales packetizer.linear last.sink lastSink
      ∧ (packetizer.unscaled sink).sendCopies packet timecode
        = (last.unscaled lastSink).sendCopies packet timecode := by
  induction copies generalizing sink with
  | none => exact ⟨sink, scales, rfl⟩
  | @more count packetizer last after wanted accepted rest inductionHypothesis =>
      have copy : marked (packetizer.retimed packet timecode)
          = (marked ((packetizer.unscaled sink).retimed packet timecode)).scaled
              packetizer.linear := by
        rw [packetizer.retimed_eq_scaled sink]
        rfl
      obtain ⟨-, answered, scalesAfter⟩ :=
        scales.process (marked ((packetizer.unscaled sink).retimed packet timecode))
      rw [← copy, accepted] at scalesAfter
      obtain ⟨lastSink, scalesLast, same⟩ := inductionHypothesis scalesAfter
      have plainWanted : (packetizer.unscaled sink).wantsCopy (packet.duration.getD 0) = true :=
        wanted
      exact ⟨lastSink, scalesLast,
        (sendCopies_of_accepted plainWanted (Prod.ext answered rfl)).trans same⟩

theorem agree_sendCopies
    (scales : Scales packetizer.linear packetizer.sink sink)
    (packet : Packet)
    (timecode : Int) :
    Agree packetizer.linear (packetizer.sendCopies packet timecode)
      ((packetizer.unscaled sink).sendCopies packet timecode) := by
  obtain ⟨count, last, copies, ends⟩ := packetizer.exists_copies packet timecode
  obtain ⟨lastSink, scalesLast, same⟩ := copies.exists_unscaled scales
  cases ends with
  | refused _ answer _ =>
      have taken := Journal.fst_process_of_takes scalesLast.takes
        (marked (last.retimed packet timecode))
      rw [answer] at taken
      cases taken
  | enough unwanted sent =>
      have plainUnwanted : (last.unscaled lastSink).wantsCopy (packet.duration.getD 0) = false :=
        unwanted
      rw [sent, same, sendCopies_of_unwanted plainUnwanted]
      exact ⟨rfl, rfl, copies.linear_eq, lastSink, rfl, scalesLast⟩

theorem agree_sendItself
    (scales : Scales packetizer.linear packetizer.sink sink)
    (packet : Packet)
    (timecode : Int) :
    Agree packetizer.linear (packetizer.sendItself packet timecode)
      ((packetizer.unscaled sink).sendItself packet timecode) := by
  unfold sendItself
  rw [show (packetizer.unscaled sink).awaitsKeyframe = packetizer.awaitsKeyframe from rfl]
  by_cases waits : (packetizer.awaitsKeyframe && !packet.isKeyframe && packet.isDroppable) = true
  · rw [if_pos waits, if_pos waits]
    exact ⟨rfl, rfl, rfl, sink, rfl, scales⟩
  · rw [if_neg waits, if_neg waits]
    dsimp only
    rw [retimed_eq_scaled _ sink]
    exact agree_offer { packetizer with
      awaitsKeyframe := packetizer.awaitsKeyframe && !packet.isKeyframe } scales _

theorem completed_unscaled (packetizer : Packetizer Journal) (sink : Journal) (packet : Packet) :
    (packetizer.unscaled sink).completed packet
      = ((packetizer.completed packet).1, (packetizer.completed packet).2.1,
          (packetizer.completed packet).2.2.unscaled sink) := by
  unfold completed
  rw [show (packetizer.unscaled sink).timecodes = packetizer.timecodes from rfl]
  cases packetizer.timecodes <;> rfl

theorem agree_process (scales : Scales packetizer.linear packetizer.sink sink) (packet : Packet) :
    Agree packetizer.linear (packetizer.process packet)
      ((packetizer.unscaled sink).process packet) := by
  have plainCompleted := (packetizer.counting packet).completed_unscaled sink packet
  obtain ⟨timecode, duration, warnings, completed, -⟩ :=
    (packetizer.counting packet).completed_eq packet
  unfold process
  rw [show (packetizer.unscaled sink).counting packet = (packetizer.counting packet).unscaled sink
    from rfl, plainCompleted, completed]
  dsimp only
  generalize isReady : ({ packetizer.counting packet with
    timecodes := _, lastTimecode := _, lastDuration := _, warnings := _ } : Packetizer Journal)
      = ready
  have linear : ready.linear = packetizer.linear := by rw [← isReady]; rfl
  have scalesReady : Scales ready.linear ready.sink sink := by rw [← isReady]; exact scales
  rw [← linear, show (ready.unscaled sink).isInDeficit = ready.isInDeficit from rfl]
  split
  · exact ⟨rfl, rfl, rfl, sink, rfl, scalesReady⟩
  · have copied := agree_sendCopies scalesReady { packet with duration := duration } timecode
    generalize ready.sendCopies _ timecode = reply at copied ⊢
    generalize (ready.unscaled sink).sendCopies _ timecode = plainReply at copied ⊢
    obtain ⟨isOk, plainIsOk, sameLinear, after, isPlain, scalesAfter⟩ := copied
    obtain ⟨_, last⟩ := reply
    obtain ⟨_, plain⟩ := plainReply
    subst isOk plainIsOk isPlain
    rw [← sameLinear] at scalesAfter ⊢
    exact agree_sendItself scalesAfter _ timecode

theorem scales_processAll
    (scales : Scales packetizer.linear packetizer.sink sink)
    (packets : List Packet) :
    Scales packetizer.linear (packetizer.processAll packets).2.sink
      ((packetizer.unscaled sink).processAll packets).2.sink := by
  induction packets generalizing packetizer sink with
  | nil => exact scales
  | cons packet rest inductionHypothesis =>
      obtain ⟨-, -, linear, after, plain, scalesAfter⟩ := agree_process scales packet
      rw [← linear] at scalesAfter
      have later := inductionHypothesis scalesAfter
      rw [← plain, linear] at later
      exact later

/-! ## The order of what is sent -/

/-- Packets that go forward leave a stage without external timecodes in this
order, copies included. The instants before scaling are those that the stage
sends without its factor. -/
theorem exists_pairwise_timecodes
    {packetizer : Packetizer Journal}
    {packets : List Packet}
    (fresh : packetizer.IsFresh)
    (unstarted : packetizer.lastTimecode = none)
    (own : packetizer.timecodes = none)
    (defaultPlays : ∀ duration ∈ packetizer.defaultDuration, 0 ≤ duration)
    (takes : ∀ earlier packet, packetizer.sink.policy (earlier ++ [.process packet]) = none)
    (forward : Sync.AreForward packetizer.defaultDuration none packets)
    (fits : ∀ packet ∈ ((packetizer.unscaled .accepting).processAll packets).2.sink.accepted,
      ∀ instant ∈ packet.timecode, packetizer.linear.Fits instant) :
    ∃ timecodes : List Int,
      (packetizer.processAll packets).2.sink.accepted.map (·.timecode) = timecodes.map some
        ∧ timecodes.Pairwise (· ≤ ·) := by
  have begins : (packetizer.unscaled .accepting).InOrder packetizer.defaultDuration none :=
    { plain := rfl
      own := own
      defaultDuration := rfl
      stops := by
        show packetizer.lastTimecode.map _ = none
        rw [unstarted, Option.map_none]
      runs := fun _ _ => Journal.runsUpTo_of_nothing rfl _ }
  obtain ⟨stop, ended⟩ := begins.processAll defaultPlays forward
  obtain ⟨instants, areTimecodes, sorted, -⟩ :=
    ended.runs (stop.getD 0) (by rintro last rfl; exact Int.le_refl _)
  have scales : Scales packetizer.linear packetizer.sink .accepting :=
    ⟨fresh.accepted, takes, fun _ _ => rfl⟩
  have accepted := (scales_processAll scales packets).accepted
  have fitting : ∀ instant ∈ instants, packetizer.linear.Fits instant := by
    intro instant member
    have isTimecode : some instant ∈ instants.map some := List.mem_map_of_mem member
    rw [← areTimecodes] at isTimecode
    obtain ⟨packet, isAccepted, timecode⟩ := List.mem_map.1 isTimecode
    exact fits packet isAccepted instant timecode
  refine ⟨instants.map packetizer.linear.apply, ?_, ?_⟩
  · calc (packetizer.processAll packets).2.sink.accepted.map (·.timecode)
        = (((packetizer.unscaled .accepting).processAll packets).2.sink.accepted.map
            (·.timecode)).map (·.map packetizer.linear.apply) := by
          rw [accepted, List.map_map, List.map_map]
          rfl
      _ = (instants.map packetizer.linear.apply).map some := by
          rw [areTimecodes, List.map_map, List.map_map]
          rfl
  · refine List.pairwise_map.2 (sorted.imp_of_mem ?_)
    intro earlier later isEarlier isLater ordered
    rw [Time.Linear.apply_eq_scaled (fitting earlier isEarlier),
      Time.Linear.apply_eq_scaled (fitting later isLater)]
    exact packetizer.linear.scaled_mono ordered

/-- A stage that is to delay a track by 100 and to slow it down by half. -/
def slowing : Packetizer Journal :=
  let factor : Time.Linear := ⟨3, 2, by decide, by decide⟩
  (ofSettings { Sync.Settings.unchanged with displacement := 100, linear := factor }
    .accepting).withDefaultDuration (some 30)

/-- Three packets, the second of which comes late. -/
def latePackets : List Packet :=
  [.ofPayload [0], { longPacket with timecode := some 45 }, .ofPayload []]

theorem exists_pairwise_timecodes_slowing :
    ∃ timecodes : List Int,
      (slowing.processAll latePackets).2.sink.accepted.map (·.timecode) = timecodes.map some
        ∧ timecodes.Pairwise (· ≤ ·) := by
  have forward : Sync.AreForward slowing.defaultDuration none latePackets := by
    simp [Sync.AreForward, Packet.startBehind, slowing, latePackets, longPacket,
      withDefaultDuration, Packet.ofPayload]
  have defaultPlays : ∀ duration ∈ slowing.defaultDuration, 0 ≤ duration := by
    decide
  have fits : ∀ packet ∈ ((slowing.unscaled .accepting).processAll latePackets).2.sink.accepted,
      ∀ instant ∈ packet.timecode, slowing.linear.Fits instant := by
    decide +kernel
  exact exists_pairwise_timecodes ⟨rfl, rfl, rfl⟩ rfl rfl defaultPlays (fun _ _ => rfl) forward
    fits

end Packetizer

end MediaSplit

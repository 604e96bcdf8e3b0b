import MediaSplit.Proofs.Sync.Order

/-!
Contract: how packets of one duration fill a positive displacement.

Owns:
- `Sync.IsNearest`, a quotient to the nearest whole number, a half going down,
  and `Sync.copiesToFill`, which computes it;
- `Packet.delayed`, a packet moved to a later time and then scaled;
- `Packetizer.FillsAtOnce`, which holds of every stage whose packets all play
  equally long: the first one is repeated as often as the quotient says, and no
  other is.

Does **not** own: packets of several durations. The copies of one of them may
carry the displacement too far for those behind it.

The stage compares with half a duration that is cut to a whole number. An odd
duration has no half to go down, so cutting it changes nothing.
-/

set_option autoImplicit false

namespace MediaSplit

/-- The packet, which starts at `start` and plays for `duration`, moved by
`delay` and then scaled. -/
def Packet.delayed
    (packet : Packet)
    (factor : Time.Linear)
    (start duration delay : Int) : Packet :=
  { packet with
    timecode := some (factor.apply (start + delay))
    duration := some (factor.apply duration)
    backwardReference := packet.backwardReference.map fun instant => factor.apply (instant + delay)
    forwardReference := packet.forwardReference.map fun instant => factor.apply (instant + delay) }

/-! ## The number of copies -/

namespace Sync

/-- Whether `count` is the quotient of two numbers to the nearest whole number,
a half going down. -/
structure IsNearest (dividend divisor : Int) (count : Nat) : Prop where
  above : -divisor < 2 * (dividend - count * divisor)
  below : 2 * (dividend - count * divisor) ≤ divisor

/-- How often packets of this duration are to be repeated for a displacement. -/
def copiesToFill (displacement duration : Int) : Nat :=
  ((2 * displacement + duration - 1) / (2 * duration)).toNat

variable {displacement duration : Int} {count other : Nat}

theorem isNearest_copiesToFill (isPositive : 0 < displacement) (plays : 0 < duration) :
    IsNearest displacement duration (copiesToFill displacement duration) := by
  have twice : 0 < 2 * duration := by omega
  have nonneg : 0 ≤ (2 * displacement + duration - 1) / (2 * duration) :=
    Int.ediv_nonneg (by omega) (Int.le_of_lt twice)
  have whole : (copiesToFill displacement duration : Int)
      = (2 * displacement + duration - 1) / (2 * duration) := Int.toNat_of_nonneg nonneg
  have atMost := Int.mul_ediv_self_le (x := 2 * displacement + duration - 1) (Int.ne_of_gt twice)
  have below := Int.lt_mul_ediv_self_add (x := 2 * displacement + duration - 1) twice
  rw [← whole] at atMost below
  have double : 2 * duration * (copiesToFill displacement duration : Int)
      = 2 * (copiesToFill displacement duration * duration) := by
    rw [Int.mul_assoc, Int.mul_comm duration]
  exact ⟨by omega, by omega⟩

theorem mul_add_le_mul (fewer : count < other) (plays : 0 < duration) :
    count * duration + duration ≤ other * duration := by
  have next : (count : Int) + 1 ≤ other := by omega
  have scaled := Int.mul_le_mul_of_nonneg_right next (Int.le_of_lt plays)
  rwa [Int.add_mul, Int.one_mul] at scaled

theorem IsNearest.le
    (isNearest : IsNearest displacement duration count)
    (isOther : IsNearest displacement duration other)
    (plays : 0 < duration) :
    count ≤ other := by
  apply Nat.le_of_not_lt
  intro more
  have apart := mul_add_le_mul more plays
  have above := isNearest.above
  have below := isOther.below
  omega

theorem IsNearest.unique
    (isNearest : IsNearest displacement duration count)
    (isOther : IsNearest displacement duration other)
    (plays : 0 < duration) :
    count = other :=
  Nat.le_antisymm (isNearest.le isOther plays) (isOther.le isNearest plays)

/-- Where packets in a row start that all play equally long. -/
def starts (duration : Int) : (stop : Option Int) → List Packet → List Int
  | _, [] => []
  | stop, packet :: rest =>
      packet.startBehind stop :: starts duration (some (packet.startBehind stop + duration)) rest

end Sync

theorem Journal.accepted_of_ok
    {journal after : Journal}
    {packet : Packet}
    (answer : PacketSink.process journal packet = (.ok (), after)) :
    after.accepted = journal.accepted ++ [packet] := by
  have accepted := journal.accepted_process packet
  rw [answer] at accepted
  exact accepted

namespace Packetizer

/-- The copies of a packet, of which each plays behind the one before. -/
def copiesOf (factor : Time.Linear) (packet : Packet) (start duration delay : Int) (count : Nat) :
    List Packet :=
  (List.range count).map fun (index : Nat) =>
    marked (packet.delayed factor start duration (delay + index * duration))

/-- The first packet, `count` copies in front of it, and the others, all moved by
as much as the copies play. -/
structure FillsAtOnce (packetizer : Packetizer Journal) (duration : Int) (first : Packet)
    (rest : List Packet) (count : Nat) : Prop where
  isNearest : Sync.IsNearest packetizer.wantedDisplacement duration count
  replies : (packetizer.processAll (first :: rest)).1 = (first :: rest).map fun _ => .ok ()
  accepted : (packetizer.processAll (first :: rest)).2.sink.accepted
    = copiesOf packetizer.linear first (first.startBehind packetizer.stop?) duration 0 count
        ++ ((first :: rest).zip (Sync.starts duration packetizer.stop? (first :: rest))).map
          fun (packet, start) =>
            packet.delayed packetizer.linear start duration (count * duration)
  isFilled : (packetizer.wantedDisplacement
    - (packetizer.processAll (first :: rest)).2.displacement).natAbs ≤ duration / 2

variable {packetizer ready last after : Packetizer Journal} {packet : Packet} {timecode : Int}
  {duration : Int} {count : Nat}

/-! ## Copies of one packet -/

theorem retimed_eq_delayed (packetizer : Packetizer Journal) (packet : Packet)
    (timecode duration : Int) :
    packetizer.retimed { packet with duration := some duration } timecode
      = packet.delayed packetizer.linear timecode duration packetizer.displacement := rfl

theorem copiesOf_succ (factor : Time.Linear) (packet : Packet) (start duration delay : Int)
    (count : Nat) :
    copiesOf factor packet start duration delay (count + 1)
      = marked (packet.delayed factor start duration delay)
        :: copiesOf factor packet start duration (delay + duration) count := by
  unfold copiesOf
  rw [List.range_succ_eq_map, List.map_cons, List.map_map]
  congr 2
  · simp
  · funext index
    have further : delay + ((index + 1 : Nat) : Int) * duration
        = delay + duration + index * duration := by
      rw [Int.natCast_add, Int.add_mul, Int.natCast_one, Int.one_mul]
      omega
    exact congrArg (fun delay => marked (packet.delayed factor start duration delay)) further

theorem Copies.accepted
    (copies : Copies { packet with duration := some duration } timecode count packetizer last) :
    last.sink.accepted
      = packetizer.sink.accepted
        ++ copiesOf packetizer.linear packet timecode duration packetizer.displacement count := by
  induction copies with
  | none => exact (List.append_nil _).symm
  | @more count packetizer last sink wanted answer rest inductionHypothesis =>
      have first := Journal.accepted_of_ok answer
      rw [retimed_eq_delayed] at first
      have later : last.sink.accepted = sink.accepted
          ++ copiesOf packetizer.linear packet timecode duration
            (packetizer.displacement + (1 : Nat) * duration) count := inductionHypothesis
      rw [later, first, copiesOf_succ, Int.natCast_one, Int.one_mul, List.append_assoc]
      rfl

/-- The copies never carry the displacement half a packet too far. -/
theorem Copies.twice_lt
    (copies : Copies { packet with duration := some duration } timecode count packetizer last)
    (short : 2 * (packetizer.displacement - packetizer.wantedDisplacement) < duration) :
    2 * (last.displacement - last.wantedDisplacement) < duration := by
  induction copies with
  | none => exact short
  | more wanted _ _ inductionHypothesis =>
      apply inductionHypothesis
      simp only [wantsCopy, isInSurplus, Bool.and_eq_true, decide_eq_true_eq, Option.getD_some]
        at wanted
      simp only [withCopies, Option.getD_some]
      omega

/-! ## One call -/

/-- A stage that is to delay a track, has nothing to wait for, and whose sink
takes every packet. -/
structure Delaying (packetizer : Packetizer Journal) (default : Option Int) : Prop where
  isPositive : 0 < packetizer.wantedDisplacement
  own : packetizer.timecodes = none
  defaultDuration : packetizer.defaultDuration = default
  noWait : packetizer.awaitsKeyframe = false
  takes : ∀ earlier packet, packetizer.sink.policy (earlier ++ [.process packet]) = none

/-- A call that has sent `count` copies and then the packet itself. -/
structure Sends (before : Packetizer Journal) (packet : Packet) (duration : Int) (count : Nat)
    (after : Packetizer Journal) : Prop where
  accepted : after.sink.accepted
    = before.sink.accepted
      ++ copiesOf before.linear packet (packet.startBehind before.stop?) duration
        before.displacement count
      ++ [packet.delayed before.linear (packet.startBehind before.stop?) duration
        after.displacement]
  displacement : after.displacement = before.displacement + count * duration
  wanted : after.wantedDisplacement = before.wantedDisplacement
  linear : after.linear = before.linear
  stop : after.stop? = some (packet.startBehind before.stop? + duration)

/-- Where nothing is refused, copies are sent until no more is wanted. -/
theorem exists_copies_of_takes
    (packet : Packet)
    (timecode : Int)
    (takes : ∀ earlier packet, packetizer.sink.policy (earlier ++ [.process packet]) = none) :
    ∃ count last, Copies packet timecode count packetizer last
      ∧ last.wantsCopy (packet.duration.getD 0) = false
      ∧ packetizer.sendCopies packet timecode = (.ok (), last) := by
  obtain ⟨count, last, copies, ends⟩ := packetizer.exists_copies packet timecode
  cases ends with
  | enough unwanted sent => exact ⟨count, last, copies, unwanted, sent⟩
  | refused _ answer _ =>
      have taken := Journal.fst_process_of_takes (copies.policy ▸ takes)
        (marked (last.retimed packet timecode))
      rw [answer] at taken
      cases taken

/-- The stage that has counted a packet and is to handle it as one of this start
and duration. -/
def readyFor (packetizer : Packetizer Journal) (packet : Packet) (start duration : Int)
    (warnings : List Warning) : Packetizer Journal :=
  { packetizer.counting packet with
    lastTimecode := some start
    lastDuration := duration
    warnings := warnings }

theorem exists_completed_eq
    (own : packetizer.timecodes = none)
    (plays : packet.duration.or packetizer.defaultDuration = some duration) :
    ∃ warnings, (packetizer.counting packet).completed packet
      = (packet.startBehind packetizer.stop?, { packet with duration := some duration },
          packetizer.readyFor packet (packet.startBehind packetizer.stop?) duration warnings) := by
  obtain ⟨warnings, completed⟩ := (packetizer.counting packet).completed_of_own own packet
  have timed : packet.duration.or (packetizer.counting packet).defaultDuration = some duration :=
    plays
  rw [timed] at completed
  exact ⟨warnings, completed⟩

theorem sendItself_of_noWait
    (noWait : packetizer.awaitsKeyframe = false)
    (packet : Packet)
    (timecode : Int) :
    packetizer.sendItself packet timecode
      = packetizer.offer (packetizer.retimed packet timecode) := by
  have still : ({ packetizer with
      awaitsKeyframe := packetizer.awaitsKeyframe && !packet.isKeyframe } : Packetizer Journal)
        = packetizer := by
    rw [noWait, Bool.false_and, ← noWait]
  unfold sendItself
  rw [if_neg (by simp [noWait])]
  dsimp only
  rw [still]

/-- Each packet is sent behind its copies. -/
theorem Delaying.exists_process_eq
    {default : Option Int}
    (delaying : packetizer.Delaying default)
    (plays : packet.duration.or default = some duration) :
    ∃ count last warnings,
      Copies { packet with duration := some duration } (packet.startBehind packetizer.stop?) count
          (packetizer.readyFor packet (packet.startBehind packetizer.stop?) duration warnings) last
        ∧ last.wantsCopy duration = false
        ∧ packetizer.process packet
          = last.offer (packet.delayed last.linear (packet.startBehind packetizer.stop?) duration
              last.displacement) := by
  obtain ⟨isPositive, own, rfl, noWait, takes⟩ := delaying
  obtain ⟨warnings, completed⟩ := exists_completed_eq own plays
  generalize packet.startBehind packetizer.stop? = start at completed ⊢
  have stillTakes : ∀ earlier other,
      (packetizer.readyFor packet start duration warnings).sink.policy
        (earlier ++ [.process other]) = none := takes
  obtain ⟨count, last, copies, unwanted, sent⟩ :=
    exists_copies_of_takes { packet with duration := some duration } start stillTakes
  have stillNoWait : last.awaitsKeyframe = false := by
    rw [copies.last_eq]
    exact noWait
  have noDeficit : (packetizer.readyFor packet start duration warnings).isInDeficit = false := by
    have notNegative : ¬ packetizer.wantedDisplacement < 0 :=
      Int.not_lt.2 (Int.le_of_lt isPositive)
    exact Bool.and_eq_false_iff.2 (.inl (decide_eq_false notNegative))
  refine ⟨count, last, warnings, copies, unwanted, ?_⟩
  unfold process
  rw [completed]
  dsimp only
  rw [noDeficit, Bool.and_false, if_neg Bool.false_ne_true, sent]
  exact sendItself_of_noWait stillNoWait _ _

/-- The loop stops where the displacement is nearest, if it can get there. -/
theorem Copies.count_eq
    {other : Nat}
    (copies : Copies { packet with duration := some duration } timecode count packetizer last)
    (unwanted : last.wantsCopy duration = false)
    (isPositive : 0 < packetizer.wantedDisplacement)
    (plays : 0 < duration)
    (isNearest : Sync.IsNearest
      (packetizer.wantedDisplacement - packetizer.displacement) duration other)
    (fits : packetizer.displacement + other * duration ≤ greatestDisplacement) :
    count = other := by
  have nonneg : 0 ≤ other * duration :=
    Int.mul_nonneg (Int.natCast_nonneg other) (Int.le_of_lt plays)
  have above := isNearest.above
  have below := isNearest.below
  have notTooFar := copies.twice_lt (by omega)
  have wanted : last.wantedDisplacement = packetizer.wantedDisplacement := by
    rw [copies.last_eq]
    rfl
  have grown : last.displacement = packetizer.displacement + count * duration := by
    rw [copies.last_eq]
    rfl
  have ends := isFilled_or_of_unwanted (wanted ▸ isPositive) plays unwanted
  unfold IsFilled at ends
  rw [wanted, grown] at notTooFar ends
  refine Sync.IsNearest.unique ⟨by omega, ?_⟩ isNearest plays
  rcases ends with filled | exhausted
  · omega
  · by_cases fewer : count < other
    · have apart := Sync.mul_add_le_mul fewer plays
      omega
    · have atLeast : (other : Int) ≤ count := by omega
      have further := Int.mul_le_mul_of_nonneg_right atLeast (Int.le_of_lt plays)
      omega

/-- A packet is sent behind as many copies as bring the displacement nearest. -/
theorem Delaying.exists_sends
    {default : Option Int}
    (delaying : packetizer.Delaying default)
    (isTimed : packet.duration.or default = some duration)
    (plays : 0 < duration)
    (isNearest : Sync.IsNearest
      (packetizer.wantedDisplacement - packetizer.displacement) duration count)
    (fits : packetizer.displacement + count * duration ≤ greatestDisplacement) :
    ∃ after, packetizer.process packet = (.ok (), after)
      ∧ Sends packetizer packet duration count after
      ∧ after.Delaying default := by
  obtain ⟨_, last, warnings, copies, unwanted, called⟩ := delaying.exists_process_eq isTimed
  obtain rfl := copies.count_eq unwanted delaying.isPositive plays isNearest fits
  have same := copies.last_eq
  have takes : ∀ earlier packet, last.sink.policy (earlier ++ [.process packet]) = none := by
    rw [copies.policy]
    exact delaying.takes
  generalize isSent : packet.delayed last.linear (packet.startBehind packetizer.stop?) duration
    last.displacement = sent at called
  have answer : PacketSink.process last.sink sent
      = (.ok (), (PacketSink.process last.sink sent).2) :=
    Prod.ext (Journal.fst_process_of_takes takes sent) rfl
  generalize (PacketSink.process last.sink sent).2 = sink at answer
  refine ⟨{ last with sink := sink }, ?_, ?_, ?_⟩
  · rw [called, offer, answer]
  · have linear : last.linear = packetizer.linear := copies.linear_eq
    have copied := copies.accepted
    constructor
    case accepted =>
      rw [Journal.accepted_of_ok answer, copied, ← isSent, linear]
      rfl
    case displacement =>
      show last.displacement = _
      rw [same]
      rfl
    case wanted =>
      show last.wantedDisplacement = _
      rw [same]
      rfl
    case linear => exact linear
    case stop =>
      show last.stop? = _
      rw [same]
      rfl
  · have policy : sink.policy = last.sink.policy :=
      congrArg (fun reply => reply.2.policy) answer.symm
    rw [← policy] at takes
    constructor
    case takes => exact takes
    case isPositive =>
      show 0 < last.wantedDisplacement
      rw [same]
      exact delaying.isPositive
    case own =>
      show last.timecodes = none
      rw [same]
      exact delaying.own
    case defaultDuration =>
      show last.defaultDuration = default
      rw [same]
      exact delaying.defaultDuration
    case noWait =>
      show last.awaitsKeyframe = false
      rw [same]
      exact delaying.noWait

/-! ## Calls in a row -/

/-- A stage that has sent every packet once, all moved by the same displacement. -/
structure PassesAll (before : Packetizer Journal) (duration : Int) (packets : List Packet) :
    Prop where
  replies : (before.processAll packets).1 = packets.map fun _ => .ok ()
  accepted : (before.processAll packets).2.sink.accepted
    = before.sink.accepted
      ++ (packets.zip (Sync.starts duration before.stop? packets)).map
        fun (packet, start) =>
          packet.delayed before.linear start duration before.displacement
  displacement : (before.processAll packets).2.displacement = before.displacement

/-- Once the displacement is nearest, no packet is copied any more. -/
theorem Delaying.passesAll
    {default : Option Int}
    {packets : List Packet}
    (delaying : packetizer.Delaying default)
    (areTimed : ∀ packet ∈ packets, packet.duration.or default = some duration)
    (plays : 0 < duration)
    (isNearest : Sync.IsNearest
      (packetizer.wantedDisplacement - packetizer.displacement) duration 0)
    (fits : packetizer.displacement ≤ greatestDisplacement) :
    packetizer.PassesAll duration packets := by
  induction packets generalizing packetizer with
  | nil => exact ⟨rfl, (List.append_nil _).symm, rfl⟩
  | cons packet rest inductionHypothesis =>
      obtain ⟨isTimed, areTimed⟩ := List.forall_mem_cons.1 areTimed
      obtain ⟨after, called, sends, delayingAfter⟩ :=
        delaying.exists_sends isTimed plays isNearest (by omega)
      obtain ⟨accepted, displacement, wanted, linear, stop⟩ := sends
      have still : after.displacement = packetizer.displacement := by omega
      have later := inductionHypothesis delayingAfter areTimed (by rwa [wanted, still])
        (by rwa [still])
      constructor
      case replies =>
        simp only [processAll, called, later.replies, List.map_cons]
      case accepted =>
        simp only [processAll, called]
        rw [later.accepted, accepted, linear, stop, still]
        simp [copiesOf, Sync.starts]
      case displacement =>
        simp only [processAll, called]
        rw [later.displacement, still]

/-- The first packet fills the displacement as well as packets of this duration
can, if that does not carry it beyond what can be represented. -/
theorem fillsAtOnce_processAll
    {first : Packet}
    {rest : List Packet}
    (fresh : packetizer.IsFresh)
    (isPositive : 0 < packetizer.wantedDisplacement)
    (own : packetizer.timecodes = none)
    (takes : ∀ earlier packet, packetizer.sink.policy (earlier ++ [.process packet]) = none)
    (plays : 0 < duration)
    (areTimed : ∀ packet ∈ first :: rest,
      packet.duration.or packetizer.defaultDuration = some duration)
    (fits : Sync.copiesToFill packetizer.wantedDisplacement duration * duration
      ≤ greatestDisplacement) :
    packetizer.FillsAtOnce duration first rest
      (Sync.copiesToFill packetizer.wantedDisplacement duration) := by
  have isNearest := Sync.isNearest_copiesToFill isPositive plays
  generalize Sync.copiesToFill packetizer.wantedDisplacement duration = count at isNearest fits ⊢
  have still : packetizer.displacement = 0 := congrArg Sync.Standing.displacement fresh.standing
  have noWait : packetizer.awaitsKeyframe = false :=
    congrArg Sync.Standing.awaitsKeyframe fresh.standing
  have delaying : packetizer.Delaying packetizer.defaultDuration :=
    ⟨isPositive, own, rfl, noWait, takes⟩
  obtain ⟨isTimed, areTimed⟩ := List.forall_mem_cons.1 areTimed
  have missing : Sync.IsNearest (packetizer.wantedDisplacement - packetizer.displacement) duration
      count := by
    rwa [still, Int.sub_zero]
  obtain ⟨after, called, sends, delayingAfter⟩ :=
    delaying.exists_sends isTimed plays missing (by rwa [still, Int.zero_add])
  obtain ⟨accepted, displacement, wanted, linear, stop⟩ := sends
  rw [still, Int.zero_add] at displacement
  have above := isNearest.above
  have below := isNearest.below
  have reached : Sync.IsNearest (after.wantedDisplacement - after.displacement) duration 0 := by
    rw [wanted, displacement]
    exact ⟨by omega, by omega⟩
  have passes := delayingAfter.passesAll areTimed plays reached (by rwa [displacement])
  constructor
  case isNearest => exact isNearest
  case replies =>
    simp only [processAll, called, passes.replies, List.map_cons]
  case accepted =>
    simp only [processAll, called]
    rw [passes.accepted, accepted, fresh.accepted, linear, stop, still, displacement]
    simp [Sync.starts]
  case isFilled =>
    simp only [processAll, called]
    rw [passes.displacement, displacement]
    omega

/-- A stage that is to delay a track by two packets and a half, and to slow it
down by a quarter. -/
def halfBehind : Packetizer Journal :=
  let factor : Time.Linear := ⟨5, 4, by decide, by decide⟩
  (ofSettings { Sync.Settings.unchanged with displacement := 25, linear := factor }
    .accepting).withDefaultDuration (some 10)

/-- The half packet is left out, so there are two copies. -/
theorem fillsAtOnce_processAll_halfBehind :
    halfBehind.FillsAtOnce 10 { Packet.ofPayload [1] with timecode := some 40 }
      [.ofPayload [2], { Packet.ofPayload [3] with duration := some 10 }] 2 := by
  have areTimed : ∀ packet ∈ [{ Packet.ofPayload [1] with timecode := some 40 },
      .ofPayload [2], { Packet.ofPayload [3] with duration := some 10 }],
      packet.duration.or halfBehind.defaultDuration = some 10 := by
    decide
  have fits : Sync.copiesToFill halfBehind.wantedDisplacement 10 * 10 ≤ greatestDisplacement := by
    decide
  exact fillsAtOnce_processAll ⟨rfl, rfl, rfl⟩ (by decide) rfl (fun _ _ => rfl) (by decide)
    areTimed fits

end Packetizer

end MediaSplit

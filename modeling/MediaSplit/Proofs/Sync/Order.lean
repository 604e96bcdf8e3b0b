import MediaSplit.Proofs.Sync.Ledger
import MediaSplit.Proofs.Time.Linear

/-!
Contract: the order of the packets behind a sync stage.

Owns:
- `Sync.AreForward`, packets of which none starts before the one before it
  ends;
- that such packets leave a stage without a speed factor in this order, copies
  included, whatever the sink refuses.

A dropped packet takes from the displacement what it would have played, and a
copy adds what it plays. So the end of the last packet, shifted by the
displacement so far, is never before a timecode that has been sent: this is
what `Packetizer.InOrder` says, and what each call keeps.
-/

set_option autoImplicit false

namespace MediaSplit

/-! ## Packets that go forward -/

/-- Where a packet starts that follows another one. -/
def Packet.startBehind (packet : Packet) (stop : Option Int) : Int :=
  packet.timecode.getD (stop.getD 0)

/-- A packet with a timecode starts where the one before it ends or later, and
none lasts a negative time. -/
def Sync.AreForward (default : Option Int) : (stop : Option Int) → List Packet → Prop
  | _, [] => True
  | stop, packet :: rest =>
      (∀ timecode ∈ packet.timecode, ∀ last ∈ stop, last ≤ timecode)
        ∧ (∀ duration ∈ packet.duration, 0 ≤ duration)
        ∧ AreForward default
            (some (packet.startBehind stop + (packet.duration.or default).getD 0)) rest

/-! ## Timecodes that a sink has seen -/

/-- The accepted packets have timecodes that never decrease and do not exceed
`bound`. -/
def Journal.RunsUpTo (journal : Journal) (bound : Int) : Prop :=
  ∃ instants : List Int, journal.accepted.map (·.timecode) = instants.map some
    ∧ instants.Pairwise (· ≤ ·) ∧ ∀ instant ∈ instants, instant ≤ bound

namespace Journal

variable {journal after : Journal} {bound later : Int} {packet : Packet}
  {reply : Except Fault Unit}

theorem runsUpTo_of_nothing (nothing : journal.accepted = []) (bound : Int) :
    journal.RunsUpTo bound :=
  ⟨[], by rw [nothing]; rfl, List.Pairwise.nil, nofun⟩

theorem RunsUpTo.mono (runs : journal.RunsUpTo bound) (ordered : bound ≤ later) :
    journal.RunsUpTo later := by
  obtain ⟨instants, same, sorted, within⟩ := runs
  refine ⟨instants, same, sorted, ?_⟩
  intro instant member
  exact Int.le_trans (within instant member) ordered

/-- A packet at the bound may follow, whether it is accepted or not. -/
theorem RunsUpTo.process
    (runs : journal.RunsUpTo bound)
    (atBound : packet.timecode = some bound)
    (answer : PacketSink.process journal packet = (reply, after)) :
    after.RunsUpTo bound := by
  obtain ⟨instants, same, sorted, within⟩ := runs
  have accepted := journal.accepted_process packet
  rw [answer] at accepted
  by_cases isOk : reply.isOk = true
  · rw [if_pos isOk] at accepted
    refine ⟨instants ++ [bound], ?_, ?_, ?_⟩
    · rw [accepted, List.map_append, List.map_append, same, List.map_singleton, atBound,
        List.map_singleton]
    · rw [List.pairwise_append]
      refine ⟨sorted, List.pairwise_singleton _ _, ?_⟩
      intro instant member last isLast
      rw [List.mem_singleton.1 isLast]
      exact within instant member
    · intro instant member
      rcases List.mem_append.1 member with before | last
      · exact within instant before
      · exact Int.le_of_eq (List.mem_singleton.1 last)
  · rw [if_neg isOk, List.append_nil] at accepted
    exact ⟨instants, by rw [accepted, same], sorted, within⟩

end Journal

namespace Packetizer

variable {packetizer ready last : Packetizer Journal} {packet timed : Packet} {timecode : Int}
  {count : Nat} {reply : Reply (Packetizer Journal)} {default stop : Option Int}
  {packets : List Packet}

/-! ## What a call leaves alone -/

/-- Once the timing is completed, a call has no say in anything but the sink,
the displacement, the wait and the counters. -/
theorem ProcessCase.frame (called : ProcessCase ready timed timecode reply) :
    reply.2 = { ready with
      sink := reply.2.sink
      displacement := reply.2.displacement
      awaitsKeyframe := reply.2.awaitsKeyframe
      stats := reply.2.stats } := by
  cases called with
  | paid => rfl
  | copyRefused _ copies =>
      rw [copies.last_eq]
      rfl
  | waited _ copies =>
      rw [copies.last_eq]
      rfl
  | offered _ copies =>
      rw [copies.last_eq]
      rfl

/-- Where the last packet ends. -/
def stop? (packetizer : Packetizer Journal) : Option Int :=
  packetizer.lastTimecode.map (· + packetizer.lastDuration)

theorem completed_of_own
    (packetizer : Packetizer Journal)
    (own : packetizer.timecodes = none)
    (packet : Packet) :
    ∃ warnings, packetizer.completed packet
      = (packet.startBehind packetizer.stop?,
          { packet with duration := packet.duration.or packetizer.defaultDuration },
          { packetizer with
            lastTimecode := some (packet.startBehind packetizer.stop?)
            lastDuration := (packet.duration.or packetizer.defaultDuration).getD 0
            warnings := warnings }) := by
  have start : packetizer.ownTimecode packet = packet.startBehind packetizer.stop? := by
    unfold ownTimecode Packet.startBehind stop?
    cases packetizer.lastTimecode <;> rfl
  unfold completed
  rw [own, start]
  exact ⟨_, rfl⟩

/-! ## One call -/

theorem timecode_retimed
    (plain : packetizer.linear = .identity)
    (packet : Packet)
    (timecode : Int) :
    (packetizer.retimed packet timecode).timecode = some (timecode + packetizer.displacement) := by
  show some (packetizer.linear.apply _) = _
  rw [plain, Time.Linear.apply_identity]

theorem Copies.linear_eq (copies : Copies packet timecode count packetizer last) :
    last.linear = packetizer.linear := by
  rw [copies.last_eq]
  rfl

/-- Each copy plays behind the one before, by as much as it adds to the
displacement. -/
theorem Copies.runsUpTo
    (copies : Copies packet timecode count packetizer last)
    (plain : packetizer.linear = .identity)
    (runs : packetizer.sink.RunsUpTo (timecode + packetizer.displacement)) :
    last.sink.RunsUpTo (timecode + last.displacement) := by
  induction copies with
  | none => exact runs
  | @more count packetizer last sink wanted accepted rest inductionHypothesis =>
      apply inductionHypothesis plain
      have atEnd : (marked (packetizer.retimed packet timecode)).timecode
          = some (timecode + packetizer.displacement) := timecode_retimed plain packet timecode
      apply (runs.process atEnd accepted).mono
      have plays : 0 < packet.duration.getD 0 := by
        simp only [wantsCopy, Bool.and_eq_true, decide_eq_true_eq] at wanted
        exact wanted.1.1
      simp only [withCopies]
      omega

theorem ProcessCase.runsUpTo
    (called : ProcessCase ready timed timecode reply)
    (plain : ready.linear = .identity)
    (plays : 0 ≤ timed.duration.getD 0)
    (runs : ready.sink.RunsUpTo (timecode + ready.displacement)) :
    reply.2.sink.RunsUpTo (timecode + timed.duration.getD 0 + reply.2.displacement) := by
  cases called with
  | paid pays =>
      -- What the packet would have played is what the displacement loses.
      apply runs.mono
      simp only [paying]
      omega
  | @copyRefused count last fault sink keeps copies wanted answer =>
      have stillPlain : last.linear = .identity := copies.linear_eq.trans plain
      have atEnd : (marked (last.retimed timed timecode)).timecode
          = some (timecode + last.displacement) := timecode_retimed stillPlain timed timecode
      apply ((copies.runsUpTo plain runs).process atEnd answer).mono
      show timecode + last.displacement ≤ timecode + timed.duration.getD 0 + last.displacement
      omega
  | @waited count last keeps copies waits =>
      apply (copies.runsUpTo plain runs).mono
      show timecode + last.displacement ≤ timecode + timed.duration.getD 0 + last.displacement
      omega
  | @offered count last outcome sink keeps copies goesOn answer =>
      have stillPlain : last.linear = .identity := copies.linear_eq.trans plain
      apply ((copies.runsUpTo plain runs).process (timecode_retimed stillPlain _ _) answer).mono
      show timecode + last.displacement ≤ timecode + timed.duration.getD 0 + last.displacement
      omega

/-! ## Calls in a row -/

/-- No timecode has been sent that lies behind the place where the next packet
may start. -/
structure InOrder (packetizer : Packetizer Journal) (default stop : Option Int) : Prop where
  plain : packetizer.linear = .identity
  own : packetizer.timecodes = none
  defaultDuration : packetizer.defaultDuration = default
  stops : packetizer.stop? = stop
  runs : ∀ timecode, (∀ last ∈ stop, last ≤ timecode) →
    packetizer.sink.RunsUpTo (timecode + packetizer.displacement)

theorem InOrder.process
    (inOrder : packetizer.InOrder default stop)
    (ahead : ∀ timecode ∈ packet.timecode, ∀ last ∈ stop, last ≤ timecode)
    (plays : 0 ≤ (packet.duration.or default).getD 0) :
    (packetizer.process packet).2.InOrder default
      (some (packet.startBehind stop + (packet.duration.or default).getD 0)) := by
  have start : ∀ last ∈ stop, last ≤ packet.startBehind stop := by
    intro last isLast
    unfold Packet.startBehind
    cases explicit : packet.timecode with
    | none =>
        rw [isLast]
        exact Int.le_refl _
    | some timecode => exact ahead timecode explicit last isLast
  obtain ⟨plain, own, rfl, rfl, runs⟩ := inOrder
  have called := packetizer.processCase_process packet
  obtain ⟨warnings, completed⟩ := (packetizer.counting packet).completed_of_own own packet
  rw [completed] at called
  dsimp only at called
  generalize packetizer.process packet = reply at called ⊢
  have sent := called.runsUpTo plain plays (runs _ start)
  constructor
  case plain =>
    rw [called.frame]
    exact plain
  case own =>
    rw [called.frame]
    exact own
  case defaultDuration =>
    rw [called.frame]
    rfl
  case stops =>
    rw [called.frame]
    rfl
  case runs =>
    intro timecode later
    have behind := later _ rfl
    apply sent.mono
    show packet.startBehind packetizer.stop?
      + (packet.duration.or packetizer.defaultDuration).getD 0 + reply.2.displacement
        ≤ timecode + reply.2.displacement
    omega

theorem InOrder.processAll
    (inOrder : packetizer.InOrder default stop)
    (defaultPlays : ∀ duration ∈ default, 0 ≤ duration)
    (forward : Sync.AreForward default stop packets) :
    ∃ stop, (packetizer.processAll packets).2.InOrder default stop := by
  induction packets generalizing packetizer stop with
  | nil => exact ⟨stop, inOrder⟩
  | cons packet rest inductionHypothesis =>
      obtain ⟨ahead, plays, later⟩ := forward
      apply inductionHypothesis (inOrder.process ahead ?_) later
      cases own : packet.duration with
      | some duration => exact plays duration own
      | none =>
          cases isDefault : default with
          | some duration => exact defaultPlays duration isDefault
          | none => exact Int.le_refl _

end Packetizer

end MediaSplit

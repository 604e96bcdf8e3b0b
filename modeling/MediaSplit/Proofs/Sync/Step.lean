import MediaSplit.Proofs.Sync.Copies
import MediaSplit.Proofs.Sync.Fate

/-!
Contract: what one call of a packetizer does.

Owns:
- `Packetizer.ProcessCase`, the ways in which a call of `process` can go;
- `Packetizer.Records`, what a call changes, told by the fate of its packet;
- that every call has such an entry, whatever the sink refuses.

Does **not** own: the timecodes of what is sent.

Copies are sent before it is known whether the packet itself has to wait for a
keyframe. That no copies are lost so hangs on the sign of the wanted
displacement: only a negative one makes a packet wait, and only a positive one
asks for copies.
-/

set_option autoImplicit false

namespace MediaSplit

/-! ## One call -/

namespace Packetizer

section AnySink

variable {σ : Type}

/-- Whether a packet is dropped to pay the deficit of a negative displacement. -/
def isPaidWith (packetizer : Packetizer σ) (packet : Packet) : Bool :=
  0 < packet.duration.getD 0 && packet.isDroppable && packetizer.isInDeficit

/-- Whether a packet is dropped in the wait for a keyframe. -/
def holdsBack (packetizer : Packetizer σ) (packet : Packet) : Bool :=
  packetizer.awaitsKeyframe && !packet.isKeyframe && packet.isDroppable

variable [PacketSink σ]

/-- What a call comes to, from the packetizer that has counted the packet and
completed its timing. -/
inductive ProcessCase (ready : Packetizer σ) (packet : Packet) (timecode : Int) :
    Reply (Packetizer σ) → Prop
  | paid
      (pays : ready.isPaidWith packet = true) :
      ProcessCase ready packet timecode (.ok (), ready.paying (packet.duration.getD 0))
  | copyRefused {count : Nat} {last : Packetizer σ} {fault : Fault} {sink : σ}
      (keeps : ¬ ready.isPaidWith packet = true)
      (copies : Copies packet timecode count ready last)
      (wanted : last.wantsCopy (packet.duration.getD 0) = true)
      (answer : PacketSink.process last.sink (marked (last.retimed packet timecode))
        = (.error fault, sink)) :
      ProcessCase ready packet timecode (.error fault, { last with sink := sink })
  | waited {count : Nat} {last : Packetizer σ}
      (keeps : ¬ ready.isPaidWith packet = true)
      (copies : Copies packet timecode count ready last)
      (waits : last.holdsBack packet = true) :
      ProcessCase ready packet timecode (.ok (), last.droppingOne)
  | offered {count : Nat} {last : Packetizer σ} {reply : Except Fault Unit} {sink : σ}
      (keeps : ¬ ready.isPaidWith packet = true)
      (copies : Copies packet timecode count ready last)
      (goesOn : ¬ last.holdsBack packet = true)
      (answer : PacketSink.process last.sink (last.retimed packet timecode) = (reply, sink)) :
      ProcessCase ready packet timecode
        (reply, { last with
          sink := sink
          awaitsKeyframe := last.awaitsKeyframe && !packet.isKeyframe })

theorem processCase_process (packetizer : Packetizer σ) (packet : Packet) :
    let timed := (packetizer.counting packet).completed packet
    ProcessCase timed.2.2 timed.2.1 timed.1 (packetizer.process packet) := by
  unfold process
  rcases (packetizer.counting packet).completed packet with ⟨timecode, timed, ready⟩
  dsimp only
  split
  next pays => exact .paid pays
  next keeps =>
    obtain ⟨count, last, copies, ends⟩ := ready.exists_copies timed timecode
    cases ends with
    | refused wanted answer sent =>
        rw [sent]
        exact .copyRefused keeps copies wanted answer
    | enough unwanted sent =>
        rw [sent]
        dsimp only
        unfold sendItself
        split
        next waits => exact .waited keeps copies waits
        next goesOn => exact .offered keeps copies goesOn rfl

end AnySink

end Packetizer

/-! ## What journals note -/

theorem Journal.contents_of_process
    {journal after : Journal}
    {packet : Packet}
    {reply : Except Fault Unit}
    (answer : PacketSink.process journal packet = (reply, after)) :
    after.offered.map Packet.content = journal.offered.map Packet.content ++ [packet.content]
      ∧ after.accepted.map Packet.content
        = journal.accepted.map Packet.content ++ if reply.isOk then [packet.content] else [] := by
  have offered := journal.offered_process packet
  have accepted := journal.accepted_process packet
  rw [answer] at offered accepted
  refine ⟨by rw [offered, List.map_append, List.map_singleton], ?_⟩
  rw [accepted, List.map_append]
  split <;> rfl

namespace Packetizer

theorem Copies.contents
    {packet : Packet}
    {timecode : Int}
    {count : Nat}
    {packetizer last : Packetizer Journal}
    (copies : Copies packet timecode count packetizer last) :
    last.sink.offered.map Packet.content
        = packetizer.sink.offered.map Packet.content
            ++ List.replicate count (marked packet).content
      ∧ last.sink.accepted.map Packet.content
        = packetizer.sink.accepted.map Packet.content
            ++ List.replicate count (marked packet).content := by
  induction copies with
  | none => simp
  | @more count packetizer last sink _ answer _ inductionHypothesis =>
      have same : (marked (packetizer.retimed packet timecode)).content = (marked packet).content :=
        rfl
      obtain ⟨offered, accepted⟩ := Journal.contents_of_process answer
      obtain ⟨offeredLater, acceptedLater⟩ := inductionHypothesis
      rw [same] at offered accepted
      refine ⟨?_, ?_⟩
      · rw [offeredLater]
        simp [withCopies, offered, List.replicate_succ]
      · rw [acceptedLater]
        simp [withCopies, accepted, List.replicate_succ, Except.isOk, Except.toBool]

/-- A stage that is to reach no positive displacement sends no copies. -/
theorem Copies.count_eq_zero
    {σ : Type}
    [PacketSink σ]
    {packet : Packet}
    {timecode : Int}
    {count : Nat}
    {packetizer last : Packetizer σ}
    (copies : Copies packet timecode count packetizer last)
    (negative : packetizer.wantedDisplacement < 0) :
    count = 0 := by
  cases copies with
  | none => rfl
  | more wanted _ _ =>
      simp only [wantsCopy, isInSurplus, Bool.and_eq_true, decide_eq_true_eq] at wanted
      omega

/-! ## What one call changes -/

open Sync

/-- The standing of a packetizer. -/
def standing {σ : Type} (packetizer : Packetizer σ) : Standing :=
  ⟨packetizer.displacement, packetizer.awaitsKeyframe⟩

/-- Only a negative displacement makes packets wait. -/
def WaitsInDeficit {σ : Type} (packetizer : Packetizer σ) : Prop :=
  packetizer.awaitsKeyframe = true → packetizer.wantedDisplacement < 0

theorem completed_eq {σ : Type} (packetizer : Packetizer σ) (packet : Packet) :
    ∃ timecode duration warnings,
      packetizer.completed packet
        = (timecode, { packet with duration := duration },
            { packetizer with
              timecodes := (completedDuration packetizer.defaultDuration packetizer.timecodes
                packet).2
              lastTimecode := some timecode
              lastDuration := duration.getD 0
              warnings := warnings })
      ∧ (completedDuration packetizer.defaultDuration packetizer.timecodes packet).1
          = duration.getD 0 := by
  unfold completed completedDuration
  cases packetizer.timecodes with
  | none => exact ⟨_, _, _, rfl, rfl⟩
  | some schedule => exact ⟨_, _, _, rfl, rfl⟩

/-- What one call changes, told by the entry of its packet. -/
structure Records (before : Packetizer Journal) (entry : Entry) (after : Packetizer Journal) :
    Prop where
  packets : after.stats.packets = before.stats.packets + 1
  bytes : after.stats.bytes = before.stats.bytes + entry.packet.size
  dropped : after.stats.dropped = before.stats.dropped + entry.fate.isDropped.toNat
  duplicated : after.stats.duplicated = before.stats.duplicated + entry.fate.copies
  offered : after.sink.offered.map Packet.content
    = before.sink.offered.map Packet.content ++ entry.offered
  accepted : after.sink.accepted.map Packet.content
    = before.sink.accepted.map Packet.content ++ entry.accepted
  standing : after.standing = before.standing.behind entry
  lawful : entry.IsLawful before.wantedDisplacement before.standing
  duration : entry.duration
    = (completedDuration before.defaultDuration before.timecodes entry.packet).1
  timecodes : after.timecodes
    = (completedDuration before.defaultDuration before.timecodes entry.packet).2
  defaultDuration : after.defaultDuration = before.defaultDuration
  wanted : after.wantedDisplacement = before.wantedDisplacement
  waitsInDeficit : after.WaitsInDeficit

section Step

variable {packetizer ready last : Packetizer Journal} {packet timed : Packet} {timecode : Int}
  {count : Nat}

/-- `ready` has counted a packet and completed its timing, and is now to handle
it as `timed`. -/
structure IsReady (packetizer : Packetizer Journal) (packet timed : Packet)
    (ready : Packetizer Journal) : Prop where
  isTimed : timed = { packet with duration := timed.duration }
  duration : timed.duration.getD 0
    = (completedDuration packetizer.defaultDuration packetizer.timecodes packet).1
  timecodes : ready.timecodes
    = (completedDuration packetizer.defaultDuration packetizer.timecodes packet).2
  defaultDuration : ready.defaultDuration = packetizer.defaultDuration
  wanted : ready.wantedDisplacement = packetizer.wantedDisplacement
  displacement : ready.displacement = packetizer.displacement
  awaitsKeyframe : ready.awaitsKeyframe = packetizer.awaitsKeyframe
  sink : ready.sink = packetizer.sink
  stats : ready.stats = (packetizer.counting packet).stats

theorem isReady_completed (packetizer : Packetizer Journal) (packet : Packet) :
    let timed := (packetizer.counting packet).completed packet
    packetizer.IsReady packet timed.2.1 timed.2.2 := by
  obtain ⟨timecode, duration, warnings, completed, same⟩ :=
    (packetizer.counting packet).completed_eq packet
  rw [completed]
  exact ⟨rfl, same.symm, rfl, rfl, rfl, rfl, rfl, rfl, rfl⟩

namespace IsReady

variable (isReady : packetizer.IsReady packet timed ready)

include isReady

theorem isDroppable : timed.isDroppable = packet.isDroppable := by
  rw [isReady.isTimed]
  rfl

theorem isKeyframe : timed.isKeyframe = packet.isKeyframe := by
  rw [isReady.isTimed]
  rfl

theorem mustPay_iff (fate : Fate) :
    Entry.MustPay ⟨packet, timed.duration.getD 0, fate⟩ packetizer.wantedDisplacement
        packetizer.standing
      ↔ ready.isPaidWith timed = true := by
  simp [isPaidWith, isInDeficit, Entry.MustPay, Packetizer.standing, isReady.isDroppable,
    isReady.wanted, isReady.displacement, and_assoc]

section Copied

variable (copies : Copies timed timecode count ready last)

include copies

theorem awaitsKeyframe_last : last.awaitsKeyframe = packetizer.awaitsKeyframe := by
  rw [copies.last_eq]
  exact isReady.awaitsKeyframe

theorem wanted_last : last.wantedDisplacement = packetizer.wantedDisplacement := by
  rw [copies.last_eq]
  exact isReady.wanted

theorem mustWait_iff (fate : Fate) :
    Entry.MustWait ⟨packet, timed.duration.getD 0, fate⟩ packetizer.standing
      ↔ last.holdsBack timed = true := by
  simp [holdsBack, Entry.MustWait, Packetizer.standing, isReady.awaitsKeyframe_last copies,
    isReady.isKeyframe, isReady.isDroppable, and_assoc]

/-- Where a copy is wanted, nothing waits for a keyframe. -/
theorem awaitsKeyframe_eq_false
    (wanted : last.wantsCopy (timed.duration.getD 0) = true)
    (waits : packetizer.WaitsInDeficit) :
    packetizer.awaitsKeyframe = false := by
  have kept := isReady.wanted_last copies
  rw [← Bool.not_eq_true]
  intro awaits
  have negative := waits awaits
  simp only [wantsCopy, isInSurplus, Bool.and_eq_true, decide_eq_true_eq] at wanted
  omega

theorem contents_last :
    last.sink.offered.map Packet.content
        = packetizer.sink.offered.map Packet.content
            ++ List.replicate count (marked packet).content
      ∧ last.sink.accepted.map Packet.content
        = packetizer.sink.accepted.map Packet.content
            ++ List.replicate count (marked packet).content := by
  have same : (marked timed).content = (marked packet).content := by
    rw [isReady.isTimed]
    rfl
  rw [← isReady.sink, ← same]
  exact copies.contents

end Copied

theorem records_of_paid (pays : ready.isPaidWith timed = true) :
    Records packetizer ⟨packet, timed.duration.getD 0, .paid⟩
      (ready.paying (timed.duration.getD 0)) := by
  have must := (isReady.mustPay_iff .paid).2 pays
  constructor
  case lawful => exact ⟨by simp [must], by simp [must]⟩
  case duration => exact isReady.duration
  case timecodes => exact isReady.timecodes
  case defaultDuration => exact isReady.defaultDuration
  case wanted => exact isReady.wanted
  case waitsInDeficit =>
    intro _
    rw [← isReady.wanted] at must
    exact must.2.2.1
  all_goals
    simp [paying, droppingOne, counting, isReady.stats, isReady.sink, isReady.displacement,
      Packetizer.standing, Standing.behind, Entry.copied, Entry.payment, Entry.offered,
      Entry.accepted, Entry.refused, Fate.isDropped, Fate.copies]

/-- A call that does not pay a deficit sends its copies and then leaves the
counters, but for a packet that waits, and the wait, but for a keyframe. -/
theorem records_of_kept
    (fate : Fate)
    {after : Packetizer Journal}
    (copies : Copies timed timecode fate.copies ready last)
    (notPaid : fate ≠ .paid)
    (after_eq : after = { last with
      sink := after.sink
      awaitsKeyframe := packetizer.awaitsKeyframe && !packet.isKeyframe
      stats := { last.stats with dropped := last.stats.dropped + fate.isDropped.toNat } })
    (offered : after.sink.offered.map Packet.content
      = packetizer.sink.offered.map Packet.content
          ++ Entry.offered ⟨packet, timed.duration.getD 0, fate⟩)
    (accepted : after.sink.accepted.map Packet.content
      = packetizer.sink.accepted.map Packet.content
          ++ Entry.accepted ⟨packet, timed.duration.getD 0, fate⟩)
    (lawful : Entry.IsLawful ⟨packet, timed.duration.getD 0, fate⟩ packetizer.wantedDisplacement
      packetizer.standing)
    (waits : packetizer.WaitsInDeficit) :
    Records packetizer ⟨packet, timed.duration.getD 0, fate⟩ after := by
  rw [copies.last_eq] at after_eq
  constructor
  case offered => exact offered
  case accepted => exact accepted
  case lawful => exact lawful
  case duration => exact isReady.duration
  case waitsInDeficit =>
    rw [after_eq]
    intro still
    show ready.wantedDisplacement < 0
    rw [isReady.wanted]
    exact waits (Bool.and_eq_true _ _ ▸ still).1
  case standing =>
    rw [after_eq]
    simp [withCopies, isReady.displacement, Packetizer.standing, Standing.behind, Entry.copied,
      Entry.payment, notPaid]
  all_goals
    rw [after_eq]
    simp [withCopies, counting, isReady.stats, isReady.timecodes, isReady.defaultDuration,
      isReady.wanted]

/-- The fate of a packet is told by the last answer of the sink, to the packet
itself or to a copy of it. -/
theorem records_of_answer
    (fate : Fate)
    {offer : Packet}
    {reply : Except Fault Unit}
    {sink : Journal}
    (copies : Copies timed timecode fate.copies ready last)
    (answer : PacketSink.process last.sink offer = (reply, sink))
    (notDropped : fate.isDropped = false)
    (refused : Entry.refused ⟨packet, timed.duration.getD 0, fate⟩
      = if reply.isOk then [] else [offer.content])
    (accepted : Entry.accepted ⟨packet, timed.duration.getD 0, fate⟩
      = List.replicate fate.copies (marked packet).content
          ++ if reply.isOk then [offer.content] else [])
    (keeps : ¬ ready.isPaidWith timed = true)
    (goesOn : ¬ last.holdsBack timed = true)
    (waits : packetizer.WaitsInDeficit) :
    Records packetizer ⟨packet, timed.duration.getD 0, fate⟩
      { last with
        sink := sink
        awaitsKeyframe := last.awaitsKeyframe && !packet.isKeyframe } := by
  obtain ⟨offeredBefore, acceptedBefore⟩ := isReady.contents_last copies
  obtain ⟨offeredLast, acceptedLast⟩ := Journal.contents_of_process answer
  apply isReady.records_of_kept fate copies
  · intro paid
    rw [paid] at notDropped
    cases notDropped
  · rw [isReady.awaitsKeyframe_last copies, notDropped]
    rfl
  · rw [offeredLast, offeredBefore, Entry.offered, accepted, refused]
    split <;> simp
  · rw [acceptedLast, acceptedBefore, accepted, List.append_assoc]
  · apply Entry.IsLawful.of_kept notDropped
    · exact mt (isReady.mustPay_iff fate).1 keeps
    · exact mt (isReady.mustWait_iff copies fate).1 goesOn
  · exact waits

theorem records_of_copyRefused
    {fault : Fault}
    {sink : Journal}
    (keeps : ¬ ready.isPaidWith timed = true)
    (copies : Copies timed timecode count ready last)
    (wanted : last.wantsCopy (timed.duration.getD 0) = true)
    (answer : PacketSink.process last.sink (marked (last.retimed timed timecode))
      = (.error fault, sink))
    (waits : packetizer.WaitsInDeficit) :
    Records packetizer ⟨packet, timed.duration.getD 0, .copyRefused count⟩
      { last with sink := sink } := by
  have noWait : last.awaitsKeyframe = false := by
    rw [isReady.awaitsKeyframe_last copies]
    exact isReady.awaitsKeyframe_eq_false copies wanted waits
  have same : (marked (last.retimed timed timecode)).content = (marked packet).content := by
    rw [isReady.isTimed]
    rfl
  have records := isReady.records_of_answer (.copyRefused count) copies answer rfl
    (by rw [same]; rfl) rfl keeps (by simp [holdsBack, noWait]) waits
  rwa [noWait, Bool.false_and, ← noWait] at records

theorem records_of_waited
    (keeps : ¬ ready.isPaidWith timed = true)
    (copies : Copies timed timecode count ready last)
    (heldBack : last.holdsBack timed = true)
    (waits : packetizer.WaitsInDeficit) :
    Records packetizer ⟨packet, timed.duration.getD 0, .waited⟩ last.droppingOne := by
  have mustWait := (isReady.mustWait_iff copies .waited).2 heldBack
  have noPay := mt (isReady.mustPay_iff .waited).1 keeps
  have awaits : packetizer.awaitsKeyframe = true := mustWait.1
  have noKeyframe : packet.isKeyframe = false := mustWait.2.1
  have noCopies : count = 0 := by
    apply copies.count_eq_zero
    rw [isReady.wanted]
    exact waits awaits
  subst noCopies
  obtain ⟨offered, accepted⟩ := isReady.contents_last copies
  apply isReady.records_of_kept .waited copies
  · exact nofun
  · simp [droppingOne, isReady.awaitsKeyframe_last copies, awaits, noKeyframe, Fate.isDropped]
  · simpa [droppingOne, Entry.offered, Entry.accepted, Entry.refused, Fate.copies] using offered
  · simpa [droppingOne, Entry.accepted, Fate.copies] using accepted
  · exact ⟨by simp [noPay], by simp [noPay, mustWait]⟩
  · exact waits

theorem exists_records_of_offered
    {reply : Except Fault Unit}
    {sink : Journal}
    (keeps : ¬ ready.isPaidWith timed = true)
    (copies : Copies timed timecode count ready last)
    (goesOn : ¬ last.holdsBack timed = true)
    (answer : PacketSink.process last.sink (last.retimed timed timecode) = (reply, sink))
    (waits : packetizer.WaitsInDeficit) :
    ∃ fate, fate.isRefused = !reply.isOk
      ∧ Records packetizer ⟨packet, timed.duration.getD 0, fate⟩
          { last with
            sink := sink
            awaitsKeyframe := last.awaitsKeyframe && !timed.isKeyframe } := by
  have same : (last.retimed timed timecode).content = packet.content := by
    rw [isReady.isTimed]
    rfl
  rw [isReady.isKeyframe]
  cases reply with
  | error fault =>
      refine ⟨.refused count, rfl, ?_⟩
      exact isReady.records_of_answer (.refused count) copies answer rfl (by rw [same]; rfl) rfl
        keeps goesOn waits
  | ok =>
      refine ⟨.sent count, rfl, ?_⟩
      exact isReady.records_of_answer (.sent count) copies answer rfl rfl (by rw [same]; rfl)
        keeps goesOn waits

end IsReady

/-- Every call has an entry, whatever the sink answers. -/
theorem exists_records
    (packetizer : Packetizer Journal)
    (packet : Packet)
    (waits : packetizer.WaitsInDeficit) :
    ∃ entry : Entry, entry.packet = packet
      ∧ entry.fate.isRefused = !(packetizer.process packet).1.isOk
      ∧ Records packetizer entry (packetizer.process packet).2 := by
  have isReady := packetizer.isReady_completed packet
  have called := packetizer.processCase_process packet
  dsimp only at isReady called
  generalize packetizer.process packet = reply at called ⊢
  cases called with
  | paid pays => exact ⟨_, rfl, rfl, isReady.records_of_paid pays⟩
  | copyRefused keeps copies wanted answer =>
      exact ⟨_, rfl, rfl, isReady.records_of_copyRefused keeps copies wanted answer waits⟩
  | waited keeps copies heldBack =>
      exact ⟨_, rfl, rfl, isReady.records_of_waited keeps copies heldBack waits⟩
  | offered keeps copies goesOn answer =>
      obtain ⟨fate, answered, records⟩ :=
        isReady.exists_records_of_offered keeps copies goesOn answer waits
      exact ⟨_, rfl, answered, records⟩

end Step

end Packetizer

end MediaSplit

import MediaSplit.Proofs.Sync.Ledger

/-!
Contract: the packets that a negative displacement costs.

Owns:
- `Sync.PaysDeficit`, which packets are dropped to pay a deficit, and by how
  much they may overpay it;
- `Sync.ResumesAtKeyframe`, what is handed on behind such a packet;
- that every packetizer with a negative displacement keeps to both and drops no
  packet that must be kept, whatever the sink refuses.

Each packet is handed on once or not at all, so what the sink has been offered
tells which ones were dropped.
-/

set_option autoImplicit false

namespace MediaSplit

/-- What the sync stage leaves of a packet, and whether it is a keyframe. -/
def Packet.nature (packet : Packet) : Bool × Bytes × PacketFlags :=
  (packet.isKeyframe, packet.content)

namespace Sync

/-! ## Packets in a row -/

/-- Whether the sink was asked to take the packet. -/
def Entry.isHandedOn (entry : Entry) : Bool := !entry.fate.isDropped

/-- How long the packets play that were dropped to pay a deficit. -/
def paidIn (entries : List Entry) : Int := (entries.map Entry.payment).sum

/-- A packet pays exactly if it may be dropped, plays for some time and finds
the deficit unpaid. So no payment but the last can exceed it. -/
structure PaysDeficit (deficit : Int) (entries : List Entry) : Prop where
  paid_iff : ∀ before entry behind, entries = before ++ entry :: behind →
    (entry.fate = .paid ↔ paidIn before < deficit
      ∧ entry.packet.isDroppable = true ∧ 0 < entry.duration)
  paidIn_lt : ∀ before last behind after, entries = before ++ last :: (behind ++ after) →
    last.fate = .paid → (∀ entry ∈ behind, entry.fate ≠ .paid) →
      paidIn (before ++ last :: behind) < deficit + last.duration

/-- Behind a packet that was dropped to pay a deficit, up to the next keyframe
that is handed on, only packets that must be kept are handed on. -/
def ResumesAtKeyframe (entries : List Entry) : Prop :=
  ∀ before dropped between entry behind,
    entries = before ++ dropped :: (between ++ entry :: behind) →
    dropped.fate = .paid →
    (∀ passed ∈ between, passed.isHandedOn = true → passed.packet.isKeyframe = false) →
    entry.isHandedOn = true → entry.packet.isKeyframe = false →
      entry.packet.flags.mustKeep = true

/-- The standing behind packets in a row. -/
def Standing.behindAll (standing : Standing) (entries : List Entry) : Standing :=
  entries.foldl Standing.behind standing

section Row

variable {wanted : Int} {standing : Standing} {entries before between behind : List Entry}
  {entry dropped : Entry}

theorem areLawful_append_iff :
    AreLawful wanted standing (before ++ behind)
      ↔ AreLawful wanted standing before
        ∧ AreLawful wanted (standing.behindAll before) behind := by
  induction before generalizing standing with
  | nil => exact ⟨fun lawful => ⟨trivial, lawful⟩, fun both => both.2⟩
  | cons first rest inductionHypothesis =>
      show _ ∧ AreLawful wanted (standing.behind first) (rest ++ behind) ↔ (_ ∧ _) ∧ _
      rw [inductionHypothesis, and_assoc]
      rfl

theorem paidIn_append (before behind : List Entry) :
    paidIn (before ++ behind) = paidIn before + paidIn behind := by
  unfold paidIn
  rw [List.map_append, List.sum_append]

theorem paidIn_cons (entry : Entry) (behind : List Entry) :
    paidIn (entry :: behind) = entry.payment + paidIn behind := by
  unfold paidIn
  rw [List.map_cons, List.sum_cons]

theorem paidIn_of_unpaid (unpaid : ∀ entry ∈ entries, entry.fate ≠ .paid) :
    paidIn entries = 0 := by
  induction entries with
  | nil => rfl
  | cons first rest inductionHypothesis =>
      have none : first.payment = 0 := if_neg (unpaid first List.mem_cons_self)
      have later := inductionHypothesis fun entry member =>
        unpaid entry (List.mem_cons_of_mem _ member)
      rw [paidIn_cons, none, later, Int.add_zero]

/-- Where nothing is copied, only payments change the displacement. -/
theorem displacement_behindAll
    (uncopied : ∀ entry ∈ entries, entry.fate.copies = 0)
    (standing : Standing) :
    (standing.behindAll entries).displacement = standing.displacement - paidIn entries := by
  induction entries generalizing standing with
  | nil => exact (Int.sub_zero _).symm
  | cons first rest inductionHypothesis =>
      have none : first.copied = 0 := by
        rw [Entry.copied, uncopied first List.mem_cons_self]
        exact Int.zero_mul _
      have later := inductionHypothesis
        (fun entry member => uncopied entry (List.mem_cons_of_mem _ member))
        (standing.behind first)
      have here : (standing.behind first).displacement = standing.displacement - first.payment := by
        simp only [Standing.behind, none, Int.add_zero]
      show ((standing.behind first).behindAll rest).displacement = _
      rw [later, here, paidIn_cons]
      omega

theorem paysDeficit_of_areLawful
    (negative : wanted < 0)
    (lawful : AreLawful wanted ⟨0, false⟩ entries)
    (uncopied : ∀ entry ∈ entries, entry.fate.copies = 0) :
    PaysDeficit (-wanted) entries := by
  have pays : ∀ before entry behind, entries = before ++ entry :: behind →
      (entry.fate = .paid ↔ paidIn before < -wanted
        ∧ entry.packet.isDroppable = true ∧ 0 < entry.duration) := by
    rintro before entry behind rfl
    have reached : (Standing.behindAll ⟨0, false⟩ before).displacement = 0 - paidIn before :=
      displacement_behindAll
        (fun entry member => uncopied entry (List.mem_append_left _ member)) ⟨0, false⟩
    rw [(areLawful_append_iff.1 lawful).2.1.paid, Entry.MustPay, reached]
    constructor
    · rintro ⟨plays, droppable, -, open'⟩
      exact ⟨by omega, droppable, plays⟩
    · rintro ⟨unpaid, droppable, plays⟩
      exact ⟨plays, droppable, negative, by omega⟩
  refine ⟨pays, ?_⟩
  intro before last behind after split isPaid unpaid
  have below := ((pays before last _ split).1 isPaid).1
  have free := paidIn_of_unpaid unpaid
  have own : last.payment = last.duration := if_pos isPaid
  rw [paidIn_append, paidIn_cons, own, free]
  omega

/-- Who waits goes on waiting until a keyframe is handed on. -/
theorem Entry.IsLawful.awaitsKeyframe_behind
    (lawful : entry.IsLawful wanted standing)
    (waits : standing.awaitsKeyframe = true)
    (noKeyframe : entry.isHandedOn = true → entry.packet.isKeyframe = false) :
    (standing.behind entry).awaitsKeyframe = true := by
  show (entry.fate == .paid || standing.awaitsKeyframe && !entry.packet.isKeyframe) = true
  by_cases isPaid : entry.fate = .paid
  · rw [isPaid]
    rfl
  · have dependent : entry.packet.isKeyframe = false := by
      by_cases isWaited : entry.fate = .waited
      · exact (lawful.waited.1 isWaited).2.2.1
      · apply noKeyframe
        unfold Entry.isHandedOn
        cases fate : entry.fate with
        | paid => exact absurd fate isPaid
        | waited => exact absurd fate isWaited
        | sent copies => rfl
        | refused copies => rfl
        | copyRefused copies => rfl
    rw [waits, dependent]
    exact Bool.or_true _

theorem awaitsKeyframe_behindAll
    (lawful : AreLawful wanted standing entries)
    (waits : standing.awaitsKeyframe = true)
    (noKeyframe : ∀ entry ∈ entries, entry.isHandedOn = true → entry.packet.isKeyframe = false) :
    (standing.behindAll entries).awaitsKeyframe = true := by
  induction entries generalizing standing with
  | nil => exact waits
  | cons first rest inductionHypothesis =>
      apply inductionHypothesis lawful.2
      · exact lawful.1.awaitsKeyframe_behind waits (noKeyframe first List.mem_cons_self)
      · intro entry member
        exact noKeyframe entry (List.mem_cons_of_mem _ member)

/-- Only a packet that must be kept is handed on past the wait. -/
theorem Entry.IsLawful.mustKeep_of_waits
    (lawful : entry.IsLawful wanted standing)
    (waits : standing.awaitsKeyframe = true)
    (handedOn : entry.isHandedOn = true)
    (dependent : entry.packet.isKeyframe = false) :
    entry.packet.flags.mustKeep = true := by
  have kept : ∀ fate, fate.isDropped = true → entry.fate ≠ fate := by
    rintro fate dropped rfl
    rw [Entry.isHandedOn, dropped] at handedOn
    cases handedOn
  cases mustKeep : entry.packet.flags.mustKeep with
  | true => rfl
  | false =>
      have mayDrop : entry.packet.isDroppable = true := by
        rw [Packet.isDroppable, mustKeep]
        rfl
      have noPay := mt lawful.paid.2 (kept .paid rfl)
      exact absurd (lawful.waited.2 ⟨noPay, waits, dependent, mayDrop⟩) (kept .waited rfl)

theorem resumesAtKeyframe_of_areLawful (lawful : AreLawful wanted standing entries) :
    ResumesAtKeyframe entries := by
  rintro before dropped between entry behind rfl isPaid noKeyframe handedOn dependent
  obtain ⟨-, -, later⟩ := areLawful_append_iff.1 lawful
  obtain ⟨lawfulBetween, lawfulEntry, -⟩ := areLawful_append_iff.1 later
  have starts : ((standing.behindAll before).behind dropped).awaitsKeyframe = true := by
    show (dropped.fate == .paid || _) = true
    rw [isPaid]
    rfl
  have waits := awaitsKeyframe_behindAll lawfulBetween starts noKeyframe
  exact lawfulEntry.mustKeep_of_waits waits handedOn dependent

end Row

end Sync

namespace Packetizer

open Sync

/-! ## What is handed on -/

section Call

variable {packetizer ready last before after : Packetizer Journal} {packet timed : Packet}
  {timecode : Int} {count : Nat} {reply : Reply (Packetizer Journal)} {entry : Entry}
  {entries : List Entry}

theorem nature_retimed (packetizer : Packetizer Journal) (packet : Packet) (timecode : Int) :
    (packetizer.retimed packet timecode).nature = packet.nature := by
  have keyframe : (packetizer.retimed packet timecode).isKeyframe = packet.isKeyframe :=
    Option.isNone_map
  unfold Packet.nature
  rw [keyframe]
  rfl

/-- A stage that is to reach a negative displacement offers a packet without
copies, or not at all. -/
theorem ProcessCase.offered_of_negative
    (called : ProcessCase ready timed timecode reply)
    (negative : ready.wantedDisplacement < 0) :
    reply.2.stats.duplicated = ready.stats.duplicated
      ∧ ∃ packets, reply.2.sink.offered = ready.sink.offered ++ packets
        ∧ ∀ packet ∈ packets, packet.nature = timed.nature := by
  have still : ∀ {count : Nat} {last : Packetizer Journal},
      Copies timed timecode count ready last → last = ready := by
    intro count last copies
    obtain rfl := copies.count_eq_zero negative
    cases copies
    rfl
  have unoffered : ∀ packet ∈ ([] : List Packet), packet.nature = timed.nature :=
    fun _ member => absurd member List.not_mem_nil
  cases called with
  | paid => exact ⟨rfl, [], (List.append_nil _).symm, unoffered⟩
  | @copyRefused count last fault sink keeps copies wanted answer =>
      obtain rfl := still copies
      simp only [wantsCopy, isInSurplus, Bool.and_eq_true, decide_eq_true_eq] at wanted
      omega
  | waited _ copies =>
      obtain rfl := still copies
      exact ⟨rfl, [], (List.append_nil _).symm, unoffered⟩
  | @offered count last outcome sink keeps copies goesOn answer =>
      obtain rfl := still copies
      have offered := last.sink.offered_process (last.retimed timed timecode)
      rw [answer] at offered
      refine ⟨rfl, [last.retimed timed timecode], offered, ?_⟩
      intro packet member
      rw [List.mem_singleton.1 member, nature_retimed]

theorem IsReady.nature (isReady : packetizer.IsReady packet timed ready) :
    timed.nature = packet.nature := by
  rw [isReady.isTimed]
  rfl

theorem offered_process_of_negative
    (packetizer : Packetizer Journal)
    (negative : packetizer.wantedDisplacement < 0)
    (packet : Packet) :
    (packetizer.process packet).2.stats.duplicated = packetizer.stats.duplicated
      ∧ ∃ packets, (packetizer.process packet).2.sink.offered = packetizer.sink.offered ++ packets
        ∧ ∀ offered ∈ packets, offered.nature = packet.nature := by
  have isReady := packetizer.isReady_completed packet
  have called := packetizer.processCase_process packet
  dsimp only at isReady
  obtain ⟨duplicated, packets, offered, alike⟩ :=
    called.offered_of_negative (by rw [isReady.wanted]; exact negative)
  rw [isReady.stats] at duplicated
  rw [isReady.sink] at offered
  refine ⟨duplicated, packets, offered, ?_⟩
  intro offer member
  exact (alike offer member).trans isReady.nature

theorem Records.copies_eq_zero
    (records : Records before entry (before.process entry.packet).2)
    (negative : before.wantedDisplacement < 0) :
    entry.fate.copies = 0 := by
  have counted := records.duplicated
  rw [(before.offered_process_of_negative negative entry.packet).1] at counted
  exact Nat.add_eq_left.1 counted.symm

theorem Records.natures
    (records : Records before entry (before.process entry.packet).2)
    (negative : before.wantedDisplacement < 0) :
    (before.process entry.packet).2.sink.offered.map Packet.nature
      = before.sink.offered.map Packet.nature
        ++ if entry.isHandedOn then [entry.packet.nature] else [] := by
  obtain ⟨-, packets, offered, alike⟩ := before.offered_process_of_negative negative entry.packet
  have contents := records.offered
  rw [offered, List.map_append, List.append_cancel_left_eq] at contents
  have count : packets.length = if entry.isHandedOn then 1 else 0 := by
    rw [← List.length_map Packet.content, contents]
    have none := records.copies_eq_zero negative
    unfold Entry.offered Entry.accepted Entry.refused Entry.isHandedOn
    rw [none]
    cases entry.fate <;> rfl
  have natures : packets.map Packet.nature = List.replicate packets.length entry.packet.nature :=
    List.eq_replicate_iff.2 ⟨List.length_map _, by simpa using alike⟩
  rw [offered, List.map_append, natures, count]
  split <;> rfl

theorem Calls.natures (calls : Calls before entries after)
    (negative : before.wantedDisplacement < 0) :
    after.sink.offered.map Packet.nature
      = before.sink.offered.map Packet.nature
        ++ (entries.filter Entry.isHandedOn).map (·.packet.nature) := by
  induction calls with
  | none => exact (List.append_nil _).symm
  | more records _ inductionHypothesis =>
      rw [inductionHypothesis (by rw [records.wanted]; exact negative), records.natures negative,
        List.append_assoc, List.filter_cons]
      split <;> rfl

theorem Calls.copies_eq_zero (calls : Calls before entries after)
    (negative : before.wantedDisplacement < 0) :
    ∀ entry ∈ entries, entry.fate.copies = 0 := by
  induction calls with
  | none =>
      intro entry member
      cases member
  | more records _ inductionHypothesis =>
      intro entry member
      rcases List.mem_cons.1 member with rfl | later
      · exact records.copies_eq_zero negative
      · exact inductionHypothesis (by rw [records.wanted]; exact negative) entry later

end Call

/-! ## From the first call on -/

/-- What a negative displacement makes of `packets`, as it follows from what has
become of each. -/
structure SettlesDeficit (packetizer : Packetizer Journal) (packets : List Packet)
    (entries : List Entry) : Prop where
  balances : packetizer.Balances packets entries
  pays : PaysDeficit (-packetizer.wantedDisplacement) entries
  resumes : ResumesAtKeyframe entries
  keeps : ∀ entry ∈ entries, entry.packet.flags.mustKeep = true → entry.isHandedOn = true
  handedOn : (packetizer.processAll packets).2.sink.offered.map Packet.nature
    = (entries.filter Entry.isHandedOn).map (·.packet.nature)

/-- Whatever the settings are besides a negative displacement, and whatever the
sink refuses, a packetizer drops packets until they have paid the displacement,
resumes at a keyframe, and drops no packet that must be kept. -/
theorem exists_settlesDeficit
    {packetizer : Packetizer Journal}
    (fresh : packetizer.IsFresh)
    (negative : packetizer.wantedDisplacement < 0)
    (packets : List Packet) :
    ∃ entries, packetizer.SettlesDeficit packets entries := by
  obtain ⟨entries, rfl, replies, calls⟩ := packetizer.exists_calls packets fresh.waitsInDeficit
  have balances := calls.accounts.balances replies fresh
  refine ⟨entries, ?_⟩
  constructor
  case balances => exact balances
  case pays =>
    exact paysDeficit_of_areLawful negative balances.lawful (calls.copies_eq_zero negative)
  case resumes => exact resumesAtKeyframe_of_areLawful balances.lawful
  case keeps =>
    intro entry member mustKeep
    cases dropped : entry.fate.isDropped with
    | false =>
        rw [Entry.isHandedOn, dropped]
        rfl
    | true =>
        have droppable := balances.droppable entry member dropped
        rw [Packet.isDroppable, mustKeep] at droppable
        cases droppable
  case handedOn =>
    have natures := calls.natures negative
    rwa [fresh.offered, List.map_nil, List.nil_append] at natures

/-- A packet that depends on an earlier one but must be kept. -/
def keptPacket : Packet :=
  { longPacket with
    backwardReference := some 0
    flags := { PacketFlags.none with mustKeep := true } }

theorem exists_settlesDeficit_dropping :
    ∃ entries, dropping.SettlesDeficit [longPacket, keptPacket, longPacket, longPacket] entries :=
  exists_settlesDeficit ⟨rfl, rfl, rfl⟩ (by decide) _

end Packetizer

end MediaSplit

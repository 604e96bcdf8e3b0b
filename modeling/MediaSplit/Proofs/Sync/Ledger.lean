import MediaSplit.Proofs.Sync.Step

/-!
Contract: the books of a packetizer.

Owns:
- `Packetizer.Accounts`, the counters, the displacement and the packets offered
  and accepted, as they follow from the entries of some calls in a row;
- `Packetizer.Calls`, calls in a row with an entry each, which all calls have;
- that from the first call on the books balance (`Packetizer.Balances`),
  whatever the settings are and whatever the sink refuses.

The sink is a journal with any policy, so it stands for every sink.
-/

set_option autoImplicit false

namespace MediaSplit.Packetizer

open Sync

/-- Handles packets one after the other, whatever the replies are. -/
def processAll {σ : Type} [PacketSink σ] (packetizer : Packetizer σ) :
    List Packet → List (Except Fault Unit) × Packetizer σ
  | [] => ([], packetizer)
  | packet :: rest =>
      let (reply, next) := packetizer.process packet
      let (replies, last) := processAll next rest
      (reply :: replies, last)

/-- What some calls in a row change, told by the entries of their packets. -/
structure Accounts (before : Packetizer Journal) (entries : List Entry)
    (after : Packetizer Journal) : Prop where
  packets : after.stats.packets = before.stats.packets + entries.length
  bytes : after.stats.bytes = before.stats.bytes + (entries.map (·.packet.size)).sum
  dropped : after.stats.dropped = before.stats.dropped + entries.countP (·.fate.isDropped)
  duplicated : after.stats.duplicated
    = before.stats.duplicated + (entries.map (·.fate.copies)).sum
  offered : after.sink.offered.map Packet.content
    = before.sink.offered.map Packet.content ++ entries.flatMap Entry.offered
  accepted : after.sink.accepted.map Packet.content
    = before.sink.accepted.map Packet.content ++ entries.flatMap Entry.accepted
  displacement : after.displacement
    = before.displacement + (entries.map Entry.copied).sum - (entries.map Entry.payment).sum
  lawful : AreLawful before.wantedDisplacement before.standing entries
  durations : entries.map (·.duration)
    = completedDurations before.defaultDuration before.timecodes (entries.map (·.packet))

namespace Accounts

theorem nil (packetizer : Packetizer Journal) : Accounts packetizer [] packetizer := by
  constructor
  case lawful => trivial
  all_goals simp [completedDurations]

theorem cons
    {before middle after : Packetizer Journal}
    {entry : Entry}
    {entries : List Entry}
    (records : Records before entry middle)
    (accounts : Accounts middle entries after) :
    Accounts before (entry :: entries) after := by
  have moved : middle.displacement = before.displacement + entry.copied - entry.payment :=
    congrArg Standing.displacement records.standing
  constructor
  case packets =>
    rw [accounts.packets, records.packets, List.length_cons]
    omega
  case bytes =>
    rw [accounts.bytes, records.bytes, List.map_cons, List.sum_cons]
    omega
  case dropped =>
    rw [accounts.dropped, records.dropped, List.countP_cons]
    cases entry.fate.isDropped <;> simp; omega
  case duplicated =>
    rw [accounts.duplicated, records.duplicated, List.map_cons, List.sum_cons]
    omega
  case offered =>
    rw [accounts.offered, records.offered, List.flatMap_cons, List.append_assoc]
  case accepted =>
    rw [accounts.accepted, records.accepted, List.flatMap_cons, List.append_assoc]
  case displacement =>
    rw [accounts.displacement, moved, List.map_cons, List.map_cons, List.sum_cons, List.sum_cons]
    omega
  case lawful =>
    have later := accounts.lawful
    rw [records.wanted, records.standing] at later
    exact ⟨records.lawful, later⟩
  case durations =>
    have later := accounts.durations
    rw [records.defaultDuration, records.timecodes] at later
    rw [List.map_cons, List.map_cons, completedDurations, later, records.duration]

end Accounts

/-- Calls in a row, told by the entries of their packets. -/
inductive Calls : Packetizer Journal → List Entry → Packetizer Journal → Prop
  | none (packetizer : Packetizer Journal) : Calls packetizer [] packetizer
  | more {before after : Packetizer Journal} {entry : Entry} {entries : List Entry}
      (records : Records before entry (before.process entry.packet).2)
      (rest : Calls (before.process entry.packet).2 entries after) :
      Calls before (entry :: entries) after

theorem Calls.accounts
    {before after : Packetizer Journal}
    {entries : List Entry}
    (calls : Calls before entries after) :
    Accounts before entries after := by
  induction calls with
  | none packetizer => exact .nil packetizer
  | more records _ inductionHypothesis => exact .cons records inductionHypothesis

theorem exists_calls
    (packetizer : Packetizer Journal)
    (packets : List Packet)
    (waits : packetizer.WaitsInDeficit) :
    ∃ entries : List Entry, entries.map (·.packet) = packets
      ∧ (packetizer.processAll packets).1.map (·.isOk) = entries.map (!·.fate.isRefused)
      ∧ Calls packetizer entries (packetizer.processAll packets).2 := by
  induction packets generalizing packetizer with
  | nil => exact ⟨[], rfl, rfl, .none packetizer⟩
  | cons packet rest inductionHypothesis =>
      obtain ⟨entry, rfl, answered, records⟩ := packetizer.exists_records packet waits
      obtain ⟨entries, arePackets, replies, calls⟩ :=
        inductionHypothesis _ records.waitsInDeficit
      refine ⟨entry :: entries, ?_, ?_, .more records calls⟩
      · rw [List.map_cons, arePackets]
      · simp [processAll, replies, answered]

/-! ## From the first call on -/

/-- A packetizer that has received nothing. -/
structure IsFresh (packetizer : Packetizer Journal) : Prop where
  stats : packetizer.stats = ⟨0, 0, 0, 0⟩
  standing : packetizer.standing = ⟨0, false⟩
  sink : packetizer.sink.entries = []

theorem isFresh_ofSettings
    (settings : Settings)
    (policy : List SinkRequest → Option Fault)
    (duration : Option Int) :
    ((ofSettings settings (.ofPolicy policy)).withDefaultDuration duration).IsFresh :=
  ⟨rfl, rfl, rfl⟩

theorem isFresh_ofTrack
    (track : Track)
    (settings : Settings)
    (policy : List SinkRequest → Option Fault) :
    (ofTrack track settings (.ofPolicy policy)).IsFresh :=
  ⟨rfl, rfl, rfl⟩

/-- The books of a packetizer that was given `packets` from the start, as they
follow from what has become of each packet. -/
structure Balances (packetizer : Packetizer Journal) (packets : List Packet)
    (entries : List Entry) : Prop where
  arePackets : entries.map (·.packet) = packets
  durations : entries.map (·.duration)
    = completedDurations packetizer.defaultDuration packetizer.timecodes packets
  replies : (packetizer.processAll packets).1.map (·.isOk) = entries.map (!·.fate.isRefused)
  received : (packetizer.processAll packets).2.stats.packets = packets.length
  bytes : (packetizer.processAll packets).2.stats.bytes = (packets.map Packet.size).sum
  dropped : (packetizer.processAll packets).2.stats.dropped
    = entries.countP (·.fate.isDropped)
  duplicated : (packetizer.processAll packets).2.stats.duplicated
    = (entries.map (·.fate.copies)).sum
  offered : (packetizer.processAll packets).2.sink.offered.map Packet.content
    = entries.flatMap Entry.offered
  accepted : (packetizer.processAll packets).2.sink.accepted.map Packet.content
    = entries.flatMap Entry.accepted
  acceptedCount : ((packetizer.processAll packets).2.sink.accepted.length : Int)
    = (packetizer.processAll packets).2.stats.packets
        - (packetizer.processAll packets).2.stats.dropped
        + (packetizer.processAll packets).2.stats.duplicated
        - (packetizer.processAll packets).1.countP (!·.isOk)
  displacement : (packetizer.processAll packets).2.displacement
    = (entries.map Entry.copied).sum - (entries.map Entry.payment).sum
  lawful : AreLawful packetizer.wantedDisplacement ⟨0, false⟩ entries
  droppable : ∀ entry ∈ entries, entry.fate.isDropped = true → entry.packet.isDroppable = true

theorem IsFresh.waitsInDeficit {packetizer : Packetizer Journal} (fresh : packetizer.IsFresh) :
    packetizer.WaitsInDeficit := by
  intro awaits
  have noWait : packetizer.awaitsKeyframe = false :=
    congrArg Standing.awaitsKeyframe fresh.standing
  rw [noWait] at awaits
  cases awaits

theorem IsFresh.offered {packetizer : Packetizer Journal} (fresh : packetizer.IsFresh) :
    packetizer.sink.offered = [] := by
  rw [Journal.offered, Journal.requests, fresh.sink]
  rfl

theorem IsFresh.accepted {packetizer : Packetizer Journal} (fresh : packetizer.IsFresh) :
    packetizer.sink.accepted = [] := by
  rw [Journal.accepted, fresh.sink]
  rfl

theorem Accounts.balances
    {packetizer : Packetizer Journal}
    {entries : List Entry}
    (accounts : Accounts packetizer entries
      (packetizer.processAll (entries.map (·.packet))).2)
    (replies : (packetizer.processAll (entries.map (·.packet))).1.map (·.isOk)
      = entries.map (!·.fate.isRefused))
    (fresh : packetizer.IsFresh) :
    packetizer.Balances (entries.map (·.packet)) entries := by
  have still : packetizer.displacement = 0 := congrArg Standing.displacement fresh.standing
  have received := accounts.packets
  have dropped := accounts.dropped
  have duplicated := accounts.duplicated
  have offered := accounts.offered
  have accepted := accounts.accepted
  have displacement := accounts.displacement
  have lawful := accounts.lawful
  rw [fresh.stats, Nat.zero_add] at received dropped duplicated
  rw [fresh.offered, List.map_nil, List.nil_append] at offered
  rw [fresh.accepted, List.map_nil, List.nil_append] at accepted
  rw [still, Int.zero_add] at displacement
  rw [fresh.standing] at lawful
  have errors : (packetizer.processAll (entries.map (·.packet))).1.countP (!·.isOk)
      = entries.countP (·.fate.isRefused) := by
    have same := congrArg (List.countP (!·)) replies
    simpa [List.countP_map, Function.comp_def] using same
  have count := length_flatMap_accepted entries
  constructor
  case arePackets => rfl
  case durations => exact accounts.durations
  case replies => exact replies
  case received => rw [received, List.length_map]
  case bytes =>
    rw [accounts.bytes, fresh.stats, Nat.zero_add, List.map_map]
    rfl
  case dropped => exact dropped
  case duplicated => exact duplicated
  case offered => exact offered
  case accepted => exact accepted
  case acceptedCount =>
    rw [← accepted, List.length_map] at count
    rw [received, dropped, duplicated, errors]
    omega
  case displacement => exact displacement
  case lawful => exact lawful
  case droppable => exact isDroppable_of_areLawful lawful

/-- Whatever the settings are and whatever the sink refuses, the books of a
packetizer balance. -/
theorem exists_balances
    {packetizer : Packetizer Journal}
    (fresh : packetizer.IsFresh)
    (packets : List Packet) :
    ∃ entries, packetizer.Balances packets entries := by
  obtain ⟨entries, rfl, replies, calls⟩ := packetizer.exists_calls packets fresh.waitsInDeficit
  exact ⟨entries, calls.accounts.balances replies fresh⟩

/-- A stage that is to drop 50 of a track, before a sink with room for one
packet. -/
def dropping : Packetizer Journal :=
  ofSettings { Settings.unchanged with displacement := -50 }
    (.ofPolicy fun requests =>
      if 1 < requests.length then some (.corruption 0 "sink full") else none)

theorem exists_balances_dropping :
    ∃ entries, dropping.Balances [longPacket, longPacket, longPacket, longPacket] entries :=
  exists_balances ⟨rfl, rfl, rfl⟩ _

end MediaSplit.Packetizer

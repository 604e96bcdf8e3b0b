import Mathlib.Algebra.Order.Ring.Int
import MediaSplit.Sync.Packetizer

/-!
Contract: what may become of the packets that a sync stage is given.

Owns:
- `Sync.Entry`, a packet received with its fate, and from it what was offered
  and accepted for it and what it does to the displacement;
- `Sync.Entry.IsLawful`, which packets are dropped at some `Sync.Standing`, and
  `Sync.AreLawful`, the same for packets in a row;
- `Sync.completedDurations`, the durations that count.

Does **not** own: that a packetizer keeps to these rules.
-/

set_option autoImplicit false

namespace MediaSplit

/-- What the sync stage leaves of a packet as it is. -/
def Packet.content (packet : Packet) : Bytes × PacketFlags := (packet.payload, packet.flags)

namespace Sync

/-- What has become of a packet. -/
inductive Fate where
  /-- Dropped for a negative displacement. -/
  | paid
  /-- Dropped in the wait for a keyframe. -/
  | waited
  /-- Accepted, behind some copies of it. -/
  | sent (copies : Nat)
  /-- Refused, behind some copies of it. -/
  | refused (copies : Nat)
  /-- Not offered, as a copy of it was refused behind some others. -/
  | copyRefused (copies : Nat)
  deriving DecidableEq, Repr, Inhabited

namespace Fate

/-- How many copies were accepted. -/
def copies : Fate → Nat
  | paid => 0
  | waited => 0
  | sent copies => copies
  | refused copies => copies
  | copyRefused copies => copies

/-- Whether the packet was dropped. -/
def isDropped : Fate → Bool
  | paid => true
  | waited => true
  | _ => false

/-- Whether the sink refused the packet or a copy of it. -/
def isRefused : Fate → Bool
  | refused _ => true
  | copyRefused _ => true
  | _ => false

end Fate

/-- One packet received, the duration it was completed with, and its fate. -/
structure Entry where
  packet : Packet
  duration : Int
  fate : Fate
  deriving Repr, Inhabited

namespace Entry

/-- The contents that were accepted for a packet: copies, marked as such, and
then the packet itself. -/
def accepted (entry : Entry) : List (Bytes × PacketFlags) :=
  List.replicate entry.fate.copies (Packetizer.marked entry.packet).content
    ++ match entry.fate with
      | .sent _ => [entry.packet.content]
      | _ => []

/-- The content that was refused. -/
def refused (entry : Entry) : List (Bytes × PacketFlags) :=
  match entry.fate with
  | .refused _ => [entry.packet.content]
  | .copyRefused _ => [(Packetizer.marked entry.packet).content]
  | _ => []

/-- The contents that were offered for a packet; a refusal is the last. -/
def offered (entry : Entry) : List (Bytes × PacketFlags) := entry.accepted ++ entry.refused

/-- How long the accepted copies of a packet play. -/
def copied (entry : Entry) : Int := entry.fate.copies * entry.duration

/-- What a packet pays for a negative displacement. -/
def payment (entry : Entry) : Int := if entry.fate = .paid then entry.duration else 0

end Entry

/-- What decides on the next packet, besides the wanted displacement. -/
structure Standing where
  displacement : Int
  awaitsKeyframe : Bool
  deriving DecidableEq, Repr, Inhabited

/-- The standing behind a packet. A dropped packet makes those that depend on
an earlier one wait. -/
def Standing.behind (standing : Standing) (entry : Entry) : Standing :=
  { displacement := standing.displacement + entry.copied - entry.payment
    awaitsKeyframe :=
      entry.fate == .paid || standing.awaitsKeyframe && !entry.packet.isKeyframe }

namespace Entry

/-- Whether a packet has to pay the deficit of a negative displacement. -/
def MustPay (entry : Entry) (wanted : Int) (standing : Standing) : Prop :=
  0 < entry.duration ∧ entry.packet.isDroppable = true
    ∧ wanted < 0 ∧ wanted < standing.displacement

/-- Whether a packet has to wait for a keyframe. -/
def MustWait (entry : Entry) (standing : Standing) : Prop :=
  standing.awaitsKeyframe = true ∧ entry.packet.isKeyframe = false
    ∧ entry.packet.isDroppable = true

/-- A packet is dropped where it has to be, and nowhere else. -/
structure IsLawful (entry : Entry) (wanted : Int) (standing : Standing) : Prop where
  paid : entry.fate = .paid ↔ entry.MustPay wanted standing
  waited : entry.fate = .waited ↔ ¬ entry.MustPay wanted standing ∧ entry.MustWait standing

theorem IsLawful.of_kept
    {entry : Entry}
    {wanted : Int}
    {standing : Standing}
    (kept : entry.fate.isDropped = false)
    (pays : ¬ entry.MustPay wanted standing)
    (waits : ¬ entry.MustWait standing) :
    entry.IsLawful wanted standing := by
  have notPaid : entry.fate ≠ .paid := by
    intro paid
    rw [paid] at kept
    cases kept
  have notWaited : entry.fate ≠ .waited := by
    intro waited
    rw [waited] at kept
    cases kept
  exact ⟨by simp [notPaid, pays], by simp [notWaited, waits]⟩

/-- Only a packet that may be dropped is dropped. -/
theorem IsLawful.isDroppable
    {entry : Entry}
    {wanted : Int}
    {standing : Standing}
    (lawful : entry.IsLawful wanted standing)
    (dropped : entry.fate.isDropped = true) :
    entry.packet.isDroppable = true := by
  cases fate : entry.fate with
  | paid => exact (lawful.paid.1 fate).2.1
  | waited => exact (lawful.waited.1 fate).2.2.2
  | sent copies => simp [fate, Fate.isDropped] at dropped
  | refused copies => simp [fate, Fate.isDropped] at dropped
  | copyRefused copies => simp [fate, Fate.isDropped] at dropped

end Entry

/-- Each of some packets in a row is dropped where it has to be, and nowhere
else. -/
def AreLawful (wanted : Int) (standing : Standing) : List Entry → Prop
  | [] => True
  | entry :: rest => entry.IsLawful wanted standing ∧ AreLawful wanted (standing.behind entry) rest

/-- The duration a packet is completed with, and the external timecodes behind
it. -/
def completedDuration (default : Option Int) (timecodes : Option Schedule) (packet : Packet) :
    Int × Option Schedule :=
  let own := packet.duration.or default
  match timecodes with
  | none => (own.getD 0, none)
  | some schedule =>
      let (pull, _, schedule) := schedule.next own false
      (pull.duration.getD 0, some schedule)

/-- The durations that packets in a row are completed with. -/
def completedDurations (default : Option Int) : Option Schedule → List Packet → List Int
  | _, [] => []
  | timecodes, packet :: rest =>
      let (duration, timecodes) := completedDuration default timecodes packet
      duration :: completedDurations default timecodes rest

theorem isDroppable_of_areLawful
    {wanted : Int}
    {standing : Standing}
    {entries : List Entry}
    (lawful : AreLawful wanted standing entries) :
    ∀ entry ∈ entries, entry.fate.isDropped = true → entry.packet.isDroppable = true := by
  induction entries generalizing standing with
  | nil =>
      intro entry member
      cases member
  | cons first rest inductionHypothesis =>
      intro entry member dropped
      rcases List.mem_cons.1 member with rfl | later
      · exact lawful.1.isDroppable dropped
      · exact inductionHypothesis lawful.2 entry later dropped

/-- A packet that is neither dropped nor refused is accepted, behind its
copies. -/
theorem length_flatMap_accepted (entries : List Entry) :
    (entries.flatMap Entry.accepted).length
        + entries.countP (·.fate.isDropped) + entries.countP (·.fate.isRefused)
      = entries.length + (entries.map (·.fate.copies)).sum := by
  induction entries with
  | nil => rfl
  | cons entry rest inductionHypothesis =>
      have own : entry.accepted.length + entry.fate.isDropped.toNat + entry.fate.isRefused.toNat
          = 1 + entry.fate.copies := by
        unfold Entry.accepted
        cases entry.fate <;> simp [Fate.copies, Fate.isDropped, Fate.isRefused, Nat.add_comm]
      rw [List.flatMap_cons, List.length_append, List.countP_cons, List.countP_cons,
        List.map_cons, List.sum_cons, List.length_cons]
      have asNumber : ∀ flag : Bool, (if flag = true then 1 else 0) = flag.toNat := by decide
      rw [asNumber, asNumber]
      omega

end Sync

end MediaSplit

import MediaSplit.Proofs.ProgramStream.StartCodes

/-!
Contract: the packets that a walk over a program comes upon.

Owns:
- `Navigator.HasRead`, the invariant of a walk: the word at hand is the four
  bytes before the position;
- `Navigator.packets`, all packets of a walk that steps from packet to packet
  by the length fields, each with the walk behind its start code;
- that the packets of a walk stand where their start codes are, one behind the
  end of the other.

Does **not** own: what is in a packet.

A resync looks at one byte after the other and knows the three bytes before it
from the word with which it starts, so the invariant has to speak of words that
are no start codes too.
-/

set_option autoImplicit false

namespace MediaSplit.ProgramStream

namespace Navigator

variable {navigator after : Navigator} {word : Nat}

/-! ## The bytes under a walk -/

theorem content_codeAt (navigator : Navigator) (position : Nat) :
    (navigator.codeAt position).2.source.content = navigator.source.content := by
  unfold codeAt
  split <;> rfl

theorem content_codeBehind (navigator : Navigator) (structureEnd : Option Nat) :
    (navigator.codeBehind structureEnd).2.source.content = navigator.source.content := by
  cases structureEnd with
  | none => rfl
  | some position => exact content_codeAt navigator position

theorem content_resync (navigator : Navigator) (word : Nat) :
    (navigator.resync word).2.source.content = navigator.source.content := by
  unfold resync
  split <;> rfl

theorem content_codeAfter (navigator : Navigator) (word : Nat) :
    (navigator.codeAfter word).2.source.content = navigator.source.content := by
  unfold codeAfter
  split
  · exact content_codeBehind navigator.decideVersion _
  split
  · exact content_codeBehind navigator _
  split
  · split
    · exact content_codeAt _ _
    · rfl
  · exact content_resync navigator word

theorem content_packetFrom (navigator : Navigator) (word : Nat) (limit : Option Nat) :
    (navigator.packetFrom word limit).2.source.content = navigator.source.content := by
  fun_induction packetFrom navigator word limit with
  | case1 => rfl
  | case2 => rfl
  | case3 navigator word _ _ next after step inductionHypothesis =>
      have same := content_codeAfter navigator word
      rw [step] at same
      exact inductionHypothesis.trans same
  | case4 navigator word _ _ after step =>
      have same := content_codeAfter navigator word
      rw [step] at same
      exact same

theorem content_nextPacket (navigator : Navigator) (limit : Option Nat) :
    (navigator.nextPacket limit).2.source.content = navigator.source.content := by
  have same := content_codeAt navigator navigator.position
  unfold nextPacket
  split
  next code =>
    rw [code] at same
    rw [content_packetFrom]
    exact same
  next code =>
    rw [code] at same
    exact same

theorem content_of_nextPacket
    {limit : Option Nat}
    {outcome : Option PacketStart}
    (found : navigator.nextPacket limit = (outcome, after)) :
    after.source.content = navigator.source.content := by
  have same := content_nextPacket navigator limit
  rw [found] at same
  exact same

theorem content_of_skipPacket
    {hasField : Bool}
    (skipped : navigator.skipPacket = (hasField, after)) :
    after.source.content = navigator.source.content := by
  unfold skipPacket at skipped
  split at skipped
  · cases skipped
    rfl
  · cases skipped
    rfl

/-! ## Words that have been read -/

/-- The word has just been read: it is the four bytes before the position. -/
def HasRead (navigator : Navigator) (word : Nat) : Prop :=
  4 ≤ navigator.position ∧ navigator.source.numberAt? (navigator.position - 4) 4 = some word

theorem hasRead_of_codeAt
    {position : Nat}
    (found : navigator.codeAt position = (some word, after)) :
    after.HasRead word := by
  unfold codeAt at found
  split at found
  next value present =>
    cases found
    exact ⟨Nat.le_add_left _ _, present⟩
  next => cases found

theorem hasRead_of_codeBehind
    {structureEnd : Option Nat}
    (found : navigator.codeBehind structureEnd = (some word, after)) :
    after.HasRead word := by
  cases structureEnd with
  | none => cases found
  | some position => exact hasRead_of_codeAt found

theorem hasRead_of_codeAfter
    {next : Nat}
    (read : navigator.HasRead word)
    (found : navigator.codeAfter word = (some next, after)) :
    after.HasRead next := by
  unfold codeAfter at found
  split at found
  · exact hasRead_of_codeBehind found
  split at found
  · exact hasRead_of_codeBehind found
  split at found
  · split at found
    · exact hasRead_of_codeAt found
    · cases found
  · unfold resync at found
    rcases findStartCode?_spec read.1 read.2 with ⟨first, code, -, spelled, search⟩ | ⟨-, search⟩
    · rw [search] at found
      cases found
      exact ⟨Nat.le_add_left 4 first, spelled⟩
    · rw [search] at found
      cases found

/-! ## Packets found -/

/-- The walk stands right behind the start code of a packet. -/
structure StandsBehind (navigator : Navigator) (start : PacketStart) : Prop where
  position : navigator.position = start.offset + 4
  isByte : start.id < 256
  code : navigator.source.numberAt? start.offset 4 = some (256 + start.id)

theorem standsBehind_of_packetFrom
    {limit : Option Nat}
    {start : PacketStart}
    (read : navigator.HasRead word)
    (found : navigator.packetFrom word limit = (some start, after)) :
    after.StandsBehind start := by
  fun_induction packetFrom navigator word limit with
  | case1 => cases found
  | case2 navigator word _ isCode =>
      cases found
      have isStart : word / 256 = 1 := by
        simp only [isPacketCode, isStartCode, Bool.and_eq_true, beq_iff_eq] at isCode
        exact isCode.1
      have spelled : 256 + word % 256 = word := by omega
      obtain ⟨four, number⟩ := read
      constructor
      · show after.position = after.position - 4 + 4
        omega
      · exact Nat.mod_lt _ (by decide)
      · show after.source.numberAt? (after.position - 4) 4 = some (256 + word % 256)
        rw [spelled]
        exact number
  | case3 navigator word _ _ next middle step inductionHypothesis =>
      exact inductionHypothesis (hasRead_of_codeAfter read step) found
  | case4 => cases found

theorem standsBehind_of_nextPacket
    {limit : Option Nat}
    {start : PacketStart}
    (found : navigator.nextPacket limit = (some start, after)) :
    after.StandsBehind start := by
  unfold nextPacket at found
  split at found
  next word middle code => exact standsBehind_of_packetFrom (hasRead_of_codeAt code) found
  next => cases found

/-- There is no word where there is no room for one. -/
theorem codeAt_of_short
    {position : Nat}
    (short : navigator.source.size < position + 4) :
    navigator.codeAt position = (none, navigator.movedToEnd) := by
  unfold codeAt
  rw [Source.numberAt?_eq_none_iff.2 short]

/-- There is no packet where there is no room for a start code. -/
theorem nextPacket_of_end
    (limit : Option Nat)
    (short : navigator.source.size < navigator.position + 4) :
    navigator.nextPacket limit = (none, navigator.movedToEnd) := by
  unfold nextPacket
  rw [codeAt_of_short short]

/-- A packet is found where it stands. -/
theorem nextPacket_of_isPacketCode
    (code : navigator.source.numberAt? navigator.position 4 = some word)
    (isCode : isPacketCode word = true) :
    navigator.nextPacket none
      = (some ⟨word % 256, navigator.position⟩, navigator.movedTo (navigator.position + 4)) := by
  unfold nextPacket codeAt
  rw [code]
  dsimp only
  rw [packetFrom, Option.any_none, if_neg Bool.false_ne_true, if_pos isCode]
  rfl

/-- A walk that passes over what starts here finds the packet that it finds from
behind it. -/
theorem nextPacket_of_codeAfter
    {behind : Navigator}
    (code : navigator.source.numberAt? navigator.position 4 = some word)
    (isOther : isPacketCode word = false)
    (goesOn : (navigator.movedTo (navigator.position + 4)).codeAfter word
      = behind.codeAt behind.position) :
    navigator.nextPacket none = behind.nextPacket none := by
  have found : navigator.codeAt navigator.position
      = (some word, navigator.movedTo (navigator.position + 4)) := by
    unfold codeAt
    rw [code]
  conv => lhs; unfold nextPacket
  rw [found]
  dsimp only
  rw [packetFrom, Option.any_none, if_neg Bool.false_ne_true, isOther, if_neg Bool.false_ne_true]
  conv => rhs; unfold nextPacket
  split
  next step => rw [← goesOn, step]
  next step => rw [← goesOn, step]

theorem skipPacket_eq
    {length : Nat}
    (field : navigator.source.numberAt? navigator.position 2 = some length) :
    navigator.skipPacket = (true, navigator.movedTo (navigator.position + 2 + length)) := by
  unfold skipPacket
  rw [field]

/-! ## All packets of a walk -/

/-- The packets that a walk comes upon, each with the walk behind its start
code, when all of them are passed over by their length fields. -/
def packets (limit : Option Nat) (navigator : Navigator) : List (PacketStart × Navigator) :=
  match _found : navigator.nextPacket limit with
  | (none, _) => []
  | (some start, after) =>
      match _skipped : after.skipPacket with
      | (true, behind) => (start, after) :: packets limit behind
      | (false, _) => [(start, after)]
termination_by navigator.source.size - navigator.position
decreasing_by
  have forward := position_lt_of_nextPacket _found
  have onward := position_of_skipPacket _skipped
  omega

theorem packets_of_end
    (limit : Option Nat)
    (short : navigator.source.size < navigator.position + 4) :
    navigator.packets limit = [] := by
  rw [packets, nextPacket_of_end limit short]

theorem packets_of_none
    {limit : Option Nat}
    (found : navigator.nextPacket limit = (none, after)) :
    navigator.packets limit = [] := by
  rw [packets, found]

/-- A packet that can be passed over is followed by the packets behind it. -/
theorem packets_of_skips
    {limit : Option Nat}
    {start : PacketStart}
    {behind : Navigator}
    (found : navigator.nextPacket limit = (some start, after))
    (skipped : after.skipPacket = (true, behind)) :
    navigator.packets limit = (start, after) :: behind.packets limit := by
  rw [packets, found]
  dsimp only
  split
  next behind' skipped' =>
    obtain rfl := (Prod.mk.inj (skipped.symm.trans skipped')).2
    rfl
  next skipped' => cases skipped.symm.trans skipped'

/-- A packet that cannot be passed over is the last one. -/
theorem packets_of_stops
    {limit : Option Nat}
    {start : PacketStart}
    {atEnd : Navigator}
    (found : navigator.nextPacket limit = (some start, after))
    (stopped : after.skipPacket = (false, atEnd)) :
    navigator.packets limit = [(start, after)] := by
  rw [packets, found]
  dsimp only
  split
  next stopped' => cases stopped.symm.trans stopped'
  next => rfl

/-- A packet with a length field is followed by the packets behind its end. -/
theorem packets_of_some
    {limit : Option Nat}
    {start : PacketStart}
    {length : Nat}
    (found : navigator.nextPacket limit = (some start, after))
    (field : after.source.numberAt? after.position 2 = some length) :
    navigator.packets limit
      = (start, after) :: packets limit (after.movedTo (after.position + 2 + length)) :=
  packets_of_skips found (skipPacket_eq field)

/-- A packet without a length field is the last one. -/
theorem packets_of_cutOff
    {limit : Option Nat}
    {start : PacketStart}
    (found : navigator.nextPacket limit = (some start, after))
    (missing : after.source.numberAt? after.position 2 = none) :
    navigator.packets limit = [(start, after)] := by
  have stopped : after.skipPacket = (false, after.movedToEnd) := by
    unfold skipPacket
    rw [missing]
  exact packets_of_stops found stopped

/-- What is said of each packet that a walk comes upon. -/
structure Meets (navigator : Navigator) (packet : PacketStart × Navigator) : Prop where
  content : packet.2.source.content = navigator.source.content
  standsBehind : packet.2.StandsBehind packet.1
  ahead : navigator.position ≤ packet.1.offset

theorem meets_of_nextPacket
    {limit : Option Nat}
    {start : PacketStart}
    (found : navigator.nextPacket limit = (some start, after)) :
    navigator.Meets (start, after) := by
  have stands := standsBehind_of_nextPacket found
  have forward := position_lt_of_nextPacket found
  have place := stands.position
  exact ⟨content_of_nextPacket found, stands, by show navigator.position ≤ start.offset; omega⟩

theorem meets_of_mem_packets
    {limit : Option Nat}
    {packet : PacketStart × Navigator}
    (member : packet ∈ navigator.packets limit) :
    navigator.Meets packet := by
  fun_induction packets limit navigator with
  | case1 => cases member
  | case2 navigator start after found behind skipped inductionHypothesis =>
      have first := meets_of_nextPacket found
      rcases List.mem_cons.1 member with rfl | later
      · exact first
      · have further := inductionHypothesis later
        have same := content_of_skipPacket skipped
        have onward := position_of_skipPacket skipped
        have place := first.standsBehind.position
        have ahead := first.ahead
        exact ⟨(further.content.trans same).trans first.content, further.standsBehind, by
          have later := further.ahead
          dsimp only at place ahead
          omega⟩
  | case3 navigator start after found _ _ =>
      obtain rfl := List.mem_singleton.1 member
      exact meets_of_nextPacket found

/-- A packet starts behind the end of every packet before it. -/
theorem pairwise_packets (limit : Option Nat) (navigator : Navigator) :
    (navigator.packets limit).Pairwise fun earlier later =>
      ∀ length, earlier.2.source.numberAt? earlier.2.position 2 = some length →
        earlier.2.position + 2 + length ≤ later.1.offset := by
  fun_induction packets limit navigator with
  | case1 => exact List.Pairwise.nil
  | case2 navigator start after found behind skipped inductionHypothesis =>
      refine List.Pairwise.cons ?_ inductionHypothesis
      intro later member length field
      rw [skipPacket_eq field] at skipped
      obtain rfl := (Prod.mk.inj skipped).2
      exact (meets_of_mem_packets member).ahead
  | case3 => exact List.pairwise_singleton _ _

end Navigator

end MediaSplit.ProgramStream

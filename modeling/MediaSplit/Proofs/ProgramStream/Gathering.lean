import MediaSplit.ProgramStream.Reader
import MediaSplit.Proofs.ProgramStream.Registry

/-!
Contract: what gathering makes of the payloads of one track.

Owns:
- `Reader.takeIn`, what the payload of a delivery makes ready where its timecode
  is there;
- `Reader.trackPackets`, the packets of one track, computed from the payloads of
  that track and its buffer alone;
- that gathering payloads of all tracks, and taking what is left, gives each
  track these packets and no others;
- `Reader.IsPlain`, a reader that gathers nothing, for which each payload is a
  packet.

Buffers know the number of their track. That this is the place at which they
stand (`Reader.IsNumbered`) is what keeps the packets of the tracks apart.
-/

set_option autoImplicit false

namespace MediaSplit.ProgramStream

/-! ## One buffer -/

namespace GatherBuffer

variable (buffer : GatherBuffer)

theorem track_take : buffer.take.2.track = buffer.track := by
  unfold take
  split <;> rfl

theorem track_of_mem_take {packet : Packet} (member : packet ∈ buffer.take.1) :
    packet.track = buffer.track := by
  unfold take at member
  split at member
  · cases member
  · obtain rfl := Option.mem_some_iff.1 member
    rfl

theorem track_add (payload : Bytes) (timecode : Option Int) (position : Nat) :
    (buffer.add payload timecode position).track = buffer.track := by
  unfold add
  split <;> rfl

/-- A buffer keeps its track, and gives it to all packets that become ready. -/
theorem track_push (payload : Bytes) (timecode : Option Int) (position : Nat) :
    (buffer.push payload timecode position).2.track = buffer.track
      ∧ ∀ packet ∈ (buffer.push payload timecode position).1, packet.track = buffer.track := by
  generalize isRoom :
    (if buffer.capacity < buffer.size + payload.length then buffer.take else (none, buffer))
      = room
  have inRoom : room.2.track = buffer.track ∧ ∀ packet ∈ room.1, packet.track = buffer.track := by
    rw [← isRoom]
    split
    · exact ⟨buffer.track_take, fun _ member => buffer.track_of_mem_take member⟩
    · exact ⟨rfl, fun _ member => nomatch member⟩
  obtain ⟨same, ready⟩ := inRoom
  unfold push
  rw [isRoom]
  dsimp only
  split
  · refine ⟨same, ?_⟩
    intro packet member
    rcases List.mem_append.1 member with first | last
    · exact ready packet (Option.mem_toList.1 first)
    · obtain rfl := List.mem_singleton.1 last
      exact same
  · refine ⟨(track_add _ _ _ _).trans same, ?_⟩
    intro packet member
    exact ready packet (Option.mem_toList.1 member)

end GatherBuffer

namespace Reader

variable {σ : Type} (reader : Reader σ)

/-! ## Timecodes -/

/-- The timecode of a payload, however far its timestamp is from the start of
time. -/
def plainTimecode (delivery : Delivery) : Option Int :=
  if reader.config.hasTimecodes then
    (delivery.timestamp.map reader.registry.distanceOf).filter (0 ≤ ·)
  else none

variable {reader} in
/-- A timecode that is there is the plain one. -/
theorem eq_plainTimecode
    {delivery : Delivery}
    {timecode : Option Int}
    (isTimecode : reader.timecodeOf delivery = .ok timecode) :
    timecode = reader.plainTimecode delivery := by
  unfold timecodeOf at isTimecode
  unfold plainTimecode
  split at isTimecode
  next hasTimecodes =>
    rw [if_pos hasTimecodes]
    obtain ⟨distance, isDistance, filtered⟩ := exists_of_bind isTimecode
    obtain ⟨rfl, -⟩ := Registry.mapM_sinceStart_eq_ok_iff.1 isDistance
    cases filtered
    rfl
  next noTimecodes =>
    rw [if_neg noTimecodes]
    cases isTimecode
    rfl

/-- The packet that a payload becomes on its own. -/
def packetOf (delivery : Delivery) : Packet := delivery.packet (reader.plainTimecode delivery)

/-- The packets that a payload makes ready, and the reader that has taken it in. -/
def takeIn (delivery : Delivery) : List Packet × Reader σ :=
  reader.gather delivery (reader.plainTimecode delivery)

/-! ## One track -/

/-- The buffer of a track, if it gathers. -/
def slotOf (track : Nat) : Option GatherBuffer := (reader.buffers[track]?).join

/-- What a payload makes ready for a track with this buffer, and the buffer
that has taken it in. -/
def gatherInto (slot : Option GatherBuffer) (delivery : Delivery) :
    List Packet × Option GatherBuffer :=
  match slot with
  | none => ([reader.packetOf delivery], none)
  | some buffer =>
      let (ready, buffer) :=
        buffer.push delivery.payload (reader.plainTimecode delivery) delivery.offset
      (ready, some buffer)

/-- The packets of a track with this buffer, from its payloads up to the last. -/
def trackPackets (slot : Option GatherBuffer) : List Delivery → List Packet
  | [] => (slot.bind (·.take.1)).toList
  | delivery :: rest =>
      (reader.gatherInto slot delivery).1
        ++ trackPackets (reader.gatherInto slot delivery).2 rest

variable {reader} in
theorem packetOf_congr
    {other : Reader σ}
    (sameConfig : other.config = reader.config)
    (sameRegistry : other.registry = reader.registry) :
    other.packetOf = reader.packetOf := by
  funext delivery
  unfold packetOf plainTimecode
  rw [sameConfig, sameRegistry]

variable {reader} in
theorem trackPackets_congr
    {other : Reader σ}
    (sameConfig : other.config = reader.config)
    (sameRegistry : other.registry = reader.registry) :
    other.trackPackets = reader.trackPackets := by
  have into : other.gatherInto = reader.gatherInto := by
    funext slot delivery
    unfold gatherInto plainTimecode
    rw [packetOf_congr sameConfig sameRegistry, sameConfig, sameRegistry]
  funext slot deliveries
  induction deliveries generalizing slot with
  | nil => rfl
  | cons first rest inductionHypothesis =>
      rw [trackPackets, trackPackets, into, inductionHypothesis]

/-! ## All tracks -/

/-- Each buffer stands at the place of its track. -/
def IsNumbered : Prop := ∀ track buffer, reader.slotOf track = some buffer → buffer.track = track

/-- Gathering changes buffers and nothing else. -/
theorem takeIn_eq (delivery : Delivery) :
    (reader.takeIn delivery).2
      = { reader with buffers := (reader.takeIn delivery).2.buffers } := by
  unfold takeIn gather
  split <;> rfl

theorem fst_takeIn (delivery : Delivery) :
    (reader.takeIn delivery).1
      = (reader.gatherInto (reader.slotOf delivery.track) delivery).1 := by
  unfold takeIn gather gatherInto slotOf
  cases reader.buffers[delivery.track]?.join with
  | none => rfl
  | some buffer => rfl

theorem slotOf_takeIn (delivery : Delivery) (track : Nat) :
    (reader.takeIn delivery).2.slotOf track
      = if track = delivery.track then
          (reader.gatherInto (reader.slotOf track) delivery).2
        else reader.slotOf track := by
  by_cases same : track = delivery.track
  · rw [if_pos same, same]
    unfold takeIn gather gatherInto slotOf
    cases present : reader.buffers[delivery.track]?.join with
    | none => exact present
    | some buffer =>
        have inside : delivery.track < reader.buffers.length := by
          apply Nat.lt_of_not_le
          intro outside
          rw [List.getElem?_eq_none outside] at present
          cases present
        dsimp only
        rw [List.getElem?_set_self inside]
        rfl
  · rw [if_neg same]
    unfold takeIn gather slotOf
    split
    · rfl
    · dsimp only
      rw [List.getElem?_set_ne (Ne.symm same)]

theorem isNumbered_takeIn {reader : Reader σ} (numbered : reader.IsNumbered)
    (delivery : Delivery) :
    (reader.takeIn delivery).2.IsNumbered := by
  intro track buffer present
  rw [slotOf_takeIn] at present
  by_cases same : track = delivery.track
  · rw [if_pos same] at present
    cases before : reader.slotOf track with
    | none =>
        rw [before] at present
        cases present
    | some first =>
        rw [before] at present
        cases present
        exact (first.track_push _ _ _).1.trans (numbered track first before)
  · rw [if_neg same] at present
    exact numbered track buffer present

/-- What a payload makes ready goes to the track of the payload. -/
theorem track_of_mem_takeIn {reader : Reader σ} (numbered : reader.IsNumbered)
    {delivery : Delivery} {packet : Packet}
    (member : packet ∈ (reader.takeIn delivery).1) :
    packet.track = delivery.track := by
  rw [fst_takeIn] at member
  cases before : reader.slotOf delivery.track with
  | none =>
      rw [before] at member
      obtain rfl := List.mem_singleton.1 member
      rfl
  | some buffer =>
      rw [before] at member
      rw [(buffer.track_push _ _ _).2 packet member]
      exact numbered delivery.track buffer before

/-- What is left in buffers that stand at their places, track by track. -/
theorem filter_take_of_numbered
    (slots : List (Option GatherBuffer))
    (first track : Nat)
    (numbered : ∀ index buffer, slots[index]? = some (some buffer) →
      buffer.track = first + index) :
    (slots.filterMap (·.bind (·.take.1))).filter (·.track = track)
      = if first ≤ track then ((slots[track - first]?).join.bind (·.take.1)).toList else [] := by
  induction slots generalizing first with
  | nil => simp
  | cons slot rest inductionHypothesis =>
      have restNumbered : ∀ index buffer, rest[index]? = some (some buffer) →
          buffer.track = first + 1 + index := by
        intro index buffer present
        rw [numbered (index + 1) buffer present]
        omega
      have later := inductionHypothesis (first + 1) restNumbered
      have here : ∀ packet ∈ slot.bind (·.take.1), packet.track = first := by
        intro packet member
        obtain ⟨buffer, rfl, taken⟩ := Option.bind_eq_some_iff.1 member
        rw [buffer.track_of_mem_take taken]
        exact numbered 0 buffer rfl
      have split : (slot :: rest).filterMap (·.bind (·.take.1))
          = (slot.bind (·.take.1)).toList ++ rest.filterMap (·.bind (·.take.1)) := by
        rw [List.filterMap_cons]
        cases slot.bind (·.take.1) <;> rfl
      rw [split, List.filter_append, later]
      by_cases same : track = first
      · have own : (slot.bind (·.take.1)).toList.filter (·.track = track)
            = (slot.bind (·.take.1)).toList := by
          rw [List.filter_eq_self]
          intro packet member
          rw [here packet (Option.mem_toList.1 member), same]
          exact decide_eq_true rfl
        rw [own, if_neg (by omega), if_pos (by omega), same, Nat.sub_self, List.append_nil]
        rfl
      · have others : (slot.bind (·.take.1)).toList.filter (·.track = track) = [] := by
          rw [List.filter_eq_nil_iff]
          intro packet member
          rw [here packet (Option.mem_toList.1 member)]
          simpa using Ne.symm same
        rw [others, List.nil_append]
        by_cases behind : first + 1 ≤ track
        · have place : track - first = track - (first + 1) + 1 := by omega
          rw [if_pos behind, if_pos (by omega), place, List.getElem?_cons_succ]
        · rw [if_neg behind, if_neg (by omega)]

/-- Taking what is gathered gives each track what is left in its buffer. -/
theorem filter_takeGathered {reader : Reader σ} (numbered : reader.IsNumbered) (track : Nat) :
    reader.takeGathered.1.filter (·.track = track)
      = ((reader.slotOf track).bind (·.take.1)).toList := by
  have taken : reader.takeGathered.1 = reader.buffers.filterMap (·.bind (·.take.1)) := by
    unfold takeGathered
    dsimp only
    rw [List.filterMap_map]
    apply congrArg (List.filterMap · reader.buffers)
    funext slot
    cases slot <;> rfl
  have places : ∀ index buffer, reader.buffers[index]? = some (some buffer) →
      buffer.track = 0 + index := by
    intro index buffer present
    rw [Nat.zero_add]
    apply numbered
    unfold slotOf
    rw [present]
    rfl
  rw [taken, filter_take_of_numbered reader.buffers 0 track places, if_pos (Nat.zero_le _)]
  rfl

/-- What a payload makes ready is all for its own track. -/
theorem filter_fst_takeIn
    {reader : Reader σ}
    (numbered : reader.IsNumbered)
    (delivery : Delivery)
    (track : Nat) :
    (reader.takeIn delivery).1.filter (·.track = track)
      = if track = delivery.track then
          (reader.gatherInto (reader.slotOf track) delivery).1
        else [] := by
  by_cases same : track = delivery.track
  · rw [if_pos same, same, ← fst_takeIn, List.filter_eq_self]
    intro packet member
    rw [track_of_mem_takeIn numbered member]
    exact decide_eq_true rfl
  · rw [if_neg same, List.filter_eq_nil_iff]
    intro packet member
    rw [track_of_mem_takeIn numbered member]
    simpa using Ne.symm same

/-- A payload that is gathered is the first of its track, and no other track
notices it. -/
theorem filter_takeIn
    {reader : Reader σ}
    (numbered : reader.IsNumbered)
    (delivery : Delivery)
    (rest : List Delivery)
    (track : Nat) :
    (reader.takeIn delivery).1.filter (·.track = track)
        ++ reader.trackPackets ((reader.takeIn delivery).2.slotOf track)
            (rest.filter (·.track = track))
      = reader.trackPackets (reader.slotOf track)
          ((delivery :: rest).filter (·.track = track)) := by
  rw [filter_fst_takeIn numbered, slotOf_takeIn]
  by_cases same : track = delivery.track
  · have kept : (delivery :: rest).filter (·.track = track)
        = delivery :: rest.filter (·.track = track) :=
      List.filter_cons_of_pos (by simpa using same.symm)
    rw [if_pos same, if_pos same, kept, trackPackets]
  · have dropped : (delivery :: rest).filter (·.track = track) = rest.filter (·.track = track) :=
      List.filter_cons_of_neg (by simpa using Ne.symm same)
    rw [if_neg same, if_neg same, List.nil_append, dropped]

/-! ## Nothing gathered -/

/-- Whether no track gathers. -/
def IsPlain : Prop := ∀ track, reader.slotOf track = none

namespace IsPlain

variable {reader : Reader σ} (plain : reader.IsPlain)

include plain

theorem isNumbered : reader.IsNumbered := by
  intro track buffer present
  rw [plain track] at present
  cases present

theorem fst_takeIn (delivery : Delivery) :
    (reader.takeIn delivery).1 = [reader.packetOf delivery] := by
  rw [Reader.fst_takeIn, plain]
  rfl

theorem takeIn (delivery : Delivery) : (reader.takeIn delivery).2.IsPlain := by
  intro track
  rw [slotOf_takeIn, plain, ite_eq_right_iff]
  intro _
  rfl

/-- There is nothing to take, as there would be a packet of some track. -/
theorem takeGathered : reader.takeGathered.1 = [] := by
  rw [List.eq_nil_iff_forall_not_mem]
  intro packet member
  have own : packet ∈ reader.takeGathered.1.filter (·.track = packet.track) := by
    rw [List.mem_filter]
    exact ⟨member, decide_eq_true rfl⟩
  rw [filter_takeGathered plain.isNumbered, plain] at own
  cases own

end IsPlain

end Reader

end MediaSplit.ProgramStream

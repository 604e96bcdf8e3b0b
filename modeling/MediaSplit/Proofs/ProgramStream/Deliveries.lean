import MediaSplit.ProgramStream.Payload
import MediaSplit.Proofs.ProgramStream.Walk

/-!
Contract: the payloads that a walk delivers.

Owns:
- `Navigator.past` and `Navigator.payload?`, the end of a packet and its last
  bytes as the length field tells them, and that each way of leaving a packet
  comes there;
- `Navigator.deliveries`, what all packets of a walk give to the tracks that
  are wanted, with `nextDelivery` as the way to take one after the other;
- `Source.HoldsPes`, where a payload lies in the source, and that the payloads
  of a walk lie one behind the other.

Does **not** own: what a reader makes of payloads.

Which packets are passed over unread depends on the tracks that are wanted,
but the packets themselves do not: a packet that is passed over and one that is
read both end where the length field says, however far its header reaches, and
where a header is cut off there is no packet behind it.
-/

set_option autoImplicit false

namespace MediaSplit

/-- A packet of stream `id` stands at `offset`, whose length field says
`length`, and `payload` is a last part of it. -/
structure Source.HoldsPes (source : Source) (offset id length : Nat) (payload : Bytes) : Prop where
  isByte : id < 256
  code : source.bytesAt offset 4 = [0x00, 0x00, 0x01, UInt8.ofNat id]
  field : source.numberAt? (offset + 4) 2 = some length
  inside : offset + 6 + length ≤ source.size
  nonempty : payload ≠ []
  payload : payload <:+ source.bytesAt (offset + 6) length

namespace ProgramStream

theorem StreamId.key_of_ne {id : Nat} (notPrivate : id ≠ privateStream1) (subId : Option Nat) :
    key id subId = id := by
  cases subId with
  | none => rfl
  | some sub => exact if_neg notPrivate

/-- The length field of a packet. -/
def PesContent.fullLength : PesContent → Nat
  | .payload header => header.fullLength
  | .rejected fullLength => fullLength

namespace Navigator

variable {navigator after : Navigator} {start : PacketStart}

/-! ## The end of a packet -/

/-- The walk behind a packet whose length field is at the position. -/
def past (navigator : Navigator) (content : PesContent) : Navigator :=
  navigator.movedTo (navigator.packetEnd content.fullLength)

/-- The payload of a packet whose length field is at the position, unless it is
cut off: the last bytes of the packet. -/
def payload? (navigator : Navigator) (header : PesHeader) : Option Bytes :=
  let packetEnd := navigator.packetEnd header.fullLength
  if packetEnd ≤ navigator.source.size then
    some (navigator.source.bytesAt (packetEnd - header.payloadLength) header.payloadLength)
  else none

/-- Passing over a payload ends at the end of the packet. -/
theorem pass_of_readContent
    {header : PesHeader}
    (read : navigator.readContent start = (.ok (some (.payload header)), after)) :
    after.pass header.payloadLength = navigator.past (.payload header) := by
  cases contentCase_of_readContent read with
  | payload _ _ _ stop _ isEnd =>
      subst stop
      exact congrArg navigator.movedTo isEnd

/-- A rejected packet is left at its end, wherever the reading of its header
stopped. -/
theorem pastRejected_of_readContent
    {fullLength : Nat}
    (stands : start.offset + 4 = navigator.position)
    (read : navigator.readContent start = (.ok (some (.rejected fullLength)), after)) :
    after.pastRejected start fullLength = navigator.past (.rejected fullLength) := by
  cases contentCase_of_readContent read with
  | rejected _ stop =>
      subst stop
      apply congrArg navigator.movedTo
      rw [packetEnd, ← stands]
      rfl

/-- The payload that is taken from where the header was read to is the last part
of the packet, and the walk behind it is at the end of the packet. -/
theorem takePayload_of_readContent
    {header : PesHeader}
    (read : navigator.readContent start = (.ok (some (.payload header)), after)) :
    after.takePayload header.payloadLength
      = (.ok (navigator.payload? header),
        if (navigator.payload? header).isSome then navigator.past (.payload header)
        else navigator.movedToEnd) := by
  cases contentCase_of_readContent read with
  | @payload _ reached _ _ positive stop _ isEnd =>
      subst stop
      have first : navigator.packetEnd header.fullLength - header.payloadLength = reached := by
        omega
      have taken : Source.readExactly header.payloadLength (navigator.movedTo reached).source
          = if navigator.source.size - reached < header.payloadLength then
              (.error .endOfData, navigator.source.movedToEnd)
            else
              (.ok (navigator.source.bytesAt reached header.payloadLength),
                navigator.source.movedTo (reached + header.payloadLength)) :=
        if_neg (Nat.pos_iff_ne_zero.1 positive)
      unfold takePayload
      simp only [payload?, first]
      rw [taken]
      by_cases inside : navigator.packetEnd header.fullLength ≤ navigator.source.size
      · rw [if_neg (by omega), if_pos inside, isEnd]
        rfl
      · rw [if_pos (by omega), if_neg inside]
        rfl

theorem key_of_not_private
    {header : PesHeader}
    (streamId : header.streamId = start.id)
    (notPrivate : start.id ≠ StreamId.privateStream1) :
    header.key = start.id := by
  unfold PesHeader.key
  rw [streamId, StreamId.key_of_ne notPrivate]

/-! ## All deliveries of a walk -/

/-- What a packet gives to the track that wants it. -/
def delivery? (trackOf : Nat → Option Nat) (packet : PacketStart × Navigator) : Option Delivery :=
  match (packet.2.readContent packet.1).1 with
  | .ok (some (.payload header)) =>
      (trackOf header.key).bind fun track =>
        (packet.2.payload? header).map (⟨track, packet.1.offset, header.timestamp, ·⟩)
  | _ => none

/-- What all packets of a walk give to the tracks that want them. -/
def deliveries (trackOf : Nat → Option Nat) (navigator : Navigator) : List Delivery :=
  (navigator.packets none).filterMap (delivery? trackOf)

variable {trackOf : Nat → Option Nat}

/-- A packet that is passed over unread would give nothing. -/
theorem delivery?_of_unwanted
    (notPrivate : start.id ≠ StreamId.privateStream1)
    (unwanted : trackOf start.id = none) :
    delivery? trackOf (start, navigator) = none := by
  have content := navigator.contentCase_readContent start
  unfold delivery?
  dsimp only
  split
  next header read =>
    rw [read] at content
    cases content with
    | payload _ streamId _ _ _ _ =>
        rw [key_of_not_private streamId notPrivate, unwanted]
        rfl
  next => rfl

/-- A payload is there unless its packet reaches behind the end of the data. -/
theorem payload?_eq_none_iff (navigator : Navigator) (header : PesHeader) :
    navigator.payload? header = none
      ↔ navigator.source.size < navigator.packetEnd header.fullLength := by
  simp only [payload?]
  split
  next inside => simp [Nat.not_lt.2 inside]
  next outside => simp [Nat.not_le.1 outside]

theorem deliveries_of_none (found : navigator.nextPacket none = (none, after)) :
    navigator.deliveries trackOf = [] := by
  unfold deliveries
  rw [packets_of_none found]
  rfl

/-- A packet that gives nothing is passed over by its length field. -/
theorem deliveries_of_nothing
    {length : Nat}
    (found : navigator.nextPacket none = (some start, after))
    (field : after.source.numberAt? after.position 2 = some length)
    (nothing : delivery? trackOf (start, after) = none) :
    navigator.deliveries trackOf
      = (after.movedTo (after.packetEnd length)).deliveries trackOf := by
  unfold deliveries
  rw [packets_of_some found field, List.filterMap_cons_none nothing]
  rfl

/-- Behind a packet that gives nothing and leaves no room for another one there
is nothing at all. -/
theorem deliveries_of_last
    (found : navigator.nextPacket none = (some start, after))
    (nothing : delivery? trackOf (start, after) = none)
    (short : ∀ length, after.source.numberAt? after.position 2 = some length →
      after.source.size < after.packetEnd length + 4) :
    navigator.deliveries trackOf = [] := by
  cases field : after.source.numberAt? after.position 2 with
  | none =>
      unfold deliveries
      rw [packets_of_cutOff found field, List.filterMap_cons_none nothing]
      rfl
  | some length =>
      rw [deliveries_of_nothing found field nothing]
      unfold deliveries
      rw [packets_of_end none (short length field)]
      rfl

/-- What a track is given does not depend on what other tracks want. -/
theorem filter_deliveries_congr
    {others : Nat → Option Nat}
    {track : Nat}
    (agree : ∀ key, trackOf key = some track ↔ others key = some track)
    (navigator : Navigator) :
    (navigator.deliveries trackOf).filter (·.track = track)
      = (navigator.deliveries others).filter (·.track = track) := by
  have own : ∀ packet, (delivery? trackOf packet).filter (·.track = track)
      = (delivery? others packet).filter (·.track = track) := by
    intro packet
    apply Option.ext
    intro delivery
    unfold delivery?
    split
    next header _ =>
      simp only [Option.filter_eq_some_iff, Option.bind_eq_some_iff, Option.map_eq_some_iff,
        decide_eq_true_eq]
      constructor
      · rintro ⟨⟨wanted, isWanted, payload, present, rfl⟩, rfl⟩
        exact ⟨⟨wanted, (agree _).1 isWanted, payload, present, rfl⟩, rfl⟩
      · rintro ⟨⟨wanted, isWanted, payload, present, rfl⟩, rfl⟩
        exact ⟨⟨wanted, (agree _).2 isWanted, payload, present, rfl⟩, rfl⟩
    next => rfl
  unfold deliveries
  rw [List.filter_filterMap, List.filter_filterMap]
  apply congrArg (List.filterMap · (navigator.packets none))
  funext packet
  exact own packet

/-- The content of a packet that could be read tells what the packet gives, and
where the other packets start. -/
theorem deliveries_of_content
    {content : PesContent}
    {stopped : Navigator}
    (found : navigator.nextPacket none = (some start, after))
    (read : after.readContent start = (.ok (some content), stopped)) :
    navigator.deliveries trackOf
      = (delivery? trackOf (start, after)).toList ++ (after.past content).deliveries trackOf := by
  have field : after.source.numberAt? after.position 2 = some content.fullLength := by
    cases contentCase_of_readContent read with
    | rejected field _ => exact field
    | payload field _ _ _ _ _ => exact field
  unfold deliveries
  rw [packets_of_some found field, List.filterMap_cons]
  cases delivery? trackOf (start, after) with
  | none => rfl
  | some delivery => rfl

theorem delivery?_of_rejected
    {length : Nat}
    (read : navigator.readContent start = (.ok (some (.rejected length)), after)) :
    delivery? trackOf (start, navigator) = none := by
  unfold delivery?
  rw [read]

theorem delivery?_of_payload
    {header : PesHeader}
    (read : navigator.readContent start = (.ok (some (.payload header)), after)) :
    delivery? trackOf (start, navigator)
      = (trackOf header.key).bind fun track =>
          (navigator.payload? header).map (⟨track, start.offset, header.timestamp, ·⟩) := by
  unfold delivery?
  rw [read]

/-- The next delivery is the first of all deliveries, and the walk behind it
makes the others. -/
theorem deliveries_of_nextDelivery
    {found : Option Delivery}
    (next : navigator.nextDelivery trackOf = (.ok found, after)) :
    navigator.deliveries trackOf
      = found.elim [] fun delivery => delivery :: after.deliveries trackOf := by
  fun_induction nextDelivery trackOf navigator with
  | case1 navigator middle packet =>
      cases next
      exact deliveries_of_none packet
  | case2 navigator start middle packet unwanted behind skipped inductionHypothesis =>
      have nothing : delivery? trackOf (start, middle) = none :=
        delivery?_of_unwanted unwanted.1 unwanted.2
      cases field : middle.source.numberAt? middle.position 2 with
      | none =>
          unfold skipPacket at skipped
          rw [field] at skipped
          cases skipped
      | some length =>
          rw [skipPacket_eq field] at skipped
          obtain rfl := (Prod.mk.inj skipped).2
          rw [deliveries_of_nothing packet field nothing]
          exact inductionHypothesis next
  | case3 navigator start middle packet unwanted atEnd skipped =>
      cases next
      apply deliveries_of_last packet
      · exact delivery?_of_unwanted unwanted.1 unwanted.2
      · intro length field
        rw [skipPacket_eq field] at skipped
        cases skipped
  | case4 => cases next
  | case5 navigator start middle packet _ stopped read =>
      cases next
      cases contentCase_of_readContent read with
      | cutOff short =>
          apply deliveries_of_last packet
          · unfold delivery?
            rw [read]
          · exact short
  | case6 navigator start middle packet _ length _ read inductionHypothesis =>
      rw [deliveries_of_content packet read, delivery?_of_rejected read,
        ← pastRejected_of_readContent (offset_of_nextPacket packet) read]
      exact inductionHypothesis next
  | case7 navigator start middle packet _ header _ read unwanted inductionHypothesis =>
      rw [deliveries_of_content packet read, delivery?_of_payload read, unwanted,
        ← pass_of_readContent read]
      exact inductionHypothesis next
  | case8 => cases next
  | case9 navigator start middle packet _ header _ read track wanted taken behind isTaken =>
      rw [deliveries_of_content packet read, delivery?_of_payload read, wanted, Option.bind_some]
      rw [takePayload_of_readContent read] at isTaken
      cases isTaken
      cases present : middle.payload? header with
      | none =>
          -- the data ends within the packet, so there is no other one
          rw [present] at next
          cases next
          rw [payload?_eq_none_iff] at present
          unfold deliveries
          rw [packets_of_end none (Nat.lt_add_right 4 present)]
          rfl
      | some payload =>
          rw [present] at next
          cases next
          rfl

/-- `after` walks over the same bytes and has come further. -/
structure Advances (navigator after : Navigator) : Prop where
  content : after.source.content = navigator.source.content
  forward : navigator.position < after.position

namespace Advances

theorem trans
    {middle : Navigator}
    (first : navigator.Advances middle)
    (second : middle.Advances after) :
    navigator.Advances after :=
  ⟨second.content.trans first.content, Nat.lt_trans first.forward second.forward⟩

theorem of_nextPacket (found : navigator.nextPacket none = (some start, after)) :
    navigator.Advances after := by
  have forward := position_lt_of_nextPacket found
  exact ⟨content_of_nextPacket found, by omega⟩

theorem of_skipPacket (skipped : navigator.skipPacket = (true, after)) :
    navigator.Advances after := by
  have onward := position_of_skipPacket skipped
  exact ⟨content_of_skipPacket skipped, by omega⟩

theorem past (navigator : Navigator) (content : PesContent) :
    navigator.Advances (navigator.past content) := by
  refine ⟨rfl, ?_⟩
  show navigator.position < navigator.packetEnd content.fullLength
  unfold packetEnd
  omega

end Advances

/-- A delivery moves the walk forward within the data. -/
theorem advances_of_nextDelivery
    {delivery : Delivery}
    (next : navigator.nextDelivery trackOf = (.ok (some delivery), after)) :
    navigator.Advances after ∧ after.position ≤ after.source.size := by
  fun_induction nextDelivery trackOf navigator with
  | case1 => cases next
  | case2 navigator start middle packet _ behind skipped inductionHypothesis =>
      obtain ⟨further, inside⟩ := inductionHypothesis next
      have ahead := (Advances.of_nextPacket packet).trans (.of_skipPacket skipped)
      exact ⟨ahead.trans further, inside⟩
  | case3 => cases next
  | case4 => cases next
  | case5 => cases next
  | case6 navigator start middle packet _ length _ read inductionHypothesis =>
      obtain ⟨further, inside⟩ := inductionHypothesis next
      rw [pastRejected_of_readContent (offset_of_nextPacket packet) read] at further
      have ahead := (Advances.of_nextPacket packet).trans (.past middle (.rejected length))
      exact ⟨ahead.trans further, inside⟩
  | case7 navigator start middle packet _ header _ read _ inductionHypothesis =>
      obtain ⟨further, inside⟩ := inductionHypothesis next
      rw [pass_of_readContent read] at further
      have ahead := (Advances.of_nextPacket packet).trans (.past middle (.payload header))
      exact ⟨ahead.trans further, inside⟩
  | case8 => cases next
  | case9 navigator start middle packet _ header _ read track _ taken behind isTaken =>
      rw [takePayload_of_readContent read] at isTaken
      cases isTaken
      cases present : middle.payload? header with
      | none =>
          rw [present] at next
          cases next
      | some payload =>
          rw [present] at next
          cases next
          have inside : middle.packetEnd header.fullLength ≤ middle.source.size := by
            apply Nat.le_of_not_lt
            intro outside
            rw [← payload?_eq_none_iff, present] at outside
            cases outside
          exact ⟨(Advances.of_nextPacket packet).trans (.past middle (.payload header)), inside⟩

/-! ## Where deliveries lie -/

theorem ofNumber_startCode {id : Nat} (isByte : id < 256) :
    Bytes.ofNumber 4 (256 + id) = [0x00, 0x00, 0x01, UInt8.ofNat id] := by
  have one : (256 + id) / 256 = 1 := by omega
  have low : UInt8.ofNat (256 + id) = UInt8.ofNat id := by
    apply UInt8.toNat_inj.1
    rw [UInt8.toNat_ofNat', UInt8.toNat_ofNat']
    omega
  simp [Bytes.ofNumber, one, low]

/-- The last bytes of a range that lies within the data. -/
theorem bytesAt_suffix
    {source : Source}
    {offset length count : Nat}
    (inside : offset + length ≤ source.size)
    (positive : 0 < count)
    (within : count ≤ length) :
    source.bytesAt (offset + length - count) count ≠ []
      ∧ source.bytesAt (offset + length - count) count <:+ source.bytesAt offset length := by
  constructor
  · apply List.length_pos_iff.1
    rw [Source.length_bytesAt]
    omega
  · have last : source.bytesAt (offset + length - count) count
        = (source.bytesAt offset length).drop (length - count) := by
      have place : offset + length - count = offset + (length - count) := by omega
      have rest : length - (length - count) = count := by omega
      rw [Source.drop_bytesAt, place, rest]
    rw [last]
    exact List.drop_suffix _ _

/-- A payload that is there is a last part of its packet. -/
theorem holdsPes_of_payload?
    {packet : PacketStart × Navigator}
    {header : PesHeader}
    {payload : Bytes}
    (meets : navigator.Meets packet)
    (field : packet.2.source.numberAt? packet.2.position 2 = some header.fullLength)
    (positive : 0 < header.payloadLength)
    (within : header.payloadLength ≤ header.fullLength)
    (present : packet.2.payload? header = some payload) :
    navigator.source.HoldsPes packet.1.offset packet.1.id header.fullLength payload := by
  obtain ⟨same, stands, -⟩ := meets
  have behind : packet.2.packetEnd header.fullLength
      = packet.1.offset + 6 + header.fullLength := by
    unfold packetEnd
    rw [stands.position]
  have code := stands.code
  rw [Source.numberAt?_congr same] at code
  rw [stands.position, Source.numberAt?_congr same] at field
  simp only [payload?, behind] at present
  split at present
  next inside =>
    obtain rfl := Option.some.inj present
    rw [Source.size_congr same] at inside
    rw [Source.bytesAt_congr same]
    obtain ⟨nonempty, isLast⟩ := bytesAt_suffix inside positive within
    refine ⟨stands.isByte, ?_, field, inside, nonempty, isLast⟩
    rw [Source.bytesAt_of_numberAt? code]
    exact ofNumber_startCode stands.isByte
  next => cases present

/-- What a packet gives to a track is a last part of the packet. -/
theorem holdsPes_of_delivery?
    {packet : PacketStart × Navigator}
    {delivery : Delivery}
    (meets : navigator.Meets packet)
    (given : delivery? trackOf packet = some delivery) :
    delivery.offset = packet.1.offset
      ∧ ∃ length subId,
          packet.2.source.numberAt? packet.2.position 2 = some length
            ∧ navigator.source.HoldsPes packet.1.offset packet.1.id length delivery.payload
            ∧ trackOf (StreamId.key packet.1.id subId) = some delivery.track := by
  have content := packet.2.contentCase_readContent packet.1
  unfold delivery? at given
  split at given
  next header read =>
    rw [read] at content
    obtain ⟨track, wanted, mapped⟩ := Option.bind_eq_some_iff.1 given
    obtain ⟨payload, present, rfl⟩ := Option.map_eq_some_iff.1 mapped
    cases content with
    | payload field streamId positive _ ahead isEnd =>
        have within : header.payloadLength ≤ header.fullLength := by
          unfold packetEnd at isEnd
          omega
        have holds := holdsPes_of_payload? meets field positive within present
        unfold PesHeader.key at wanted
        rw [streamId] at wanted
        exact ⟨rfl, header.fullLength, header.subId, field, holds, wanted⟩
  next => cases given

theorem holdsPes_of_mem_deliveries
    {delivery : Delivery}
    (member : delivery ∈ navigator.deliveries trackOf) :
    ∃ id length subId,
      navigator.source.HoldsPes delivery.offset id length delivery.payload
        ∧ trackOf (StreamId.key id subId) = some delivery.track := by
  obtain ⟨packet, isPacket, given⟩ := List.mem_filterMap.1 member
  obtain ⟨sameOffset, length, subId, -, holds, wanted⟩ :=
    holdsPes_of_delivery? (meets_of_mem_packets isPacket) given
  rw [← sameOffset] at holds
  exact ⟨packet.1.id, length, subId, holds, wanted⟩

/-- The packets that deliveries come from lie one behind the other. -/
theorem pairwise_deliveries (trackOf : Nat → Option Nat) (navigator : Navigator) :
    (navigator.deliveries trackOf).Pairwise fun earlier later =>
      ∃ id length, navigator.source.HoldsPes earlier.offset id length earlier.payload
        ∧ earlier.offset + 6 + length ≤ later.offset := by
  unfold deliveries
  rw [List.pairwise_filterMap]
  refine List.Pairwise.imp_of_mem ?_ (pairwise_packets none navigator)
  intro earlier later isEarlier isLater apart first given second givenLater
  have meets := meets_of_mem_packets isEarlier
  obtain ⟨sameOffset, length, -, field, holds, -⟩ := holdsPes_of_delivery? meets given
  obtain ⟨sameLater, -⟩ := holdsPes_of_delivery? (meets_of_mem_packets isLater) givenLater
  have behind := apart length field
  have place := meets.standsBehind.position
  rw [← sameOffset] at holds
  refine ⟨earlier.1.id, length, holds, ?_⟩
  omega

end Navigator

end ProgramStream

end MediaSplit

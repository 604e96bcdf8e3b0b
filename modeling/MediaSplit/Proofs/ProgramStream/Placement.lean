import MediaSplit.Proofs.ProgramStream.Opening
import MediaSplit.Proofs.ProgramStream.Run

/-!
Contract: where the packets of a program come from, if nothing is gathered.

Owns:
- `ArePlaced`, packets that are last parts of PES packets of the source, of
  their own tracks, one behind the other;
- that the packets a reader delivers are placed so, over all tracks and in the
  order of the calls, whatever stands between them, and that there are no more
  calls than bytes.
-/

set_option autoImplicit false

namespace MediaSplit

theorem Source.HoldsPes.of_content_eq
    {source other : Source}
    {offset id length : Nat}
    {payload : Bytes}
    (holds : other.HoldsPes offset id length payload)
    (same : other.content = source.content) :
    source.HoldsPes offset id length payload := by
  obtain ⟨isByte, code, field, inside, nonempty, isLast⟩ := holds
  rw [Source.bytesAt_congr same] at code isLast
  rw [Source.numberAt?_congr same] at field
  rw [Source.size_congr same] at inside
  exact ⟨isByte, code, field, inside, nonempty, isLast⟩

namespace ProgramStream

/-- Each packet is a last part of the PES packet at its position, which is of a
stream of its track; and these PES packets lie one behind the other. -/
structure ArePlaced (source : Source) (tracks : List Track) (packets : List Packet) : Prop where
  holds : ∀ packet ∈ packets, ∃ offset id length subId track,
    packet.position = some offset
      ∧ source.HoldsPes offset id length packet.payload
      ∧ tracks[packet.track]? = some track
      ∧ track.id = StreamId.key id subId
  apart : packets.Pairwise fun earlier later => ∃ offset id length next,
    earlier.position = some offset
      ∧ source.HoldsPes offset id length earlier.payload
      ∧ later.position = some next
      ∧ offset + 6 + length ≤ next

namespace Reader

variable {reader : Reader Journal} {source : Source}

/-- The payloads of a walk make placed packets, as far as they are taken. -/
theorem arePlaced_of_deliveries
    {deliveries : List Delivery}
    {tracks : List Track}
    (isTracks : reader.registry.tracks = .ok tracks)
    (isPrefix : deliveries <+: reader.walk.deliveries reader.wantedTrack)
    (same : reader.walk.source.content = source.content) :
    ArePlaced source tracks (deliveries.map reader.packetOf) := by
  constructor
  · intro packet member
    obtain ⟨delivery, isDelivery, rfl⟩ := List.mem_map.1 member
    have isAhead := isPrefix.subset isDelivery
    obtain ⟨id, length, subId, holds, wanted⟩ := Navigator.holdsPes_of_mem_deliveries isAhead
    obtain ⟨track, present, isId⟩ := Registry.id_of_index? isTracks (isAttached_of_wanted wanted).1
    exact ⟨delivery.offset, id, length, subId, track, rfl, holds.of_content_eq same, present, isId⟩
  · rw [List.pairwise_map]
    have all := Navigator.pairwise_deliveries reader.wantedTrack reader.walk
    apply (all.sublist isPrefix.sublist).imp
    intro earlier later before
    obtain ⟨id, length, holds, apart⟩ := before
    exact ⟨earlier.offset, id, length, later.offset, rfl, holds.of_content_eq same, rfl, apart⟩

/-- A reader that gathers nothing comes to an end, after at most as many calls
as the source has bytes, and delivers placed packets up to there, whether the
last call succeeds or fails. -/
theorem exists_run_arePlaced
    {config : Config}
    {opened : Reader Journal}
    (isOpened : ofSource source config = .ok opened)
    (plain : config.gathers = false)
    {policies : List (Nat × (List SinkRequest → Option Fault))}
    (takes : ∀ entry ∈ policies, ∀ earlier packet, entry.2 (earlier ++ [.process packet]) = none) :
    ∃ visited ending packets,
      ReadRun Reader.read (opened.attachAll policies) visited ending
        ∧ visited.length ≤ source.size
        ∧ (opened.attachAll policies).sinks.acceptedAlong
            ((visited ++ [ending.2]).map (·.sinks)) = packets
        ∧ (∀ track, ending.2.sinks.accepted track = packets.filter (·.track = track))
        ∧ ArePlaced source opened.tracks packets := by
  have begins := begins_attachAll isOpened policies
  have takesPackets := takesPackets_attachAll isOpened takes
  have isTracks := tracks_attachAll isOpened policies
  generalize opened.attachAll policies = reader at begins takesPackets isTracks
  obtain ⟨visited, ending, run, few⟩ := exists_run reader
  obtain ⟨deliveries, isPrefix, gains, along⟩ :=
    acceptedAlong_of_run run takesPackets begins.notDone (begins.isPlain plain)
  have placed := arePlaced_of_deliveries isTracks isPrefix begins.content
  refine ⟨visited, ending, _, run, ?_, along, ?_, placed⟩
  · rw [Source.size_congr begins.content, begins.position] at few
    exact few
  · intro track
    rw [gains.accepted, begins.accepted, List.nil_append]
    split
    next => rfl
    next missing =>
      symm
      rw [List.filter_eq_nil_iff]
      intro packet member
      obtain ⟨delivery, isDelivery, rfl⟩ := List.mem_map.1 member
      obtain ⟨_, _, _, -, wanted⟩ :=
        Navigator.holdsPes_of_mem_deliveries (isPrefix.subset isDelivery)
      intro own
      rw [← of_decide_eq_true own] at missing
      exact missing (isAttached_of_wanted wanted).2

/-- Two streams of audio, with stray bytes between their packets. -/
def strayProgram : Source :=
  Source.ofBytes [
    0x00, 0x00, 0x01, 0xBA, 0x44, 0x00, 0x04, 0x00, 0x04, 0x01, 0x01, 0x89, 0xC3, 0xF8,
    0x00, 0x00, 0x01, 0xC0, 0x00, 0x07, 0x81, 0x00, 0x00, 0xFF, 0xFB, 0x90, 0x00,
    0xAA, 0xBB,
    0x00, 0x00, 0x01, 0xC1, 0x00, 0x07, 0x81, 0x00, 0x00, 0xFF, 0xFB, 0x90, 0x00,
    0x00, 0x00, 0x01, 0xC0, 0x00, 0x04, 0x81, 0x00, 0x00, 0xAA]

theorem exists_run_arePlaced_strayProgram :
    ∃ opened visited ending packets,
      ofSource strayProgram ⟨1024, false, true⟩ = .ok opened
        ∧ ReadRun Reader.read (opened.attachAll [(0, fun _ => none), (1, fun _ => none)]) visited
            ending
        ∧ visited.length ≤ strayProgram.size
        ∧ (opened.attachAll [(0, fun _ => none), (1, fun _ => none)]).sinks.acceptedAlong
            ((visited ++ [ending.2]).map (·.sinks)) = packets
        ∧ (∀ track, ending.2.sinks.accepted track = packets.filter (·.track = track))
        ∧ ArePlaced strayProgram opened.tracks packets := by
  have can : canOpen strayProgram 1024 = true := by decide +kernel
  obtain ⟨opened, isOpened⟩ := @exists_ofSource_of_canOpen _ ⟨1024, false, true⟩ can
  let policies : List (Nat × (List SinkRequest → Option Fault)) :=
    [(0, fun _ => none), (1, fun _ => none)]
  have takes : ∀ entry ∈ policies, ∀ earlier packet,
      entry.2 (earlier ++ [.process packet]) = none := by
    intro entry member earlier packet
    have same : entry.2 = fun _ => none := by
      rcases List.mem_cons.1 member with rfl | other
      · rfl
      · obtain rfl := List.mem_singleton.1 other
        rfl
    rw [same]
  obtain ⟨visited, ending, packets, placed⟩ := exists_run_arePlaced isOpened rfl takes
  exact ⟨opened, visited, ending, packets, isOpened, placed⟩

end Reader

end ProgramStream

end MediaSplit

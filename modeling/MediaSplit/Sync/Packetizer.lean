import MediaSplit.Sink
import MediaSplit.Sync.Settings
import MediaSplit.Track

/-!
Contract: the stage between a reader and the sink of a track, which settles the
timing of every packet.

Owns: `Packetizer`, a sink that passes on to another sink, with its counters.

A packet goes through four steps:

1. a missing timecode continues from the packet before, and a missing duration
   is that of one frame of the track;
2. external timecodes replace those of the container;
3. the displacement policy drops or repeats the packet;
4. what is left is shifted by the displacement so far and scaled.

A negative displacement drops packets until its deficit is used up, and then
waits for a keyframe. A positive one repeats a packet until its surplus is
filled to within half a frame.
-/

set_option autoImplicit false

namespace MediaSplit

/-- Counters of a packetizer. -/
structure Sync.Stats where
  /-- Packets received. -/
  packets : Nat
  /-- Payload bytes received. -/
  bytes : Nat
  /-- Packets dropped by a negative displacement or the wait for a keyframe. -/
  dropped : Nat
  /-- Copies sent for a positive displacement. -/
  duplicated : Nat
  deriving DecidableEq, Repr, Inhabited

/-- The sync stage in front of a sink. -/
structure Packetizer (σ : Type) where
  sink : σ
  /-- Number of the track. -/
  track : Nat
  /-- The speed factor. -/
  linear : Time.Linear
  /-- External timecodes. -/
  timecodes : Option Schedule
  isVideo : Bool
  /-- Duration of packets that carry none. -/
  defaultDuration : Option Int
  /-- The displacement to reach. -/
  wantedDisplacement : Int
  /-- The displacement so far. -/
  displacement : Int
  /-- Whether packets were dropped and no keyframe has come since. -/
  awaitsKeyframe : Bool
  lastTimecode : Option Int
  lastDuration : Int
  stats : Sync.Stats
  /-- Remarks of the external timecodes, first one first. -/
  warnings : List Warning
  deriving Inhabited

namespace Packetizer

variable {σ : Type}

/-- A sync stage with these settings. -/
def ofSettings (settings : Sync.Settings) (sink : σ) : Packetizer σ :=
  { sink := sink
    track := 0
    linear := settings.linear
    timecodes := settings.timecodes
    isVideo := settings.isVideo
    defaultDuration := none
    wantedDisplacement := settings.displacement
    displacement := 0
    awaitsKeyframe := false
    lastTimecode := none
    lastDuration := 0
    stats := ⟨0, 0, 0, 0⟩
    warnings := [] }

/-- A sync stage for a track of an opened input. The offset of the track joins
the displacement, and packets without a duration get one frame of the track. -/
def ofTrack (track : Track) (settings : Sync.Settings) (sink : σ) : Packetizer σ :=
  { ofSettings settings sink with
    track := track.number
    isVideo := settings.isVideo || track.kind == .video
    defaultDuration :=
      (track.video?.bind (·.frameRate)).bind Time.frameDuration?
    wantedDisplacement := settings.displacement + track.timecodeOffset.getD 0 }

/-- The same stage with another duration for packets that carry none. -/
def withDefaultDuration (packetizer : Packetizer σ) (duration : Option Int) : Packetizer σ :=
  { packetizer with defaultDuration := duration }

/-- Whether a negative displacement has not been reached yet. -/
def isInDeficit (packetizer : Packetizer σ) : Bool :=
  packetizer.wantedDisplacement < 0
    && packetizer.wantedDisplacement < packetizer.displacement

/-- Whether a positive displacement is missed by more than half a frame, to
either side. -/
def isInSurplus (packetizer : Packetizer σ) (duration : Int) : Bool :=
  0 < packetizer.wantedDisplacement
    && duration / 2 < (packetizer.wantedDisplacement - packetizer.displacement).natAbs

/-- An instant after shift and scaling. -/
def shifted (packetizer : Packetizer σ) (instant : Int) : Int :=
  packetizer.linear.apply (instant + packetizer.displacement)

/-- A packet with all its instants shifted and scaled. -/
def retimed (packetizer : Packetizer σ) (packet : Packet) (timecode : Int) : Packet :=
  { packet with
    timecode := some (packetizer.shifted timecode)
    duration := packet.duration.map packetizer.linear.apply
    backwardReference := packet.backwardReference.map packetizer.shifted
    forwardReference := packet.forwardReference.map packetizer.shifted }

/-- A packet marked as a copy. -/
def marked (packet : Packet) : Packet :=
  { packet with flags := { packet.flags with mustDuplicate := true } }

/-- The timecode of a packet before external timecodes are asked. -/
def ownTimecode (packetizer : Packetizer σ) (packet : Packet) : Int :=
  packet.timecode.getD
    (match packetizer.lastTimecode with
    | some last => last + packetizer.lastDuration
    | none => 0)

/-- Completes the timing of a packet: its timecode, and the packet with its
duration. -/
def completed (packetizer : Packetizer σ) (packet : Packet) : Int × Packet × Packetizer σ :=
  let ownDuration := packet.duration.or packetizer.defaultDuration
  let (timecode, duration, remarks, timecodes) :=
    match packetizer.timecodes with
    | none => (packetizer.ownTimecode packet, ownDuration, [], none)
    | some schedule =>
        let (pull, remarks, schedule) := schedule.next ownDuration false
        (pull.timecode, pull.duration, remarks, some schedule)
  (timecode, { packet with duration := duration },
    { packetizer with
      timecodes := timecodes
      lastTimecode := some timecode
      lastDuration := duration.getD 0
      warnings := packetizer.warnings ++ remarks })

/-- Counts a received packet. -/
def counting (packetizer : Packetizer σ) (packet : Packet) : Packetizer σ :=
  { packetizer with
    stats := { packetizer.stats with
      packets := packetizer.stats.packets + 1
      bytes := packetizer.stats.bytes + packet.size } }

/-- Counts a dropped packet. -/
def droppingOne (packetizer : Packetizer σ) : Packetizer σ :=
  { packetizer with
    stats := { packetizer.stats with dropped := packetizer.stats.dropped + 1 } }

/-- Pays a deficit with a packet of this duration, which is dropped. -/
def paying (packetizer : Packetizer σ) (duration : Int) : Packetizer σ :=
  { packetizer.droppingOne with
    displacement := packetizer.displacement - duration
    awaitsKeyframe := true }

variable [PacketSink σ]

/-- Offers a packet to the inner sink. -/
def offer (packetizer : Packetizer σ) (packet : Packet) : Reply (Packetizer σ) :=
  let (reply, sink) := PacketSink.process packetizer.sink packet
  (reply, { packetizer with sink := sink })

/-- Sends one copy of a packet. The displacement grows once it is accepted. -/
def sendCopy (packetizer : Packetizer σ) (packet : Packet) (timecode : Int) :
    Reply (Packetizer σ) :=
  match packetizer.offer (marked (packetizer.retimed packet timecode)) with
  | (.error fault, after) => (.error fault, after)
  | (.ok (), after) =>
      (.ok (),
        { after with
          displacement := packetizer.displacement + packet.duration.getD 0
          stats := { after.stats with duplicated := after.stats.duplicated + 1 } })

/-- The greatest displacement that can be represented. -/
def greatestDisplacement : Int := 2 ^ 63 - 1

/-- Whether one more copy of a packet of this duration is to be sent. -/
def wantsCopy (packetizer : Packetizer σ) (duration : Int) : Bool :=
  0 < duration && packetizer.isInSurplus duration
    && packetizer.displacement + duration ≤ greatestDisplacement

theorem displacement_sendCopy
    (packetizer after : Packetizer σ)
    (packet : Packet)
    (timecode : Int)
    (accepted : packetizer.sendCopy packet timecode = (.ok (), after)) :
    after.displacement = packetizer.displacement + packet.duration.getD 0 := by
  unfold sendCopy at accepted
  split at accepted
  · simp at accepted
  · simp only [Prod.mk.injEq, true_and] at accepted
    rw [← accepted]

/-- Sends copies of a packet until the surplus is filled. -/
def sendCopies (packetizer : Packetizer σ) (packet : Packet) (timecode : Int) :
    Reply (Packetizer σ) :=
  if packetizer.wantsCopy (packet.duration.getD 0) = true then
    match _accepted : packetizer.sendCopy packet timecode with
    | (.error fault, after) => (.error fault, after)
    | (.ok (), after) => sendCopies after packet timecode
  else (.ok (), packetizer)
termination_by (greatestDisplacement - packetizer.displacement).toNat
decreasing_by
  rename_i wanted
  simp only [wantsCopy, Bool.and_eq_true, decide_eq_true_eq] at wanted
  have grown := displacement_sendCopy packetizer after packet timecode _accepted
  omega

/-- Sends the packet itself, unless it depends on a dropped one. -/
def sendItself (packetizer : Packetizer σ) (packet : Packet) (timecode : Int) :
    Reply (Packetizer σ) :=
  if packetizer.awaitsKeyframe && !packet.isKeyframe && packet.isDroppable then
    (.ok (), packetizer.droppingOne)
  else
    let waiting := packetizer.awaitsKeyframe && !packet.isKeyframe
    let packetizer := { packetizer with awaitsKeyframe := waiting }
    packetizer.offer (packetizer.retimed packet timecode)

/-- Handles one packet. -/
def process (packetizer : Packetizer σ) (packet : Packet) : Reply (Packetizer σ) :=
  let (timecode, packet, packetizer) := (packetizer.counting packet).completed packet
  let duration := packet.duration.getD 0
  if 0 < duration && packet.isDroppable && packetizer.isInDeficit then
    (.ok (), packetizer.paying duration)
  else
    match packetizer.sendCopies packet timecode with
    | (.error fault, after) => (.error fault, after)
    | (.ok (), after) => after.sendItself packet timecode

/-- Flushes the inner sink. -/
def flush (packetizer : Packetizer σ) : Reply (Packetizer σ) :=
  let (reply, sink) := PacketSink.flush packetizer.sink
  (reply, { packetizer with sink := sink })

instance : PacketSink (Packetizer σ) where
  process := process
  flush := flush

end Packetizer

end MediaSplit

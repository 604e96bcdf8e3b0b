import MediaSplit.Proofs.ProgramStream.Opening
import MediaSplit.Proofs.ProgramStream.Run

/-!
Contract: that gathering moves the boundaries of packets and nothing else.

Owns:
- `Regroups`, packets made of others by putting payloads behind each other, and
  `MovesBoundaries`, what that means for the bytes and stamps of a track;
- `Reader.RunsBeside`, a reader that gathers beside one that does not, both at
  the same place of the program, and how calls of `read` keep them there;
- that the packets of the two differ in their boundaries once both have
  finished, whether the program ended or could not be read further.

What a buffer holds is sent later, on another way than the packets before it.
So the invariant is about what has been sent and what would be sent if the
reader finished now, taken together.
-/

set_option autoImplicit false

namespace MediaSplit.ProgramStream

/-! ## Packets put together -/

/-- Packets made of `singles`, one after the other: each starts a packet, or it
is put behind the last one. -/
inductive Regroups : List Packet → List Packet → Prop
  | nil : Regroups [] []
  | starting {singles packets : List Packet}
      (single : Packet)
      (earlier : Regroups singles packets) :
      Regroups (singles ++ [single]) (packets ++ [single])
  | joining {singles packets : List Packet} {last : Packet}
      (single : Packet)
      (earlier : Regroups singles (packets ++ [last])) :
      Regroups (singles ++ [single])
        (packets ++ [{ last with payload := last.payload ++ single.payload }])

/-- The bytes of `packets` are those of `singles`, and each packet is stamped
as the one of `singles` with whose first byte it starts. -/
structure MovesBoundaries (singles packets : List Packet) : Prop where
  bytes : packets.flatMap (·.payload) = singles.flatMap (·.payload)
  stamped : ∀ {before behind : List Packet} {packet : Packet},
    packets = before ++ packet :: behind →
      ∃ earlier single later, singles = earlier ++ single :: later
        ∧ earlier.flatMap (·.payload) = before.flatMap (·.payload)
        ∧ single.payload ≠ []
        ∧ single.payload <+: packet.payload
        ∧ packet.timecode = single.timecode
        ∧ packet.position = single.position

/-- A packet among some with one more at the end is that one or among the
others. -/
theorem eq_or_exists_of_append_singleton
    {packets before behind : List Packet}
    {last packet : Packet}
    (split : packets ++ [last] = before ++ packet :: behind) :
    (before = packets ∧ packet = last)
      ∨ ∃ rest, packets = before ++ packet :: rest := by
  rcases behind.eq_nil_or_concat with rfl | ⟨rest, final, rfl⟩
  · obtain ⟨same, isLast⟩ := List.append_inj' split rfl
    exact Or.inl ⟨same.symm, (List.singleton_inj.1 isLast).symm⟩
  · rw [List.concat_eq_append, ← List.cons_append, ← List.append_assoc] at split
    exact Or.inr ⟨rest, (List.append_inj' split rfl).1⟩

namespace Regroups

theorem movesBoundaries
    {singles packets : List Packet}
    (regroups : Regroups singles packets)
    (nonempty : ∀ single ∈ singles, single.payload ≠ []) :
    MovesBoundaries singles packets := by
  induction regroups with
  | nil => exact ⟨rfl, fun split => by simp at split⟩
  | @starting singles packets single _ inductionHypothesis =>
      have before := inductionHypothesis fun other member =>
        nonempty other (List.mem_append_left _ member)
      have own := nonempty single (List.mem_append_right _ List.mem_cons_self)
      refine ⟨by simp [before.bytes], fun split => ?_⟩
      rcases eq_or_exists_of_append_singleton split with ⟨rfl, rfl⟩ | ⟨rest, rfl⟩
      · exact ⟨singles, _, [], rfl, before.bytes.symm, own, List.prefix_refl _, rfl, rfl⟩
      · obtain ⟨earlier, first, later, rfl, stamp⟩ := before.stamped rfl
        exact ⟨earlier, first, later ++ [single], by simp, stamp⟩
  | @joining singles packets last single _ inductionHypothesis =>
      have before := inductionHypothesis fun other member =>
        nonempty other (List.mem_append_left _ member)
      have bytes := before.bytes
      rw [List.flatMap_append, List.flatMap_singleton] at bytes
      refine ⟨by simp [← bytes], fun split => ?_⟩
      rcases eq_or_exists_of_append_singleton split with ⟨rfl, rfl⟩ | ⟨rest, rfl⟩
      · obtain ⟨earlier, first, later, rfl, place, filled, isPrefix, stamp⟩ := before.stamped rfl
        exact ⟨earlier, first, later ++ [single], by simp, place, filled,
          isPrefix.trans (List.prefix_append _ _), stamp⟩
      · obtain ⟨earlier, first, later, rfl, stamp⟩ :=
          before.stamped (List.append_assoc _ _ _)
        exact ⟨earlier, first, later ++ [single], by simp, stamp⟩

end Regroups

/-! ## One buffer -/

namespace GatherBuffer

variable {buffer : GatherBuffer} {payload : Bytes}

theorem take_of_empty (isEmpty : buffer.size = 0) : buffer.take = (none, buffer) :=
  if_pos isEmpty

theorem size_take (buffer : GatherBuffer) : buffer.take.2.size = 0 := by
  unfold take
  split
  next isEmpty => exact isEmpty
  next => rfl

/-- A payload on its own. -/
def alone
    (buffer : GatherBuffer)
    (payload : Bytes)
    (timecode : Option Int)
    (position : Nat) : Packet :=
  { Packet.ofPayload payload with
    track := buffer.track, timecode := timecode, position := some position }

theorem take_add_of_empty
    (isEmpty : buffer.size = 0)
    (nonempty : payload ≠ [])
    (timecode : Option Int)
    (position : Nat) :
    (buffer.add payload timecode position).take.1
      = some (buffer.alone payload timecode position) := by
  unfold add
  rw [if_pos isEmpty]
  unfold take size
  rw [if_neg (by simpa using nonempty)]
  rfl

theorem take_add_of_filled
    (filled : buffer.size ≠ 0)
    (payload : Bytes)
    (timecode : Option Int)
    (position : Nat) :
    ∃ last, buffer.take.1 = some last
      ∧ (buffer.add payload timecode position).take.1
          = some { last with payload := last.payload ++ payload } := by
  have fuller : buffer.size + payload.length ≠ 0 := by omega
  refine ⟨_, congrArg Prod.fst (if_neg filled), ?_⟩
  unfold add
  rw [if_neg filled]
  unfold take size at *
  rw [if_neg (by simpa using fuller)]
  simp [Packet.ofPayload]

theorem regroups_add
    {singles sent : List Packet}
    (regroups : Regroups singles (sent ++ buffer.take.1.toList))
    (nonempty : payload ≠ [])
    (timecode : Option Int)
    (position : Nat) :
    Regroups (singles ++ [buffer.alone payload timecode position])
      (sent ++ (buffer.add payload timecode position).take.1.toList) := by
  by_cases isEmpty : buffer.size = 0
  · rw [take_of_empty isEmpty, Option.toList_none, List.append_nil] at regroups
    rw [take_add_of_empty isEmpty nonempty]
    exact regroups.starting _
  · obtain ⟨last, taken, added⟩ := take_add_of_filled isEmpty payload timecode position
    rw [taken] at regroups
    rw [added]
    exact regroups.joining _

/-- What becomes ready and what stays back, taken together, have one payload
more. -/
theorem regroups_push
    {singles sent : List Packet}
    (regroups : Regroups singles (sent ++ buffer.take.1.toList))
    (nonempty : payload ≠ [])
    (timecode : Option Int)
    (position : Nat) :
    Regroups (singles ++ [buffer.alone payload timecode position])
      (sent ++ (buffer.push payload timecode position).1
        ++ (buffer.push payload timecode position).2.take.1.toList) := by
  have emptied := take_of_empty buffer.size_take
  have sameTrack := buffer.track_take
  unfold push
  by_cases overflows : buffer.capacity < buffer.size + payload.length
  · rw [if_pos overflows]
    dsimp only
    split
    · rw [emptied, Option.toList_none, List.append_nil, ← List.append_assoc, sameTrack]
      exact regroups.starting _
    · have regrouped : Regroups singles
          (sent ++ buffer.take.1.toList ++ buffer.take.2.take.1.toList) := by
        rwa [emptied, Option.toList_none, List.append_nil]
      have added := regroups_add regrouped nonempty timecode position
      unfold alone at added ⊢
      rwa [sameTrack] at added
  · rw [if_neg overflows]
    dsimp only
    rw [if_neg (by omega), Option.toList_none, List.append_nil]
    exact regroups_add regroups nonempty timecode position

end GatherBuffer

/-! ## One reader -/

namespace Reader

/-- What the sink of a track would be sent if the reader finished now. -/
def leftFor (reader : Reader Journal) (track : Nat) : List Packet :=
  if reader.sinks.isAttached track then ((reader.slotOf track).bind (·.take.1)).toList else []

theorem IsPlain.leftFor {reader : Reader Journal} (plain : reader.IsPlain) (track : Nat) :
    reader.leftFor track = [] := by
  unfold Reader.leftFor
  rw [plain, Option.bind_none, Option.toList_none, ite_self]

theorem regroups_gatherInto
    (reader : Reader Journal)
    {slot : Option GatherBuffer}
    {delivery : Delivery}
    {singles sent : List Packet}
    (numbered : ∀ buffer, slot = some buffer → buffer.track = delivery.track)
    (nonempty : delivery.payload ≠ [])
    (regroups : Regroups singles (sent ++ (slot.bind (·.take.1)).toList)) :
    Regroups (singles ++ [reader.packetOf delivery])
      (sent ++ (reader.gatherInto slot delivery).1
        ++ ((reader.gatherInto slot delivery).2.bind (·.take.1)).toList) := by
  cases slot with
  | none =>
      rw [Option.bind_none, Option.toList_none, List.append_nil] at regroups
      simp only [gatherInto, Option.bind_none, Option.toList_none, List.append_nil]
      exact regroups.starting _
  | some buffer =>
      have pushed := GatherBuffer.regroups_push regroups nonempty (reader.plainTimecode delivery)
        delivery.offset
      unfold GatherBuffer.alone at pushed
      rw [numbered buffer rfl] at pushed
      exact pushed

variable {reader next : Reader Journal}

namespace Takes

variable {delivery : Delivery} (takes : reader.Takes next delivery)

include takes

theorem nonempty : delivery.payload ≠ [] := by
  have member : delivery ∈ reader.walk.deliveries reader.wantedTrack := by
    rw [takes.deliveries]
    exact List.mem_cons_self
  obtain ⟨_, _, _, holds, -⟩ := Navigator.holdsPes_of_mem_deliveries member
  exact holds.nonempty

theorem packetOf : next.packetOf = reader.packetOf :=
  packetOf_congr takes.config takes.registry

/-- What a track has been sent and what is left for it, taken together, have
the payload more that was for this track. -/
theorem regroups
    (numbered : reader.IsNumbered)
    {track : Nat}
    {singles : List Packet}
    (regroups : Regroups singles (reader.sinks.accepted track ++ reader.leftFor track)) :
    Regroups (singles ++ if track = delivery.track then [reader.packetOf delivery] else [])
      (next.sinks.accepted track ++ next.leftFor track) := by
  unfold leftFor at regroups ⊢
  rw [takes.gains.accepted, takes.gains.attached, takes.slotOf, slotOf_takeIn,
    filter_fst_takeIn numbered]
  by_cases same : track = delivery.track
  · rw [same, takes.isAttached, if_pos rfl] at regroups
    simp only [same, takes.isAttached, if_pos]
    exact reader.regroups_gatherInto (numbered delivery.track) takes.nonempty regroups
  · rw [if_neg same, if_neg same, if_neg same, ite_self, List.append_nil, List.append_nil]
    exact regroups

end Takes

/-- Where no sink refuses a packet, a reader that is given a payload takes it, if
there is a timecode for it. -/
theorem exists_takes_of_given
    {delivery : Delivery}
    {walk : Navigator}
    (takesPackets : reader.sinks.TakesPackets)
    (notDone : reader.isDone = false)
    (given : reader.walk.nextDelivery reader.wantedTrack = (.ok (some delivery), walk))
    (isTimed : (reader.timecodeOf delivery).isOk = true) :
    ∃ next, reader.read = (.ok .moreData, next) ∧ reader.Takes next delivery
      ∧ next.walk = walk := by
  obtain ⟨sinks, delivered, -⟩ := takesPackets.exists_deliverAll (reader.takeIn delivery).1
  obtain ⟨timecode, isTimecode⟩ := exists_of_isOk isTimed
  have read := read_eq notDone
  rw [given] at read
  dsimp only at read
  rw [isTimecode] at read
  dsimp only at read
  rw [delivered] at read
  obtain ⟨other, takes⟩ := takes_of_moreData read
  have same := takes.given
  rw [given] at same
  cases same
  exact ⟨_, read, takes, rfl⟩

/-! ## Finishing -/

theorem finish_finish (reader : Reader Journal) : reader.finish.2.finish.2 = reader.finish.2 := by
  rw [finish, if_pos reader.isDone_finish]

/-- Once reading has stopped and the reader has finished, everything that was
left is sent, whether reading stopped at the end or with an error. -/
theorem accepted_finish_of_stops
    {ending : Step (Reader Journal)}
    (takesPackets : reader.sinks.TakesPackets)
    (notDone : reader.isDone = false)
    (numbered : reader.IsNumbered)
    (read : reader.read = ending)
    (stops : ending.1 ≠ .ok .moreData)
    (track : Nat) :
    ending.2.finish.2.sinks.accepted track
      = reader.sinks.accepted track ++ reader.leftFor track := by
  have finished : ∀ walk,
      ({ reader with walk := walk }).finish.2.sinks.accepted track
        = reader.sinks.accepted track ++ reader.leftFor track := by
    intro walk
    have gains :=
      gains_of_finish_takesPackets { reader with walk := walk } takesPackets notDone
    have sameNumbers : ({ reader with walk := walk }).IsNumbered := numbered
    rw [gains.accepted, filter_takeGathered sameNumbers]
    rfl
  rw [read_eq notDone] at read
  split at read
  next error walk _ =>
    subst read
    exact finished walk
  next walk _ =>
    subst read
    rw [finish_finish]
    exact finished walk
  next delivery walk _ =>
    split at read
    · subst read
      exact finished walk
    · obtain ⟨sinks, delivered, -⟩ := takesPackets.exists_deliverAll (reader.takeIn delivery).1
      rw [delivered] at read
      subst read
      exact absurd rfl stops

/-! ## Two readers -/

variable {gathering plain gathering' plain' : Reader Journal}

/-- Two readers of a program at the same place, of which `plain` gathers
nothing. -/
structure RunsBeside (gathering plain : Reader Journal) : Prop where
  walk : gathering.walk = plain.walk
  registry : gathering.registry = plain.registry
  hasTimecodes : gathering.config.hasTimecodes = plain.config.hasTimecodes
  attached : gathering.sinks.isAttached = plain.sinks.isAttached
  notDone : gathering.isDone = false
  plainNotDone : plain.isDone = false
  takesPackets : gathering.sinks.TakesPackets
  plainTakesPackets : plain.sinks.TakesPackets
  isNumbered : gathering.IsNumbered
  isPlain : plain.IsPlain
  nonempty : ∀ track, ∀ single ∈ plain.sinks.accepted track, single.payload ≠ []
  regroups : ∀ track,
    Regroups (plain.sinks.accepted track) (gathering.sinks.accepted track ++ gathering.leftFor track)

namespace RunsBeside

variable (beside : RunsBeside gathering plain)

include beside

theorem wantedTrack : gathering.wantedTrack = plain.wantedTrack := by
  funext key
  unfold Reader.wantedTrack
  rw [beside.registry, beside.attached]

theorem timecodeOf : gathering.timecodeOf = plain.timecodeOf := by
  funext delivery
  unfold Reader.timecodeOf
  rw [beside.registry, beside.hasTimecodes]

theorem packetOf : gathering.packetOf = plain.packetOf := by
  funext delivery
  unfold Reader.packetOf plainTimecode
  rw [beside.registry, beside.hasTimecodes]

theorem takes
    {delivery : Delivery}
    (takes : gathering.Takes gathering' delivery)
    (plainTakes : plain.Takes plain' delivery)
    (sameWalk : gathering'.walk = plain'.walk) :
    RunsBeside gathering' plain' := by
  have accepted : ∀ track, plain'.sinks.accepted track
      = plain.sinks.accepted track
          ++ if track = delivery.track then [plain.packetOf delivery] else [] := by
    intro track
    rw [plainTakes.gains.accepted, beside.isPlain.fst_takeIn]
    by_cases same : track = delivery.track
    · rw [same, plainTakes.isAttached]
      simp [Reader.packetOf, Delivery.packet]
    · simp [Reader.packetOf, Delivery.packet, same, Ne.symm same]
  refine
    { walk := sameWalk
      registry := by rw [takes.registry, plainTakes.registry, beside.registry]
      hasTimecodes := by rw [takes.config, plainTakes.config, beside.hasTimecodes]
      attached := ?_
      notDone := takes.isDone.trans beside.notDone
      plainNotDone := plainTakes.isDone.trans beside.plainNotDone
      takesPackets := takes.gains.takesPackets beside.takesPackets
      plainTakesPackets := plainTakes.gains.takesPackets beside.plainTakesPackets
      isNumbered := takes.isNumbered beside.isNumbered
      isPlain := plainTakes.isPlain beside.isPlain
      nonempty := ?_
      regroups := ?_ }
  · funext track
    rw [takes.gains.attached, plainTakes.gains.attached, beside.attached]
  · intro track single member
    rw [accepted] at member
    rcases List.mem_append.1 member with before | isNew
    · exact beside.nonempty track single before
    · split at isNew
      · obtain rfl := List.mem_singleton.1 isNew
        exact plainTakes.nonempty
      · cases isNew
  · intro track
    rw [accepted, ← beside.packetOf]
    exact takes.regroups beside.isNumbered (beside.regroups track)

/-- Where one of the two stops, so does the other, and once both have finished
nothing is left. -/
theorem of_stops
    {ending : Step (Reader Journal)}
    (read : plain.read = ending)
    (stops : ending.1 ≠ .ok .moreData) :
    gathering.read.1 ≠ .ok .moreData
      ∧ ∀ track, MovesBoundaries (ending.2.finish.2.sinks.accepted track)
          (gathering.read.2.finish.2.sinks.accepted track) := by
  have stopsToo : gathering.read.1 ≠ .ok .moreData := by
    intro goesOn
    obtain ⟨delivery, takes⟩ := takes_of_moreData (Prod.ext goesOn rfl)
    have given := takes.given
    have isTimed := takes.isTimed
    rw [beside.walk, beside.wantedTrack] at given
    rw [beside.timecodeOf] at isTimed
    obtain ⟨next, more, -⟩ :=
      exists_takes_of_given beside.plainTakesPackets beside.plainNotDone given isTimed
    rw [more] at read
    subst read
    exact stops rfl
  refine ⟨stopsToo, fun track => ?_⟩
  have sent := accepted_finish_of_stops beside.takesPackets beside.notDone beside.isNumbered rfl
    stopsToo track
  have plainSent := accepted_finish_of_stops beside.plainTakesPackets beside.plainNotDone
    beside.isPlain.isNumbered read stops track
  rw [beside.isPlain.leftFor, List.append_nil] at plainSent
  rw [sent, plainSent]
  exact (beside.regroups track).movesBoundaries (beside.nonempty track)

/-- Both readers come to their ends, and once they have finished, they have
sent the same bytes of each track in other pieces. -/
theorem exists_run
    {visited : List (Reader Journal)}
    {ending : Step (Reader Journal)}
    (run : ReadRun Reader.read plain visited ending) :
    ∃ visitedBeside endingBeside,
      ReadRun Reader.read gathering visitedBeside endingBeside
        ∧ ∀ track, MovesBoundaries (ending.2.finish.2.sinks.accepted track)
            (endingBeside.2.finish.2.sinks.accepted track) := by
  induction run generalizing gathering with
  | @ended plain ending read stops =>
      obtain ⟨stopsToo, moves⟩ := beside.of_stops read stops
      exact ⟨[], gathering.read, .ended rfl stopsToo, moves⟩
  | @more plain plain' visited ending read rest inductionHypothesis =>
      obtain ⟨delivery, plainTakes⟩ := takes_of_moreData read
      have given := plainTakes.given
      have isTimed := plainTakes.isTimed
      rw [← beside.walk, ← beside.wantedTrack] at given
      rw [← beside.timecodeOf] at isTimed
      obtain ⟨gathering', readBeside, takes, sameWalk⟩ :=
        exists_takes_of_given beside.takesPackets beside.notDone given isTimed
      obtain ⟨visitedBeside, endingBeside, runBeside, moves⟩ :=
        inductionHypothesis (beside.takes takes plainTakes sameWalk)
      exact ⟨gathering' :: visitedBeside, endingBeside, .more readBeside runBeside, moves⟩

end RunsBeside

/-! ## Two ways to read a program -/

/-- Whether payloads are gathered does not change what is found in a source. -/
theorem ofSource_gathers
    {source : Source}
    {config : Config}
    {opened : Reader Journal}
    (isOpened : ofSource source config = .ok opened) :
    ∃ registry walk tracks, ∀ gathers,
      ofSource source { config with gathers := gathers }
        = .ok (ofRegistry { config with gathers := gathers } registry walk tracks
          : Reader Journal) := by
  obtain ⟨registry, walk, tracks, isPack, discovered, isTracks, -⟩ := ofSource_eq_ok_iff.1 isOpened
  refine ⟨registry, walk, tracks, fun gathers => ?_⟩
  exact ofSource_eq_ok_iff.2 ⟨registry, walk, tracks, isPack, discovered, isTracks, rfl⟩

theorem leftFor_attachAll
    (config : Config)
    (registry : Registry)
    (walk : Navigator)
    (tracks : List Track)
    (policies : List (Nat × (List SinkRequest → Option Fault)))
    (track : Nat) :
    ((ofRegistry config registry walk tracks).attachAll policies).leftFor track = [] := by
  have nothing : ((registry.streams[track]?.bind (bufferOf config track)).bind (·.take.1)) = none := by
    rw [Option.bind_eq_none_iff]
    intro buffer isBuffer
    obtain ⟨stream, -, isBuffer⟩ := Option.bind_eq_some_iff.1 isBuffer
    unfold bufferOf at isBuffer
    split at isBuffer
    · obtain ⟨capacity, -, rfl⟩ := Option.map_eq_some_iff.1 isBuffer
      rfl
    · cases isBuffer
  unfold leftFor
  rw [slotOf_attachAll, slotOf_ofRegistry, nothing, Option.toList_none, ite_self]

/-- A program may be opened with and without gathering if it may be opened at
all. With the same sinks, both readers come to an end, and once they have
finished, each track has been sent the same bytes in other pieces. -/
theorem exists_runs_movesBoundaries
    {source : Source}
    {config : Config}
    {opened : Reader Journal}
    (isOpened : ofSource source config = .ok opened)
    {policies : List (Nat × (List SinkRequest → Option Fault))}
    (takes : ∀ entry ∈ policies, ∀ earlier packet, entry.2 (earlier ++ [.process packet]) = none) :
    ∃ plain gathering visitedPlain endingPlain visited ending,
      ofSource source { config with gathers := false } = .ok plain
        ∧ ofSource source { config with gathers := true } = .ok gathering
        ∧ ReadRun Reader.read (plain.attachAll policies) visitedPlain endingPlain
        ∧ ReadRun Reader.read (gathering.attachAll policies) visited ending
        ∧ ∀ track, MovesBoundaries (endingPlain.2.finish.2.sinks.accepted track)
            (ending.2.finish.2.sinks.accepted track) := by
  obtain ⟨registry, walk, tracks, opens⟩ := ofSource_gathers isOpened
  have isPlain := opens false
  have isGathering := opens true
  have begins := begins_attachAll isGathering policies
  have beginsPlain := begins_attachAll isPlain policies
  have beside : RunsBeside
      ((ofRegistry { config with gathers := true } registry walk tracks).attachAll policies)
      ((ofRegistry { config with gathers := false } registry walk tracks).attachAll policies) :=
    { walk := by rw [walk_attachAll, walk_attachAll]; rfl
      registry := by rw [registry_attachAll, registry_attachAll]; rfl
      hasTimecodes := by rw [attachAll_eq, attachAll_eq]; rfl
      attached := by rw [attachAll_eq, attachAll_eq]; rfl
      notDone := begins.notDone
      plainNotDone := beginsPlain.notDone
      takesPackets := takesPackets_attachAll isGathering takes
      plainTakesPackets := takesPackets_attachAll isPlain takes
      isNumbered := begins.isNumbered
      isPlain := beginsPlain.isPlain rfl
      nonempty := by
        intro track single member
        rw [beginsPlain.accepted] at member
        cases member
      regroups := by
        intro track
        rw [begins.accepted, beginsPlain.accepted, leftFor_attachAll]
        exact .nil }
  obtain ⟨visitedPlain, endingPlain, runPlain, -⟩ := Reader.exists_run
    ((ofRegistry { config with gathers := false } registry walk tracks).attachAll policies)
  obtain ⟨visited, ending, run, moves⟩ := beside.exists_run runPlain
  exact ⟨_, _, visitedPlain, endingPlain, visited, ending, isPlain, isGathering, runPlain, run,
    moves⟩

/-- A stream of video in two packets, of which the first has the headers. -/
def videoProgram : Source :=
  Source.ofBytes [
    0x00, 0x00, 0x01, 0xBA, 0x44, 0x00, 0x04, 0x00, 0x04, 0x01, 0x01, 0x89, 0xC3, 0xF8,
    0x00, 0x00, 0x01, 0xE0, 0x00, 0x17, 0x81, 0x00, 0x00,
    0x00, 0x00, 0x01, 0xB3, 0x01, 0x00, 0x10, 0x13, 0xFF, 0xFF, 0xE0, 0x00,
    0x00, 0x00, 0x01, 0x00, 0x00, 0x0F, 0xFF, 0xF8,
    0x00, 0x00, 0x01, 0xE0, 0x00, 0x05, 0x81, 0x00, 0x00, 0xAA, 0xBB]

theorem exists_runs_movesBoundaries_videoProgram :
    ∃ plain gathering visitedPlain endingPlain visited ending,
      ofSource videoProgram ⟨1024, false, true⟩ = .ok plain
        ∧ ofSource videoProgram ⟨1024, true, true⟩ = .ok gathering
        ∧ ReadRun Reader.read (plain.attachAll [(0, fun _ => none)]) visitedPlain endingPlain
        ∧ ReadRun Reader.read (gathering.attachAll [(0, fun _ => none)]) visited ending
        ∧ ∀ track, MovesBoundaries (endingPlain.2.finish.2.sinks.accepted track)
            (ending.2.finish.2.sinks.accepted track) := by
  have isOk :
      (ofSource videoProgram ⟨1024, true, true⟩ : Except Fault (Reader Journal)).isOk = true := by
    decide +kernel
  obtain ⟨opened, isOpened⟩ := exists_of_isOk isOk
  have takes : ∀ entry ∈ [((0 : Nat), fun _ : List SinkRequest => (none : Option Fault))],
      ∀ earlier packet, entry.2 (earlier ++ [.process packet]) = none := by
    intro entry member earlier packet
    obtain rfl := List.mem_singleton.1 member
    rfl
  exact exists_runs_movesBoundaries isOpened takes

end Reader

end MediaSplit.ProgramStream

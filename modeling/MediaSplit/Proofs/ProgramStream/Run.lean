import MediaSplit.Proofs.ProgramStream.Deliveries
import MediaSplit.Proofs.ProgramStream.Gathering
import MediaSplit.Proofs.Reading
import MediaSplit.Proofs.Sink.Delivery

/-!
Contract: what a reader of a program does, call by call and up to its end.

Owns:
- what a call of `read` has done that asks for another one, and what the last
  one has done;
- that reading ends, after at most as many calls as there are bytes;
- what the sink of each track has accepted at the end, and what all sinks have
  accepted in the order of the calls where nothing is gathered.

The sinks that are attached do not change while a program is read, so the
tracks that are wanted at the start are wanted up to the end.
-/

set_option autoImplicit false

namespace MediaSplit.ProgramStream

namespace Reader

variable {reader next last : Reader Journal}

/-! ## The last call -/

/-- Finishing, told by what the sinks answer. -/
theorem finish_eq (notDone : reader.isDone = false) :
    reader.finish
      = match reader.sinks.deliverAll reader.takeGathered.1 with
        | (.error fault, sinks) =>
            (.error fault, { reader.takeGathered.2 with isDone := true, sinks := sinks })
        | (.ok (), sinks) =>
            match sinks.flushAll with
            | (.error fault, sinks) =>
                (.error fault, { reader.takeGathered.2 with isDone := true, sinks := sinks })
            | (.ok (), sinks) =>
                (.ok .done, { reader.takeGathered.2 with isDone := true, sinks := sinks }) := by
  unfold finish
  rw [notDone, if_neg Bool.false_ne_true]
  dsimp only [takeGathered, send, flush]
  rcases reader.sinks.deliverAll _ with ⟨fault | _, sinks⟩
  · rfl
  · dsimp only
    rcases sinks.flushAll with ⟨fault | _, flushed⟩ <;> rfl

theorem finish_ne_moreData (reader : Reader Journal) : reader.finish.1 ≠ .ok .moreData := by
  cases isDone : reader.isDone with
  | true =>
      unfold finish
      rw [if_pos isDone]
      exact nofun
  | false =>
      rw [finish_eq isDone]
      split
      · exact nofun
      · split <;> exact nofun

/-- A reader has finished whatever its sinks have refused. -/
theorem isDone_finish (reader : Reader Journal) : reader.finish.2.isDone = true := by
  cases isDone : reader.isDone with
  | true =>
      unfold finish
      rw [if_pos isDone]
      exact isDone
  | false =>
      rw [finish_eq isDone]
      split
      · rfl
      · split <;> rfl

/-- Finishing with success has delivered everything that was gathered. -/
theorem gains_of_finish
    (notDone : reader.isDone = false)
    (finished : reader.finish = (.ok .done, last)) :
    reader.sinks.Gains last.sinks reader.takeGathered.1 := by
  rw [finish_eq notDone] at finished
  split at finished
  next => cases finished
  next sinks delivered =>
    have gains := SinkTable.gains_of_deliverAll delivered
    have gainsNone := SinkTable.gains_flushAll sinks
    split at finished
    next => cases finished
    next flushed isFlushed =>
      rw [isFlushed] at gainsNone
      cases finished
      have all := gains.append gainsNone
      rwa [List.append_nil] at all

/-- Where no sink refuses a packet, finishing delivers everything that was
gathered, whether or not a sink refuses the flush. -/
theorem gains_of_finish_takesPackets
    (reader : Reader Journal)
    (takesPackets : reader.sinks.TakesPackets)
    (notDone : reader.isDone = false) :
    reader.sinks.Gains reader.finish.2.sinks reader.takeGathered.1 := by
  obtain ⟨sinks, delivered, gains⟩ := takesPackets.exists_deliverAll reader.takeGathered.1
  have gainsNone := SinkTable.gains_flushAll sinks
  rw [finish_eq notDone, delivered]
  dsimp only
  have all := gains.append gainsNone
  rw [List.append_nil] at all
  split
  next flushed => rwa [flushed] at all
  next flushed => rwa [flushed] at all

/-! ## One call -/

/-- A call of `read`, told by the next payload and by what the sinks answer. -/
theorem read_eq (notDone : reader.isDone = false) :
    reader.read
      = match reader.walk.nextDelivery reader.wantedTrack with
        | (.error error, walk) => (.error error.toFault, { reader with walk := walk })
        | (.ok none, walk) => { reader with walk := walk }.finish
        | (.ok (some delivery), walk) =>
            match reader.timecodeOf delivery with
            | .error fault => (.error fault, { reader with walk := walk })
            | .ok _ =>
                match reader.sinks.deliverAll (reader.takeIn delivery).1 with
                | (.error fault, sinks) =>
                    (.error fault, { (reader.takeIn delivery).2 with walk := walk, sinks := sinks })
                | (.ok (), sinks) =>
                    (.ok .moreData,
                      { (reader.takeIn delivery).2 with walk := walk, sinks := sinks }) := by
  unfold Reader.read
  rw [if_neg (Bool.not_eq_true _ ▸ notDone)]
  rcases reader.walk.nextDelivery reader.wantedTrack with ⟨error | _ | delivery, walk⟩
  · rfl
  · rfl
  · dsimp only
    cases isTimecode : reader.timecodeOf delivery with
    | error fault => rfl
    | ok timecode =>
        dsimp only
        have moved : ({ reader with walk := walk }).gather delivery timecode
            = ((reader.takeIn delivery).1, { (reader.takeIn delivery).2 with walk := walk }) := by
          rw [eq_plainTimecode isTimecode]
          unfold takeIn gather
          dsimp only
          split <;> rfl
        have sameSinks : (reader.takeIn delivery).2.sinks = reader.sinks := by
          rw [takeIn_eq]
        rw [moved]
        dsimp only [send]
        rw [sameSinks]
        rcases reader.sinks.deliverAll _ with ⟨fault | _, sinks⟩ <;> rfl

/-- A payload is delivered to a track that has a sink. -/
theorem isAttached_of_wanted
    {key track : Nat}
    (wanted : reader.wantedTrack key = some track) :
    reader.registry.index? key = some track ∧ reader.sinks.isAttached track = true :=
  Option.filter_eq_some_iff.1 wanted

/-- A reader that has taken in a payload and asks for another call. -/
structure Takes (reader next : Reader Journal) (delivery : Delivery) : Prop where
  given : reader.walk.nextDelivery reader.wantedTrack = (.ok (some delivery), next.walk)
  isTimed : (reader.timecodeOf delivery).isOk = true
  delivered : reader.sinks.deliverAll (reader.takeIn delivery).1 = (.ok (), next.sinks)
  config : next.config = reader.config
  registry : next.registry = reader.registry
  slotOf : next.slotOf = (reader.takeIn delivery).2.slotOf
  isDone : next.isDone = reader.isDone

theorem notDone_of_moreData (read : reader.read = (.ok .moreData, next)) :
    reader.isDone = false := by
  cases isDone : reader.isDone with
  | false => rfl
  | true =>
      unfold Reader.read at read
      rw [if_pos isDone] at read
      cases read

theorem takes_of_moreData (read : reader.read = (.ok .moreData, next)) :
    ∃ delivery, reader.Takes next delivery := by
  rw [read_eq (notDone_of_moreData read)] at read
  split at read
  next => cases read
  next walk _ =>
    have other := finish_ne_moreData { reader with walk := walk }
    rw [read] at other
    exact absurd rfl other
  next delivery walk given =>
    split at read
    next => cases read
    next timecode isTimecode =>
    split at read
    next => cases read
    next sinks delivered =>
      have only := takeIn_eq reader delivery
      cases read
      refine ⟨delivery, given, ?_, delivered, ?_, ?_, rfl, ?_⟩
      · rw [isTimecode]
        rfl
      · rw [only]
      · rw [only]
      · rw [only]

namespace Takes

variable {delivery : Delivery} (takes : reader.Takes next delivery)

include takes

theorem gains : reader.sinks.Gains next.sinks (reader.takeIn delivery).1 :=
  SinkTable.gains_of_deliverAll takes.delivered

theorem isNumbered (numbered : reader.IsNumbered) : next.IsNumbered := by
  intro track buffer present
  rw [takes.slotOf] at present
  exact isNumbered_takeIn numbered delivery track buffer present

/-- The tracks that are wanted stay the same. -/
theorem wantedTrack : next.wantedTrack = reader.wantedTrack := by
  funext key
  have attached : next.sinks.isAttached = reader.sinks.isAttached := by
    funext track
    exact takes.gains.attached track
  unfold Reader.wantedTrack
  rw [takes.registry, attached]

theorem isPlain (plain : reader.IsPlain) : next.IsPlain := by
  intro track
  rw [takes.slotOf]
  exact plain.takeIn delivery track

/-- The payload is the next one of all that are to be delivered. -/
theorem deliveries :
    reader.walk.deliveries reader.wantedTrack
      = delivery :: next.walk.deliveries next.wantedTrack := by
  rw [takes.wantedTrack]
  exact Navigator.deliveries_of_nextDelivery takes.given

/-- The payload is for a track that has a sink. -/
theorem isAttached : reader.sinks.isAttached delivery.track = true := by
  have member : delivery ∈ reader.walk.deliveries reader.wantedTrack := by
    rw [takes.deliveries]
    exact List.mem_cons_self
  obtain ⟨_, _, _, -, wanted⟩ := Navigator.holdsPes_of_mem_deliveries member
  exact (isAttached_of_wanted wanted).2

end Takes

/-- A call that ends with success found no payload, and has delivered all that
was gathered. -/
theorem gains_of_done
    (notDone : reader.isDone = false)
    (read : reader.read = (.ok .done, last)) :
    reader.walk.deliveries reader.wantedTrack = []
      ∧ reader.sinks.Gains last.sinks reader.takeGathered.1 := by
  rw [read_eq notDone] at read
  split at read
  next => cases read
  next walk nothing =>
    have gains : ({ reader with walk := walk }).sinks.Gains last.sinks
        ({ reader with walk := walk }).takeGathered.1 :=
      gains_of_finish notDone read
    exact ⟨Navigator.deliveries_of_nextDelivery nothing, gains⟩
  next delivery walk _ =>
    split at read
    · cases read
    split at read
    · cases read
    · cases read

/-- Where no sink refuses a packet and nothing is gathered, the last call gives
nothing to the sinks, whether it succeeds or fails. -/
theorem gains_of_stops
    {ending : Step (Reader Journal)}
    (takesPackets : reader.sinks.TakesPackets)
    (notDone : reader.isDone = false)
    (plain : reader.IsPlain)
    (read : reader.read = ending)
    (stops : ending.1 ≠ .ok .moreData) :
    reader.sinks.Gains ending.2.sinks [] := by
  rw [read_eq notDone] at read
  split at read
  next =>
    subst read
    exact SinkTable.Gains.refl _
  next walk _ =>
    have gains : reader.sinks.Gains ({ reader with walk := walk }).finish.2.sinks
        ({ reader with walk := walk }).takeGathered.1 :=
      gains_of_finish_takesPackets { reader with walk := walk } takesPackets notDone
    have samePlain : ({ reader with walk := walk }).IsPlain := plain
    rw [samePlain.takeGathered, read] at gains
    exact gains
  next delivery walk _ =>
    split at read
    · subst read
      exact SinkTable.Gains.refl _
    · obtain ⟨sinks, delivered, -⟩ := takesPackets.exists_deliverAll (reader.takeIn delivery).1
      rw [delivered] at read
      subst read
      exact absurd rfl stops

/-! ## All calls -/

/-- Reading ends, after at most as many calls as there are bytes ahead. -/
theorem exists_run (reader : Reader Journal) :
    ∃ visited ending, ReadRun Reader.read reader visited ending
      ∧ visited.length ≤ reader.walk.source.size - reader.walk.position := by
  let left := fun reader : Reader Journal => reader.walk.source.size - reader.walk.position
  apply ReadRun.exists_of_decreasing left
  intro reader next read
  obtain ⟨delivery, takes⟩ := takes_of_moreData read
  obtain ⟨advances, inside⟩ := Navigator.advances_of_nextDelivery takes.given
  have forward := advances.forward
  have sameSize := Source.size_congr advances.content
  dsimp only [left]
  omega

/-- What the sink of a track has accepted at the end depends on nothing but the
payloads of that track. -/
theorem accepted_of_run
    {visited : List (Reader Journal)}
    (run : ReadRun Reader.read reader visited (.ok .done, last))
    (notDone : reader.isDone = false)
    (numbered : reader.IsNumbered)
    (track : Nat) :
    last.sinks.accepted track
      = reader.sinks.accepted track
          ++ if reader.sinks.isAttached track then
              reader.trackPackets (reader.slotOf track)
                ((reader.walk.deliveries reader.wantedTrack).filter (·.track = track))
            else [] := by
  generalize isEnding : ((.ok .done, last) : Step (Reader Journal)) = ending at run
  induction run with
  | ended read stops =>
      rw [← isEnding] at read
      obtain ⟨nothing, gains⟩ := gains_of_done notDone read
      rw [gains.accepted, nothing, filter_takeGathered numbered]
      rfl
  | more read rest inductionHypothesis =>
      obtain ⟨delivery, takes⟩ := takes_of_moreData read
      have later := inductionHypothesis (takes.isDone.trans notDone) (takes.isNumbered numbered)
        isEnding
      rw [later, takes.gains.accepted, takes.gains.attached, List.append_assoc,
        takes.deliveries, trackPackets_congr takes.config takes.registry, takes.slotOf,
        ← filter_takeIn numbered]
      apply congrArg
      split
      · rfl
      · rfl

/-- Where nothing is gathered, every call but the last gives one packet to one
sink, and the last one gives nothing. -/
theorem acceptedAlong_of_run
    {visited : List (Reader Journal)}
    {ending : Step (Reader Journal)}
    (run : ReadRun Reader.read reader visited ending)
    (takesPackets : reader.sinks.TakesPackets)
    (notDone : reader.isDone = false)
    (plain : reader.IsPlain) :
    ∃ deliveries, deliveries <+: reader.walk.deliveries reader.wantedTrack
      ∧ reader.sinks.Gains ending.2.sinks (deliveries.map reader.packetOf)
      ∧ reader.sinks.acceptedAlong ((visited ++ [ending.2]).map (·.sinks))
          = deliveries.map reader.packetOf := by
  induction run with
  | @ended reader ending read stops =>
      have gains := gains_of_stops takesPackets notDone plain read stops
      refine ⟨[], List.nil_prefix, gains, ?_⟩
      rw [List.nil_append, List.map_singleton, SinkTable.acceptedAlong,
        SinkTable.acceptedSince_of_gains_nil gains]
      rfl
  | @more reader next visited ending read rest inductionHypothesis =>
      obtain ⟨delivery, takes⟩ := takes_of_moreData read
      obtain ⟨deliveries, isPrefix, later, along⟩ :=
        inductionHypothesis (takes.gains.takesPackets takesPackets) (takes.isDone.trans notDone)
          (takes.isPlain plain)
      have gains := takes.gains
      rw [plain.fst_takeIn] at gains
      have first : reader.sinks.acceptedSince next.sinks = [reader.packetOf delivery] :=
        SinkTable.acceptedSince_of_gains_singleton gains takes.isAttached
      rw [packetOf_congr takes.config takes.registry] at later along
      refine ⟨delivery :: deliveries, ?_, gains.append later, ?_⟩
      · rw [takes.deliveries]
        exact List.cons_prefix_cons.2 ⟨rfl, isPrefix⟩
      · rw [List.cons_append, List.map_cons, SinkTable.acceptedAlong, along, first]
        rfl

end Reader

end MediaSplit.ProgramStream

import MediaSplit.Proofs.ProgramStream.Opening
import MediaSplit.Proofs.ProgramStream.Run

/-!
Contract: that the tracks of a program do not disturb each other.

Owns: that what the sink of a track has accepted at the end of a program does
not depend on which other tracks have sinks.

Packets of a track without a sink are passed over unread, and with a sink they
are read. Both runs see the same packets of the program, of which each track
takes its own.
-/

set_option autoImplicit false

namespace MediaSplit.ProgramStream.Reader

/-- Two runs over one program end with the same packets for a track that has a
sink in both, whatever the sinks of the other tracks are. -/
theorem accepted_eq_of_runs
    {source : Source}
    {config : Config}
    {opened : Reader Journal}
    (isOpened : ofSource source config = .ok opened)
    {policies others : List (Nat × (List SinkRequest → Option Fault))}
    {track : Nat}
    (isAttached : track ∈ policies.map Prod.fst)
    (isAttachedOther : track ∈ others.map Prod.fst)
    {visited visitedOther : List (Reader Journal)}
    {last lastOther : Reader Journal}
    (run : ReadRun Reader.read (opened.attachAll policies) visited (.ok .done, last))
    (runOther : ReadRun Reader.read (opened.attachAll others) visitedOther
      (.ok .done, lastOther)) :
    last.sinks.accepted track = lastOther.sinks.accepted track := by
  have begins := begins_attachAll isOpened policies
  have beginsOther := begins_attachAll isOpened others
  have accepted := accepted_of_run run begins.notDone begins.isNumbered track
  have acceptedOther := accepted_of_run runOther beginsOther.notDone beginsOther.isNumbered track
  have sameAttached : (opened.attachAll policies).sinks.isAttached track
      = (opened.attachAll others).sinks.isAttached track := by
    rw [isAttached_attachAll isOpened isAttached, isAttached_attachAll isOpened isAttachedOther]
  have agree : ∀ key, (opened.attachAll policies).wantedTrack key = some track
      ↔ (opened.attachAll others).wantedTrack key = some track := by
    intro key
    unfold wantedTrack
    rw [Option.filter_eq_some_iff, Option.filter_eq_some_iff, registry_attachAll,
      registry_attachAll, sameAttached]
  rw [accepted, acceptedOther, begins.accepted, beginsOther.accepted, sameAttached,
    trackPackets_attachAll, trackPackets_attachAll, slotOf_attachAll, slotOf_attachAll,
    walk_attachAll, walk_attachAll, Navigator.filter_deliveries_congr agree]

/-- A program of two streams of audio. -/
def twoStreams : Source :=
  Source.ofBytes [
    0x00, 0x00, 0x01, 0xBA, 0x44, 0x00, 0x04, 0x00, 0x04, 0x01, 0x01, 0x89, 0xC3, 0xF8,
    0x00, 0x00, 0x01, 0xC0, 0x00, 0x07, 0x81, 0x00, 0x00, 0xFF, 0xFB, 0x90, 0x00,
    0x00, 0x00, 0x01, 0xC1, 0x00, 0x07, 0x81, 0x00, 0x00, 0xFF, 0xFB, 0x90, 0x00,
    0x00, 0x00, 0x01, 0xC0, 0x00, 0x04, 0x81, 0x00, 0x00, 0xAA]

theorem accepted_eq_of_runs_twoStreams :
    ∃ opened visited last visitedOther lastOther,
      ofSource twoStreams .standard = .ok opened
        ∧ ReadRun Reader.read (opened.attachAll [(0, fun _ => none)]) visited (.ok .done, last)
        ∧ ReadRun Reader.read (opened.attachAll [(1, fun _ => none), (0, fun _ => none)])
            visitedOther (.ok .done, lastOther)
        ∧ last.sinks.accepted 0 = lastOther.sinks.accepted 0 := by
  have isOk : (Registry.empty.meetPackets (Navigator.ofSource (twoStreams.movedTo 0))
      Config.standard.window).isOk = true := by
    decide +kernel
  have evaluated : (Registry.empty.meetPackets (Navigator.ofSource (twoStreams.movedTo 0))
      Config.standard.window).toOption.any (fun found =>
        decide (found.1.streams.Pairwise fun earlier later => earlier.sortKey ≤ later.sortKey)
          && found.1.finishInPlace.tracks.toOption.any fun tracks =>
            let opened : Reader Journal :=
              ofRegistry .standard found.1.finishInPlace (found.2.movedTo 0) tracks
            ReadRun.endsWithin Reader.read 5 (opened.attachAll [(0, fun _ => none)])
              && ReadRun.endsWithin Reader.read 5
                (opened.attachAll [(1, fun _ => none), (0, fun _ => none)])) = true := by
    decide +kernel
  obtain ⟨⟨registry, walk⟩, met⟩ := exists_of_isOk isOk
  rw [met] at evaluated
  dsimp only [Except.toOption, Option.any_some] at evaluated
  rw [Bool.and_eq_true, decide_eq_true_eq] at evaluated
  obtain ⟨sorted, ended⟩ := evaluated
  obtain ⟨tracks, isFound, ends⟩ := Option.any_eq_true .. |>.1 ended
  obtain ⟨ends, endsOther⟩ := Bool.and_eq_true_iff.1 ends
  have isOpened := ofSource_of_pairwise (by decide) met sorted (toOption_eq_some_iff.1 isFound)
  obtain ⟨visited, last, run⟩ := ReadRun.exists_of_endsWithin ends
  obtain ⟨visitedOther, lastOther, runOther⟩ := ReadRun.exists_of_endsWithin endsOther
  have same := accepted_eq_of_runs isOpened List.mem_cons_self
    (List.mem_cons_of_mem _ List.mem_cons_self) run runOther
  exact ⟨_, visited, last, visitedOther, lastOther, isOpened, run, runOther, same⟩

end MediaSplit.ProgramStream.Reader

import MediaSplit.Proofs.ProgramStream.Meeting
import MediaSplit.Proofs.ProgramStream.Opening

/-!
Contract: the time that the timestamps of a program count from.

Owns:
- `Standing`, what a registry knows of a key once some packets are met, and that
  each further packet keeps to it (`Told.meets`);
- that an opened reader has the least timestamp of each stream and counts from
  the least of those (`Reader.CountsFromFirst`).

Once a packet spoils a key, discovery looks at no timestamp under it any more, not
even at those of a stream that it has identified before. So the least timestamp is
that of the packets before the first such packet, and it can be greater than that
of all.
-/

set_option autoImplicit false

namespace MediaSplit.ProgramStream

/-! ## What a registry knows of a key -/

namespace Registry

/-- The streams of a key, of which there is at most one. -/
def streamsOf (registry : Registry) (key : Nat) : List Stream :=
  registry.streams.filter (·.key = key)

section StreamsOf

variable {registry : Registry} {key other : Nat}

theorem isRefused_refuse_iff :
    (registry.refuse other).isRefused key = true ↔ key = other ∨ registry.isRefused key = true := by
  simp only [isRefused, refuse, List.contains_iff_mem, List.mem_insert_iff]

theorem isRefused_refuse_of_ne (isOther : other ≠ key) :
    (registry.refuse other).isRefused key = registry.isRefused key := by
  rw [Bool.eq_iff_iff, isRefused_refuse_iff]
  exact or_iff_right (Ne.symm isOther)

theorem streamsOf_eq_nil_iff : registry.streamsOf key = [] ↔ registry.index? key = none := by
  rw [index?_eq_none_iff, streamsOf, List.filter_eq_nil_iff]
  simp

theorem streamsOf_insert (finding : Finding) (timestamp : Option Int) :
    (registry.insert other finding timestamp).streamsOf key
      = registry.streamsOf key ++ if other = key then [⟨other, finding, timestamp⟩] else [] := by
  unfold streamsOf insert
  rw [List.filter_append]
  by_cases own : other = key <;> simp [own]

theorem exists_modify
    {index : Nat}
    {stream : Stream}
    {streams : List Stream}
    (present : streams[index]? = some stream) :
    ∃ before behind, streams = before ++ stream :: behind
      ∧ ∀ change, streams.modify index change = before ++ change stream :: behind := by
  obtain ⟨within, isStream⟩ := List.getElem?_eq_some_iff.1 present
  refine ⟨streams.take index, streams.drop (index + 1), ?_, ?_⟩
  · rw [← isStream, List.getElem_cons_drop, List.take_append_drop]
  · intro change
    rw [List.modify_eq_take_cons_drop within, isStream]

/-- A timestamp changes the stream of its key alone. -/
theorem streamsOf_observe
    {index : Nat}
    (known : registry.index? other = some index)
    (timestamp : Option Int) :
    (other ≠ key → (registry.observe index timestamp).streamsOf key = registry.streamsOf key)
      ∧ ∀ stream, other = key → registry.streamsOf key = [stream] →
        (registry.observe index timestamp).streamsOf key = [stream.observe timestamp] := by
  obtain ⟨found, present, isKey⟩ := key_of_index? known
  obtain ⟨before, behind, split, modified⟩ := exists_modify present
  have after : (registry.observe index timestamp).streams
      = before ++ found.observe timestamp :: behind := modified (·.observe timestamp)
  unfold streamsOf
  rw [after, split, List.filter_append, List.filter_append]
  constructor
  · intro isOther
    rw [List.filter_cons_of_neg (by simpa [isKey] using isOther),
      List.filter_cons_of_neg (by simpa [isKey] using isOther)]
  · rintro stream rfl isOnly
    rw [List.filter_cons_of_pos (by simpa using isKey)] at isOnly
    rw [List.filter_cons_of_pos (by simpa using isKey)]
    rcases List.append_eq_singleton_iff.1 isOnly with ⟨noneBefore, isCons⟩ | ⟨-, isNil⟩
    · obtain ⟨rfl, noneBehind⟩ := List.cons.inj isCons
      rw [noneBefore, noneBehind]
      rfl
    · cases isNil

end StreamsOf

end Registry

/-- What a registry knows of a key once packets with these headings are met. -/
inductive Standing (key : Nat) (met : List Heading) (registry : Registry) : Prop
  | unmet
      (noStream : registry.streamsOf key = [])
      (notRefused : registry.isRefused key = false)
      (unheard : ∀ heading ∈ met, heading.key ≠ key)
  | refused
      (noStream : registry.streamsOf key = [])
      (isRefused : registry.isRefused key = true)
  | known {stream : Stream}
      (isOnly : registry.streamsOf key = [stream])
      (first : stream.firstTimestamp
        = (Heading.timestamps key (Heading.untilSpoilt key met)).min?)
      (isRefused_iff : registry.isRefused key = true ↔ ∃ heading ∈ met, heading.spoils key = true)

/-- A registry that has been told of packets with these headings. -/
structure Told (met : List Heading) (registry : Registry) : Prop where
  isTrackKey : ∀ stream ∈ registry.streams, IsTrackKey stream.key
  standing : ∀ key, IsTrackKey key → Standing key met registry

section Step

variable {key : Nat} {met : List Heading} {heading : Heading} {registry after : Registry}

/-- A packet that has to do with another key leaves the standing of this one. -/
theorem Standing.of_ne
    (standing : Standing key met registry)
    (isOther : heading.key ≠ key)
    (sameStreams : after.streamsOf key = registry.streamsOf key)
    (sameRefused : after.isRefused key = registry.isRefused key) :
    Standing key (met ++ [heading]) after := by
  cases standing with
  | unmet noStream notRefused unheard =>
      refine .unmet (sameStreams.trans noStream) (sameRefused.trans notRefused) ?_
      intro earlier member
      rcases List.mem_append.1 member with before | last
      · exact unheard earlier before
      · rwa [List.mem_singleton.1 last]
  | refused noStream isRefused =>
      exact .refused (sameStreams.trans noStream) (sameRefused.trans isRefused)
  | known isOnly first isRefused_iff =>
      have unspoilt : heading.spoils key = false :=
        Bool.eq_false_iff.2 fun spoils => isOther (Heading.key_of_spoils spoils)
      refine .known (sameStreams.trans isOnly) ?_ ?_
      · rwa [Heading.timestamps_append_of_none (Heading.timestampFor_of_ne isOther)]
      · rw [sameRefused, isRefused_iff, Heading.exists_spoils_append_iff unspoilt]

theorem Standing.of_spoils
    (standing : Standing key met registry)
    (spoils : heading.spoils key = true) :
    Standing key (met ++ [heading]) (registry.refuse key) := by
  have last : heading ∈ met ++ [heading] := List.mem_append_right _ (List.mem_singleton_self _)
  have refuses : (registry.refuse key).isRefused key = true :=
    Registry.isRefused_refuse_iff.2 (.inl rfl)
  cases standing with
  | unmet noStream _ _ => exact .refused noStream refuses
  | refused noStream _ => exact .refused noStream refuses
  | known isOnly first _ =>
      refine .known isOnly ?_ (iff_of_true refuses ⟨heading, last, spoils⟩)
      rwa [Heading.timestamps_append_of_none (Heading.timestampFor_of_spoils spoils)]

/-- A refused key stays as it is, even that of a stream. -/
theorem Standing.of_isRefused
    (standing : Standing key met registry)
    (isRefused : registry.isRefused key = true) :
    Standing key (met ++ [heading]) registry := by
  cases standing with
  | unmet _ notRefused _ =>
      rw [isRefused] at notRefused
      cases notRefused
  | refused noStream _ => exact .refused noStream isRefused
  | known isOnly first isRefused_iff =>
      obtain ⟨earlier, member, spoils⟩ := isRefused_iff.1 isRefused
      refine .known isOnly ?_
        (iff_of_true isRefused ⟨earlier, List.mem_append_left _ member, spoils⟩)
      rwa [Heading.timestamps_append_of_spoilt ⟨earlier, member, spoils⟩]

theorem Standing.of_observed
    {header : PesHeader}
    {index : Nat}
    (standing : Standing heading.key met registry)
    (isHeader : heading.header = some header)
    (notRefused : registry.isRefused heading.key = false)
    (known : registry.index? heading.key = some index) :
    Standing heading.key (met ++ [heading]) (registry.observe index header.timestamp) := by
  have hasStream : registry.streamsOf heading.key ≠ [] := by
    intro noStream
    rw [Registry.streamsOf_eq_nil_iff.1 noStream] at known
    cases known
  cases standing with
  | unmet noStream _ _ => exact absurd noStream hasStream
  | refused noStream _ => exact absurd noStream hasStream
  | @known stream isOnly first isRefused_iff =>
      have unspoilt : ∀ earlier ∈ met, earlier.spoils heading.key = false := by
        simpa [notRefused] using isRefused_iff
      refine .known ((Registry.streamsOf_observe known header.timestamp).2 stream rfl isOnly) ?_ ?_
      · rw [Heading.timestamps_append_of_unspoilt unspoilt,
          Heading.timestampFor_of_header isHeader]
        rw [Stream.firstTimestamp_observe, first, min?_toList_append]
      · rw [Heading.exists_spoils_append_iff (Heading.not_spoils_of_header isHeader)]
        exact isRefused_iff

theorem Standing.of_inserted
    {header : PesHeader}
    (standing : Standing heading.key met registry)
    (isHeader : heading.header = some header)
    (notRefused : registry.isRefused heading.key = false)
    (unknown : registry.index? heading.key = none)
    (finding : Finding) :
    Standing heading.key (met ++ [heading])
      (registry.insert heading.key finding header.timestamp) := by
  have noStream := Registry.streamsOf_eq_nil_iff.2 unknown
  cases standing with
  | unmet _ _ unheard =>
      have isOnly : (registry.insert heading.key finding header.timestamp).streamsOf heading.key
          = [⟨heading.key, finding, header.timestamp⟩] := by
        rw [Registry.streamsOf_insert, noStream, if_pos rfl]
        rfl
      have unspoilt := Heading.unspoilt_of_unheard unheard
      refine .known isOnly ?_ ?_
      · rw [Heading.timestamps_append_of_unspoilt unspoilt, Heading.timestamps_of_unheard unheard,
          Heading.timestampFor_of_header isHeader]
        cases header.timestamp <;> rfl
      · rw [Heading.exists_spoils_append_iff (Heading.not_spoils_of_header isHeader)]
        show registry.isRefused heading.key = true ↔ _
        rw [notRefused]
        simpa using unspoilt
  | refused _ isRefused =>
      rw [isRefused] at notRefused
      cases notRefused
  | known isOnly _ _ =>
      rw [noStream] at isOnly
      cases isOnly

theorem Standing.of_eq
    (standing : Standing heading.key met registry)
    (isTrackKey : IsTrackKey heading.key)
    (meeting : Meeting registry heading after) :
    Standing heading.key (met ++ [heading]) after := by
  cases meeting with
  | passed isNoTrack => exact absurd isTrackKey isNoTrack
  | spoilt noHeader => exact standing.of_spoils (Heading.spoils_of_noHeader noHeader)
  | ignored isRefused => exact standing.of_isRefused isRefused
  | observed isHeader notRefused known => exact standing.of_observed isHeader notRefused known
  | refused unknown =>
      exact .refused (Registry.streamsOf_eq_nil_iff.2 unknown)
        (Registry.isRefused_refuse_iff.2 (.inl rfl))
  | inserted isHeader _ notRefused unknown =>
      exact standing.of_inserted isHeader notRefused unknown _

theorem Meeting.frame
    (meeting : Meeting registry heading after)
    (isOther : heading.key ≠ key) :
    after.streamsOf key = registry.streamsOf key
      ∧ after.isRefused key = registry.isRefused key := by
  cases meeting with
  | passed _ => exact ⟨rfl, rfl⟩
  | ignored _ => exact ⟨rfl, rfl⟩
  | spoilt _ => exact ⟨rfl, Registry.isRefused_refuse_of_ne isOther⟩
  | refused _ => exact ⟨rfl, Registry.isRefused_refuse_of_ne isOther⟩
  | observed _ _ known => exact ⟨(Registry.streamsOf_observe known _).1 isOther, rfl⟩
  | inserted _ _ _ _ =>
      rw [Registry.streamsOf_insert, if_neg isOther, List.append_nil]
      exact ⟨rfl, rfl⟩

theorem Meeting.isTrackKey
    (meeting : Meeting registry heading after)
    (isTrackKey : ∀ stream ∈ registry.streams, IsTrackKey stream.key) :
    ∀ stream ∈ after.streams, IsTrackKey stream.key := by
  cases meeting with
  | passed _ => exact isTrackKey
  | ignored _ => exact isTrackKey
  | spoilt _ => exact isTrackKey
  | refused _ => exact isTrackKey
  | @observed header index _ _ known =>
      obtain ⟨found, present, -⟩ := Registry.key_of_index? known
      obtain ⟨before, behind, split, modified⟩ := Registry.exists_modify present
      have observed : (registry.observe index header.timestamp).streams
          = before ++ found.observe header.timestamp :: behind := modified _
      rw [split, List.forall_mem_append, List.forall_mem_cons] at isTrackKey
      rw [observed, List.forall_mem_append, List.forall_mem_cons, Stream.key_observe]
      exact isTrackKey
  | inserted _ isTrack _ _ =>
      intro stream member
      rcases List.mem_append.1 member with before | last
      · exact isTrackKey stream before
      · rw [List.mem_singleton.1 last]
        exact isTrack

theorem Told.meets (told : Told met registry) (meeting : Meeting registry heading after) :
    Told (met ++ [heading]) after := by
  refine ⟨meeting.isTrackKey told.isTrackKey, ?_⟩
  intro key isTrackKey
  by_cases own : heading.key = key
  · subst own
    exact (told.standing heading.key isTrackKey).of_eq isTrackKey meeting
  · obtain ⟨sameStreams, sameRefused⟩ := meeting.frame own
    exact (told.standing key isTrackKey).of_ne own sameStreams sameRefused

theorem told_empty : Told [] Registry.empty := by
  refine ⟨fun _ member => absurd member List.not_mem_nil, ?_⟩
  intro key _
  exact .unmet rfl rfl fun _ member => absurd member List.not_mem_nil

/-- A registry is told of all packets in the window, however far discovery looks
ahead in between. -/
theorem Told.of_meetPackets
    {walk plain reached : Navigator}
    {window : Nat}
    (told : Told met registry)
    (alike : walk.IsLike plain)
    (decided : ∀ start behind, walk.nextPacket (some window) = (some start, behind) →
      behind.version.isSome = true)
    (ran : registry.meetPackets walk window = .ok (after, reached)) :
    Told (met ++ plain.headings (some window)) after := by
  fun_induction Registry.meetPackets registry walk window generalizing met plain with
  | case1 registry walk behind found =>
      obtain ⟨plainBehind, plainFound, -⟩ := (alike.nextPacket (some window)).exists_eq found
      cases ran
      rw [Navigator.headings, Navigator.packets_of_none plainFound, List.map_nil, List.append_nil]
      exact told
  | case2 => cases ran
  | case3 registry walk start middle found next ahead packet behind skipped inductionHypothesis =>
      obtain ⟨plainMiddle, plainFound, alikeMiddle⟩ :=
        (alike.nextPacket (some window)).exists_eq found
      obtain ⟨meeting, keeps⟩ := Registry.meeting_of_meetPacket
        (Navigator.standsBehind_of_nextPacket found).isByte packet
      have isDecided := decided start middle found
      -- What was learned ahead has not changed the version, so the walk comes
      -- back to where it would be without it.
      have alikeAhead : (ahead.comeBack middle start).IsLike plainMiddle :=
        alikeMiddle.comeBack found (keeps isDecided)
      obtain ⟨plainBehind, plainSkipped, alikeBehind⟩ := alikeAhead.skipPacket.exists_eq skipped
      have stillDecided : behind.version.isSome = true := by
        have kept := (Navigator.keeps_skipPacket (ahead.comeBack middle start)).of_outcome skipped
        rw [← keeps isDecided] at isDecided
        rwa [kept isDecided]
      have later := inductionHypothesis (told.meets meeting) alikeBehind (by
        intro start last found
        rw [(Navigator.keeps_nextPacket behind (some window)).of_outcome found stillDecided]
        exact stillDecided) ran
      rw [Navigator.heading_congr alikeMiddle, List.append_assoc] at later
      rwa [Navigator.headings, Navigator.packets_of_skips plainFound plainSkipped, List.map_cons]
  | case4 registry walk start middle found next ahead packet atEnd stopped =>
      obtain ⟨plainMiddle, plainFound, alikeMiddle⟩ :=
        (alike.nextPacket (some window)).exists_eq found
      obtain ⟨meeting, keeps⟩ := Registry.meeting_of_meetPacket
        (Navigator.standsBehind_of_nextPacket found).isByte packet
      have alikeAhead : (ahead.comeBack middle start).IsLike plainMiddle :=
        alikeMiddle.comeBack found (keeps (decided start middle found))
      obtain ⟨plainEnd, plainStopped, -⟩ := alikeAhead.skipPacket.exists_eq stopped
      cases ran
      have later := told.meets meeting
      rw [Navigator.heading_congr alikeMiddle] at later
      rwa [Navigator.headings, Navigator.packets_of_stops plainFound plainStopped]

end Step

/-! ## The offsets of an opened reader -/

namespace Reader

/-- What the timestamps of a reader count from, given the headings of the packets
in the window. -/
structure CountsFromFirst (opened : Reader Journal) (headings : List Heading) : Prop where
  firstTimestamp : ∀ stream ∈ opened.registry.streams, stream.firstTimestamp
    = (Heading.timestamps stream.key (Heading.untilSpoilt stream.key headings)).min?
  globalOffset : opened.registry.globalOffset
    = (opened.registry.streams.filterMap (·.firstTimestamp)).min?
  tracks : opened.tracks.map (fun track => (track.id, track.timecodeOffset))
    = opened.registry.streams.map fun stream =>
        (stream.key, stream.firstTimestamp.map (· - opened.registry.globalOffset.getD 0))

theorem map_tracks
    {registry : Registry}
    {tracks : List Track}
    (isTracks : registry.tracks = .ok tracks) :
    tracks.map (fun track => (track.id, track.timecodeOffset))
      = registry.streams.map fun stream =>
        (stream.key, stream.firstTimestamp.map (· - registry.globalOffset.getD 0)) := by
  apply List.ext_getElem?
  intro index
  rw [List.getElem?_map, List.getElem?_map, Registry.getElem?_tracks isTracks, Option.map_map]
  rfl

/-- However far discovery looks ahead, the offsets of an opened reader are the
least timestamps of the packets in the window, each as far as its key is not
spoilt. -/
theorem countsFromFirst_of_ofSource
    {source : Source}
    {config : Config}
    {opened : Reader Journal}
    (isOpened : ofSource source config = .ok opened) :
    opened.CountsFromFirst
      ((Navigator.ofSource (source.movedTo 0)).headings (some config.window)) := by
  obtain ⟨registry, walk, tracks, isPack, discovered, isTracks, rfl⟩ :=
    ofSource_eq_ok_iff.1 isOpened
  unfold discover at discovered
  obtain ⟨⟨met, reached⟩, ran, ended⟩ := exists_of_bind discovered
  cases ended
  have told := told_empty.of_meetPackets (.refl _)
    (fun start behind found => Navigator.isSome_version_of_nextPacket isPack found) ran
  rw [List.nil_append] at told
  constructor
  case firstTimestamp =>
    intro stream member
    have isMet := Registry.mem_streams_finish.1 member
    have isOwn : stream ∈ met.streamsOf stream.key := List.mem_filter.2 ⟨isMet, by simp⟩
    cases told.standing stream.key (told.isTrackKey stream isMet) with
    | unmet noStream _ _ =>
        rw [noStream] at isOwn
        cases isOwn
    | refused noStream _ =>
        rw [noStream] at isOwn
        cases isOwn
    | known isOnly first _ =>
        rw [isOnly] at isOwn
        exact (congrArg Stream.firstTimestamp (List.mem_singleton.1 isOwn)).trans first
  case globalOffset => rfl
  case tracks => exact map_tracks isTracks

/-- A stream of video whose second packet misses a marker bit in its timestamp, and
whose third one has the least timestamp. -/
def interruptedProgram : Source :=
  Source.ofBytes [
    0x00, 0x00, 0x01, 0xBA, 0x44, 0x00, 0x04, 0x00, 0x04, 0x01, 0x01, 0x89, 0xC3, 0xF8,
    0x00, 0x00, 0x01, 0xE0, 0x00, 0x1C, 0x81, 0x80, 0x05, 0x21, 0x00, 0x01, 0x46, 0x51,
    0x00, 0x00, 0x01, 0xB3, 0x01, 0x00, 0x10, 0x13, 0xFF, 0xFF, 0xE0, 0x00,
    0x00, 0x00, 0x01, 0x00, 0x00, 0x0F, 0xFF, 0xF8,
    0x00, 0x00, 0x01, 0xE0, 0x00, 0x09, 0x81, 0x80, 0x05, 0x21, 0x00, 0x00, 0x46, 0x51, 0xAA,
    0x00, 0x00, 0x01, 0xE0, 0x00, 0x0A, 0x81, 0x80, 0x05, 0x21, 0x00, 0x01, 0x1C, 0x21,
    0xAA, 0xBB]

theorem countsFromFirst_interruptedProgram :
    ∃ opened : Reader Journal, ofSource interruptedProgram ⟨1024, false, true⟩ = .ok opened
      ∧ opened.CountsFromFirst
        ((Navigator.ofSource (interruptedProgram.movedTo 0)).headings (some 1024)) := by
  have isOk :
      (ofSource interruptedProgram ⟨1024, false, true⟩ : Except Fault (Reader Journal)).isOk
        = true := by
    decide +kernel
  obtain ⟨opened, isOpened⟩ := exists_of_isOk isOk
  exact ⟨opened, isOpened, countsFromFirst_of_ofSource isOpened⟩

/-- Time does not start with the least timestamp of all packets where a packet
without a payload stands before it. -/
theorem exists_late_firstTimestamp_interruptedProgram :
    ∃ opened : Reader Journal, ofSource interruptedProgram ⟨1024, false, true⟩ = .ok opened
      ∧ opened.registry.globalOffset = some 100000000
      ∧ ∃ stream ∈ opened.registry.streams, stream.firstTimestamp = some 100000000
        ∧ (Heading.timestamps stream.key
          ((Navigator.ofSource (interruptedProgram.movedTo 0)).headings (some 1024))).min?
            = some 40000000 := by
  have offsets :
      ((ofSource interruptedProgram ⟨1024, false, true⟩
          : Except Fault (Reader Journal)).toOption.map
        fun opened => (opened.registry.globalOffset,
          opened.registry.streams.map fun stream => (stream.key, stream.firstTimestamp)))
        = some (some 100000000, [(0xE0, some 100000000)]) := by
    decide +kernel
  have all : (Heading.timestamps 0xE0
      ((Navigator.ofSource (interruptedProgram.movedTo 0)).headings (some 1024))).min?
        = some 40000000 := by
    decide +kernel
  obtain ⟨opened, isSome, values⟩ := Option.map_eq_some_iff.1 offsets
  obtain ⟨globalOffset, streams⟩ := Prod.mk.inj values
  obtain ⟨stream, isOnly, isStream⟩ := List.map_eq_singleton_iff.1 streams
  obtain ⟨isKey, first⟩ := Prod.mk.inj isStream
  have isOpened : ofSource interruptedProgram ⟨1024, false, true⟩ = .ok opened := by
    cases outcome : (ofSource interruptedProgram ⟨1024, false, true⟩
        : Except Fault (Reader Journal)) with
    | error fault =>
        rw [outcome] at isSome
        cases isSome
    | ok other =>
        rw [outcome] at isSome
        cases isSome
        rfl
  refine ⟨opened, isOpened, globalOffset, stream, ?_, first, ?_⟩
  · rw [isOnly]
    exact List.mem_singleton_self stream
  · rw [isKey]
    exact all

end Reader

end MediaSplit.ProgramStream

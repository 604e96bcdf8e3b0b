import Mathlib.Data.List.Nodup
import Mathlib.Data.List.Sort
import MediaSplit.ProgramStream.Registry
import MediaSplit.Proofs.Reading

/-!
Contract: the table of tracks that finishing a registry gives.

Owns:
- which place a registry finds for a key, and the least timestamp of a stream;
- the order of tracks in plain terms (`Stream.Precedes`), and that sorting keeps
  streams of one place in that order as they were;
- when the distances of timestamps are there, and with them the tracks;
- `Describes`, what a track tells of its stream; `IsTable`, the streams of a
  finished registry, and `IsTrackTable`, its tracks.

Does **not** own: how the streams came into the registry.
-/

set_option autoImplicit false

namespace MediaSplit.ProgramStream

/-! ## Places -/

namespace Stream

theorem mem_placesOf_iff {streams : List Stream} {key index : Nat} :
    (key, index) ∈ placesOf streams
      ↔ ∃ stream, streams[index]? = some stream ∧ stream.key = key := by
  simp only [placesOf, List.mem_reverse, List.mem_mapIdx, Prod.mk.injEq, List.getElem?_eq_some_iff]
  constructor
  · rintro ⟨place, within, isKey, rfl⟩
    exact ⟨streams[place], ⟨within, rfl⟩, isKey⟩
  · rintro ⟨stream, ⟨within, rfl⟩, isKey⟩
    exact ⟨index, within, isKey, rfl⟩

end Stream

namespace Registry

variable {registry : Registry} {key index : Nat}

theorem index?_eq_none_iff :
    registry.index? key = none ↔ ∀ stream ∈ registry.streams, stream.key ≠ key := by
  rw [index?, registry.isIndexed, List.lookup_eq_none_iff]
  constructor
  · rintro unplaced stream member rfl
    obtain ⟨place, isStream⟩ := List.mem_iff_getElem?.1 member
    have isOther := unplaced _ (Stream.mem_placesOf_iff.2 ⟨stream, isStream, rfl⟩)
    simp at isOther
  · rintro noStream ⟨found, place⟩ placed
    obtain ⟨stream, isStream, rfl⟩ := Stream.mem_placesOf_iff.1 placed
    have isOther := noStream stream (List.mem_of_getElem? isStream)
    simpa using Ne.symm isOther

theorem key_of_index? (found : registry.index? key = some index) :
    ∃ stream, registry.streams[index]? = some stream ∧ stream.key = key := by
  rw [index?, registry.isIndexed] at found
  obtain ⟨before, behind, split, -⟩ := List.lookup_eq_some_iff.1 found
  apply Stream.mem_placesOf_iff.1
  rw [split]
  exact List.mem_append_right _ List.mem_cons_self

/-- Where keys are distinct, a key is found at the only place where it stands. -/
theorem index?_eq_some_iff (distinct : (registry.streams.map (·.key)).Nodup) :
    registry.index? key = some index
      ↔ ∃ stream, registry.streams[index]? = some stream ∧ stream.key = key := by
  refine ⟨key_of_index?, ?_⟩
  rintro ⟨stream, present, isKey⟩
  cases found : registry.index? key with
  | none => exact absurd isKey (index?_eq_none_iff.1 found stream (List.mem_of_getElem? present))
  | some other =>
      obtain ⟨otherStream, otherPresent, otherKey⟩ := key_of_index? found
      let keys := registry.streams.map (·.key)
      have within : other < keys.length := by
        rw [List.length_map]
        exact (List.getElem?_eq_some_iff.1 otherPresent).1
      have same : keys[other]? = keys[index]? := by
        rw [List.getElem?_map, List.getElem?_map, otherPresent, present, Option.map_some,
          Option.map_some, otherKey, isKey]
      rw [(List.getElem?_inj within distinct).1 same]

end Registry

/-! ## Timestamps -/

/-- The least of some times stands for all of them. -/
theorem min?_toList_append (times later : List Int) :
    (times.min?.toList ++ later).min? = (times ++ later).min? := by
  cases times with
  | nil => rfl
  | cons first rest =>
      rw [List.min?_cons', Option.toList_some, List.singleton_append, List.min?_cons',
        List.cons_append, List.min?_cons', List.foldl_append]

theorem Stream.firstTimestamp_observe (stream : Stream) (timestamp : Option Int) :
    (stream.observe timestamp).firstTimestamp
      = (stream.firstTimestamp.toList ++ timestamp.toList).min? := by
  cases timestamp with
  | none =>
      cases first : stream.firstTimestamp <;> simp [observe, first]
  | some time =>
      cases first : stream.firstTimestamp <;> simp [observe, first, Int.min_comm]

/-! ## The order of tracks -/

namespace Stream

def kind (stream : Stream) : TrackKind := stream.finding.codec.kind

/-- The key by which streams of one kind are ordered; stream ids are raised to
stand among the sub-streams. -/
def liftedKey (stream : Stream) : Nat :=
  if stream.key < 256 then stream.key + 256 else stream.key

/-- Whether a stream may stand before another one. -/
def Precedes (earlier later : Stream) : Prop :=
  earlier.kind.rank < later.kind.rank
    ∨ earlier.kind = later.kind ∧ earlier.liftedKey ≤ later.liftedKey

/-- Whether two streams may stand before each other. -/
def IsLevelWith (stream other : Stream) : Prop :=
  stream.kind = other.kind ∧ stream.liftedKey = other.liftedKey

instance (stream other : Stream) : Decidable (stream.IsLevelWith other) :=
  inferInstanceAs (Decidable (_ ∧ _))

variable {stream other : Stream}

theorem sortKey_eq : stream.sortKey = stream.kind.rank * 0x10000 + stream.liftedKey := rfl

theorem liftedKey_lt (isShort : stream.key < 0x10000) : stream.liftedKey < 0x10000 := by
  unfold liftedKey
  split <;> omega

/-- Among stream ids and sub-streams the low byte of the key decides. -/
theorem liftedKey_of_lt (isStreamKey : stream.key < 512) :
    stream.liftedKey = 256 + stream.key % 256 := by
  unfold liftedKey
  split <;> omega

theorem rank_injective : Function.Injective TrackKind.rank := by
  intro kind other same
  cases kind <;> cases other <;> first | rfl | cases same

theorem sortKey_le_iff (isShort : stream.key < 0x10000) (otherShort : other.key < 0x10000) :
    stream.sortKey ≤ other.sortKey ↔ stream.Precedes other := by
  have lifted := liftedKey_lt isShort
  have otherLifted := liftedKey_lt otherShort
  rw [sortKey_eq, sortKey_eq, Precedes, ← rank_injective.eq_iff]
  omega

theorem IsLevelWith.sortKey (level : stream.IsLevelWith other) :
    stream.sortKey = other.sortKey := by
  rw [sortKey_eq, sortKey_eq, level.1, level.2]

end Stream

/-- Sorting keeps elements that may stand in either order as they were. -/
theorem filter_mergeSort
    {α : Type}
    {le : α → α → Bool}
    {kept : α → Bool}
    (trans : ∀ a b c, le a b = true → le b c = true → le a c = true)
    (total : ∀ a b, (le a b || le b a) = true)
    (level : ∀ a b, kept a = true → kept b = true → le a b = true)
    (items : List α) :
    (items.mergeSort le).filter kept = items.filter kept := by
  have levelled : (items.filter kept).Pairwise fun a b => le a b = true := by
    apply List.pairwise_of_forall_mem_list
    intro a isKept b isKept'
    exact level a b (List.mem_filter.1 isKept).2 (List.mem_filter.1 isKept').2
  have within : (items.filter kept).Sublist (items.mergeSort le) :=
    List.sublist_mergeSort trans total levelled List.filter_sublist
  have keptWithin : (items.filter kept).Sublist ((items.mergeSort le).filter kept) := by
    have filtered := within.filter kept
    simpa using filtered
  exact (keptWithin.eq_of_length ((List.mergeSort_perm items le).filter kept).length_eq.symm).symm

/-! ## Distances of timestamps -/

/-- A mapping that fails for some elements succeeds where it fails for none. -/
theorem mapM_eq_ok_iff
    {ε α β : Type}
    {mapped : α → Except ε β}
    {plain : α → β}
    {succeeds : α → Prop}
    (isOk : ∀ item result, mapped item = .ok result ↔ result = plain item ∧ succeeds item)
    {items : List α}
    {results : List β} :
    items.mapM mapped = .ok results ↔ results = items.map plain ∧ ∀ item ∈ items, succeeds item := by
  induction items generalizing results with
  | nil =>
      rw [List.mapM_nil, List.map_nil]
      constructor
      · intro isNil
        cases isNil
        exact ⟨rfl, fun _ member => nomatch member⟩
      · rintro ⟨rfl, -⟩
        rfl
  | cons first rest inductionHypothesis =>
      rw [List.mapM_cons, List.map_cons, List.forall_mem_cons]
      constructor
      · intro mappedAll
        obtain ⟨head, isHead, mappedRest⟩ := exists_of_bind mappedAll
        obtain ⟨tail, isTail, isAll⟩ := exists_of_bind mappedRest
        cases isAll
        obtain ⟨rfl, headSucceeds⟩ := (isOk first head).1 isHead
        obtain ⟨rfl, tailSucceeds⟩ := inductionHypothesis.1 isTail
        exact ⟨rfl, headSucceeds, tailSucceeds⟩
      · rintro ⟨rfl, headSucceeds, tailSucceeds⟩
        rw [(isOk first _).2 ⟨rfl, headSucceeds⟩, inductionHypothesis.2 ⟨rfl, tailSucceeds⟩]
        rfl

namespace Registry

/-- The distance of a timestamp from the start of time, however great it is. -/
def distanceOf (registry : Registry) (timestamp : Int) : Int :=
  timestamp - registry.globalOffset.getD 0

/-- Whether the distance of a timestamp from the start of time is an instant. -/
def IsNear (registry : Registry) (timestamp : Option Int) : Prop :=
  ∀ time, timestamp = some time → Word.IsInstant (registry.distanceOf time)

theorem mapM_sinceStart_eq_ok_iff
    {registry : Registry}
    {timestamp distance : Option Int} :
    timestamp.mapM registry.sinceStart = .ok distance
      ↔ distance = timestamp.map registry.distanceOf ∧ registry.IsNear timestamp := by
  cases timestamp with
  | none =>
      constructor
      · intro isNone
        cases isNone
        exact ⟨rfl, fun _ isTime => nomatch isTime⟩
      · rintro ⟨rfl, -⟩
        rfl
  | some time =>
      constructor
      · intro counted
        obtain ⟨found, isFound, isDistance⟩ := exists_of_bind counted
        cases isDistance
        obtain ⟨rfl, fits⟩ := Word.difference_eq_ok_iff.1 isFound
        exact ⟨rfl, fun _ isTime => Option.some.inj isTime ▸ fits⟩
      · rintro ⟨rfl, fits⟩
        have counted := Word.difference_of_isInstant (fits time rfl)
        show (some <$> registry.sinceStart time) = _
        rw [sinceStart, counted]
        rfl

/-- The track that a stream becomes, however great its distance is. -/
def plainTrackOf (registry : Registry) (number : Nat) (stream : Stream) : Track :=
  { Track.ofCodec number stream.key stream.finding.codec with
    params := stream.finding.params
    privateData := stream.finding.privateData
    timecodeOffset := stream.firstTimestamp.map registry.distanceOf }

/-- There is a table of tracks where no stream is too far from the start of
time. -/
theorem tracks_eq_ok_iff {registry : Registry} {tracks : List Track} :
    registry.tracks = .ok tracks
      ↔ tracks = registry.streams.mapIdx registry.plainTrackOf
        ∧ ∀ stream ∈ registry.streams, registry.IsNear stream.firstTimestamp := by
  have isOk : ∀ (item : Stream × Nat) track, registry.trackOf item.2 item.1 = .ok track
      ↔ track = registry.plainTrackOf item.2 item.1
        ∧ registry.IsNear item.1.firstTimestamp := by
    intro item track
    constructor
    · intro isTrack
      obtain ⟨offset, isOffset, made⟩ := exists_of_bind isTrack
      obtain ⟨rfl, near⟩ := mapM_sinceStart_eq_ok_iff.1 isOffset
      cases made
      exact ⟨rfl, near⟩
    · rintro ⟨rfl, near⟩
      unfold trackOf
      rw [mapM_sinceStart_eq_ok_iff.2 ⟨rfl, near⟩]
      rfl
  have numbered := @mapM_eq_ok_iff _ _ _ (fun item : Stream × Nat => registry.trackOf item.2 item.1)
    _ _ isOk registry.streams.zipIdx tracks
  rw [List.mapIdx_eq_zipIdx_map]
  refine numbered.trans (and_congr_right fun _ => ?_)
  constructor
  · intro near stream member
    obtain ⟨number, isStream⟩ := List.mem_iff_getElem?.1 member
    exact near (stream, number) (List.mk_mem_zipIdx_iff_getElem?.2 isStream)
  · intro near item member
    exact near item.1 (List.fst_mem_of_mem_zipIdx member)

end Registry

/-! ## The table -/

/-- What a track tells of the stream that has become it. -/
structure Describes (track : Track) (number : Nat) (stream : Stream) : Prop where
  number : track.number = number
  id : track.id = stream.key
  kind : track.kind = stream.kind
  codec : track.codec = stream.finding.codec
  params : track.params = stream.finding.params
  privateData : track.privateData = stream.finding.privateData
  isTimed : track.timecodeOffset.isSome = stream.firstTimestamp.isSome

/-- What a finished registry is to the streams that were put into it. -/
structure IsTable (inserted : List Stream) (registry : Registry) : Prop where
  perm : registry.streams.Perm inserted
  ordered : registry.streams.Pairwise Stream.Precedes
  /-- Streams of one place in the order stand as they were put in. -/
  stable : ∀ stream, registry.streams.filter (·.IsLevelWith stream)
    = inserted.filter (·.IsLevelWith stream)
  /-- Among keys that streams have, the low byte decides under one kind. -/
  byLowByte : (∀ stream ∈ inserted, stream.key < 512) →
    registry.streams.Pairwise fun earlier later =>
      earlier.kind.rank < later.kind.rank
        ∨ earlier.kind = later.kind ∧ earlier.key % 256 ≤ later.key % 256
  index?_eq_some_iff : ∀ key number, registry.index? key = some number
    ↔ ∃ stream, registry.streams[number]? = some stream ∧ stream.key = key

/-- Whether the distances of the streams in time are instants. -/
def AreNear (streams : List Stream) : Prop :=
  ∀ start ∈ streams.filterMap (·.firstTimestamp), ∀ time ∈ streams.filterMap (·.firstTimestamp),
    time - start < 2 ^ 63

instance (streams : List Stream) : Decidable (AreNear streams) :=
  inferInstanceAs (Decidable (∀ start ∈ _, ∀ time ∈ _, _))

/-- What the tracks are to a finished registry and to the streams that were put
into it. -/
structure IsTrackTable (inserted : List Stream) (registry : Registry) (tracks : List Track) :
    Prop where
  isTable : IsTable inserted registry
  length_tracks : tracks.length = registry.streams.length
  describes : ∀ number track stream, tracks[number]? = some track →
    registry.streams[number]? = some stream → Describes track number stream
  index?_eq_some_iff : ∀ key number, registry.index? key = some number
    ↔ ∃ track, tracks[number]? = some track ∧ track.id = key
  startsAtZero : (∃ stream ∈ inserted, stream.firstTimestamp.isSome = true) →
    (∀ track ∈ tracks, ∀ offset, track.timecodeOffset = some offset → 0 ≤ offset)
      ∧ ∃ track ∈ tracks, track.timecodeOffset = some 0

namespace Registry

variable {registry : Registry} {tracks : List Track} {track : Track} {number : Nat}
  {stream : Stream}

theorem getElem?_tracks (isTracks : registry.tracks = .ok tracks) :
    tracks[number]? = (registry.streams[number]?).map (registry.plainTrackOf number) := by
  rw [(tracks_eq_ok_iff.1 isTracks).1, List.getElem?_mapIdx]

theorem describes_plainTrackOf : Describes (registry.plainTrackOf number stream) number stream :=
  ⟨rfl, rfl, rfl, rfl, rfl, rfl, Option.isSome_map⟩

theorem exists_stream_of_mem_tracks
    (isTracks : registry.tracks = .ok tracks)
    (member : track ∈ tracks) :
    ∃ stream ∈ registry.streams,
      track.timecodeOffset = stream.firstTimestamp.map registry.distanceOf := by
  obtain ⟨number, present⟩ := List.mem_iff_getElem?.1 member
  rw [getElem?_tracks isTracks] at present
  obtain ⟨stream, isStream, rfl⟩ := Option.map_eq_some_iff.1 present
  exact ⟨stream, List.mem_of_getElem? isStream, rfl⟩

theorem exists_track_of_mem_streams
    (isTracks : registry.tracks = .ok tracks)
    (member : stream ∈ registry.streams) :
    ∃ track ∈ tracks, track.timecodeOffset = stream.firstTimestamp.map registry.distanceOf := by
  obtain ⟨number, isStream⟩ := List.mem_iff_getElem?.1 member
  refine ⟨registry.plainTrackOf number stream, List.mem_of_getElem? (i := number) ?_, rfl⟩
  rw [getElem?_tracks isTracks, isStream]
  rfl

theorem perm_finish : registry.finish.streams.Perm registry.streams := List.mergeSort_perm _ _

theorem mem_streams_finish : stream ∈ registry.finish.streams ↔ stream ∈ registry.streams :=
  perm_finish.mem_iff

/-- Time starts with the least timestamp of a stream. -/
theorem exists_globalOffset_finish
    {time : Int}
    (member : stream ∈ registry.streams)
    (isTime : stream.firstTimestamp = some time) :
    ∃ least, registry.finish.globalOffset = some least ∧ least ≤ time
      ∧ ∃ first ∈ registry.streams, first.firstTimestamp = some least := by
  have isTimed : time ∈ registry.finish.streams.filterMap (·.firstTimestamp) :=
    List.mem_filterMap.2 ⟨stream, mem_streams_finish.2 member, isTime⟩
  obtain ⟨least, isLeast⟩ := Option.isSome_iff_exists.1 (List.isSome_min?_of_mem isTimed)
  obtain ⟨isOne, bound⟩ := List.min?_eq_some_iff.1 isLeast
  obtain ⟨first, isStream, isFirst⟩ := List.mem_filterMap.1 isOne
  exact ⟨least, isLeast, bound time isTimed, first, mem_streams_finish.1 isStream, isFirst⟩

/-- A finished registry has tracks where its streams are not too far apart. -/
theorem exists_tracks_finish_iff :
    (∃ tracks, registry.finish.tracks = .ok tracks) ↔ AreNear registry.streams := by
  simp only [tracks_eq_ok_iff, exists_and_right, exists_eq, true_and]
  constructor
  · intro near start isStart time isTime
    obtain ⟨earlier, isEarlier, isFirst⟩ := List.mem_filterMap.1 isStart
    obtain ⟨later, isLater, isLast⟩ := List.mem_filterMap.1 isTime
    obtain ⟨least, isLeast, bound, -⟩ := exists_globalOffset_finish isEarlier isFirst
    have fits := (near later (mem_streams_finish.2 isLater) time isLast).2
    rw [distanceOf, isLeast, Option.getD_some] at fits
    omega
  · intro near stream member time isTime
    have isMet := mem_streams_finish.1 member
    obtain ⟨least, isLeast, bound, first, isStream, isFirst⟩ :=
      exists_globalOffset_finish isMet isTime
    have span := near least (List.mem_filterMap.2 ⟨first, isStream, isFirst⟩) time
      (List.mem_filterMap.2 ⟨stream, isMet, isTime⟩)
    unfold Word.IsInstant
    rw [distanceOf, isLeast, Option.getD_some]
    omega

theorem startsAtZero_finish
    (isTracks : registry.finish.tracks = .ok tracks)
    (isTimed : ∃ stream ∈ registry.streams, stream.firstTimestamp.isSome) :
    (∀ track ∈ tracks, ∀ offset, track.timecodeOffset = some offset → 0 ≤ offset)
      ∧ ∃ track ∈ tracks, track.timecodeOffset = some 0 := by
  constructor
  · intro track member offset isOffset
    obtain ⟨stream, isStream, isFrom⟩ := exists_stream_of_mem_tracks isTracks member
    rw [isFrom] at isOffset
    obtain ⟨time, isTime, rfl⟩ := Option.map_eq_some_iff.1 isOffset
    obtain ⟨least, isLeast, bound, -⟩ :=
      exists_globalOffset_finish (mem_streams_finish.1 isStream) isTime
    rw [distanceOf, isLeast]
    exact Int.sub_nonneg_of_le bound
  · obtain ⟨stream, member, hasTime⟩ := isTimed
    obtain ⟨time, isTime⟩ := Option.isSome_iff_exists.1 hasTime
    obtain ⟨least, isLeast, -, first, isStream, isFirst⟩ := exists_globalOffset_finish member isTime
    obtain ⟨track, isTrack, isFrom⟩ :=
      exists_track_of_mem_streams isTracks (mem_streams_finish.2 isStream)
    refine ⟨track, isTrack, ?_⟩
    rw [isFrom, isFirst, Option.map_some, distanceOf, isLeast]
    exact congrArg some (Int.sub_self least)

theorem ordered_finish (isShort : ∀ stream ∈ registry.streams, stream.key < 0x10000) :
    registry.finish.streams.Pairwise Stream.Precedes := by
  have sorted : registry.finish.streams.Pairwise fun earlier later =>
      decide (earlier.sortKey ≤ later.sortKey) = true := by
    apply List.pairwise_mergeSort
    · simpa using fun _ _ _ => Nat.le_trans
    · simpa using fun _ _ => Nat.le_total _ _
  apply sorted.imp_of_mem
  intro earlier later isEarlier isLater inOrder
  have earlierShort := isShort earlier (mem_streams_finish.1 isEarlier)
  have laterShort := isShort later (mem_streams_finish.1 isLater)
  exact (Stream.sortKey_le_iff earlierShort laterShort).1 (of_decide_eq_true inOrder)

theorem stable_finish (stream : Stream) :
    registry.finish.streams.filter (·.IsLevelWith stream)
      = registry.streams.filter (·.IsLevelWith stream) := by
  apply filter_mergeSort
  · simpa using fun _ _ _ => Nat.le_trans
  · simpa using fun _ _ => Nat.le_total _ _
  · intro earlier later isLevel otherLevel
    rw [(of_decide_eq_true isLevel).sortKey, (of_decide_eq_true otherLevel).sortKey]
    exact decide_eq_true (Nat.le_refl _)

/-- Finishing puts the streams in order, whatever places were known before. -/
theorem isTable_finish
    (distinct : (registry.streams.map (·.key)).Nodup)
    (isShort : ∀ stream ∈ registry.streams, stream.key < 0x10000) :
    IsTable registry.streams registry.finish := by
  have ordered := ordered_finish isShort
  constructor
  case perm => exact perm_finish
  case ordered => exact ordered
  case stable => exact stable_finish
  case byLowByte =>
    intro isStreamKey
    apply ordered.imp_of_mem
    intro earlier later isEarlier isLater inOrder
    have earlierKey := isStreamKey earlier (mem_streams_finish.1 isEarlier)
    have laterKey := isStreamKey later (mem_streams_finish.1 isLater)
    rwa [Stream.Precedes, Stream.liftedKey_of_lt earlierKey, Stream.liftedKey_of_lt laterKey,
      Nat.add_le_add_iff_left] at inOrder
  case index?_eq_some_iff =>
    intro key number
    exact index?_eq_some_iff ((perm_finish.map (·.key)).nodup_iff.2 distinct)

/-- The tracks of a finished registry, where there are any, tell of its streams. -/
theorem isTrackTable_finish
    (distinct : (registry.streams.map (·.key)).Nodup)
    (isShort : ∀ stream ∈ registry.streams, stream.key < 0x10000)
    (isTracks : registry.finish.tracks = .ok tracks) :
    IsTrackTable registry.streams registry.finish tracks := by
  have isTable := isTable_finish distinct isShort
  constructor
  case isTable => exact isTable
  case length_tracks =>
    rw [(tracks_eq_ok_iff.1 isTracks).1]
    exact List.length_mapIdx
  case describes =>
    intro number track stream present isStream
    rw [getElem?_tracks isTracks, isStream] at present
    cases present
    exact describes_plainTrackOf
  case index?_eq_some_iff =>
    intro key number
    rw [isTable.index?_eq_some_iff, getElem?_tracks isTracks]
    simp only [Option.map_eq_some_iff]
    constructor
    · rintro ⟨stream, isStream, isKey⟩
      exact ⟨_, ⟨stream, isStream, rfl⟩, isKey⟩
    · rintro ⟨_, ⟨stream, isStream, rfl⟩, isKey⟩
      exact ⟨stream, isStream, isKey⟩
  case startsAtZero => exact startsAtZero_finish isTracks

end Registry

end MediaSplit.ProgramStream

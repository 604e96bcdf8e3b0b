import MediaSplit.Proofs.ProgramStream.Gathering
import MediaSplit.Proofs.ProgramStream.Registry
import MediaSplit.Proofs.ProgramStream.Walk
import MediaSplit.Proofs.Reading
import MediaSplit.Proofs.Sink.Delivery

/-!
Contract: the reader that opening a program gives.

Owns:
- that looking for tracks leaves the bytes of the source alone and the walk
  back at its start;
- that the track under which a key is registered has that key as its id;
- `Reader.attachAll`, new journals on some tracks of a reader, and what the
  reader is before its first call (`Reader.Begins`).

Does **not** own: which streams become tracks.
-/

set_option autoImplicit false

namespace MediaSplit.ProgramStream

/-! ## The bytes under discovery -/

namespace Registry

variable {registry after : Registry} {walk behind : Navigator} {limit : Nat}

theorem content_of_meetPackets
    (met : registry.meetPackets walk limit = .ok (after, behind)) :
    behind.source.content = walk.source.content := by
  fun_induction meetPackets registry walk limit with
  | case1 registry walk middle packet =>
      cases met
      exact Navigator.content_of_nextPacket packet
  | case2 => cases met
  | case3 registry walk start middle packet _ ahead _ behind skipped inductionHypothesis =>
      have same := Navigator.content_of_nextPacket packet
      rw [inductionHypothesis met, Navigator.content_of_skipPacket skipped]
      exact same
  | case4 registry walk start middle packet _ ahead _ atEnd skipped =>
      have same := Navigator.content_of_nextPacket packet
      cases met
      rw [Navigator.content_of_skipPacket skipped]
      exact same

end Registry

/-- Looking for tracks leaves the bytes alone and comes back to the start. -/
theorem walk_of_discover
    {source : Source}
    {window : Nat}
    {registry : Registry}
    {walk : Navigator}
    (discovered : discover source window = .ok (registry, walk)) :
    walk.source.content = source.content ∧ walk.position = 0 := by
  unfold discover at discovered
  obtain ⟨⟨found, reached⟩, met, ended⟩ := exists_of_bind discovered
  cases ended
  have same := Registry.content_of_meetPackets met
  exact ⟨same, rfl⟩

/-! ## Keys and tracks -/

namespace Registry

/-- The track under which a key is registered has that key as its id. -/
theorem id_of_index?
    {registry : Registry}
    {tracks : List Track}
    {key index : Nat}
    (isTracks : registry.tracks = .ok tracks)
    (found : registry.index? key = some index) :
    ∃ track, tracks[index]? = some track ∧ track.id = key := by
  obtain ⟨stream, present, isKey⟩ := key_of_index? found
  refine ⟨registry.plainTrackOf index stream, ?_, isKey⟩
  rw [getElem?_tracks isTracks, present]
  rfl

/-- Finishing without putting the streams into another order. -/
def finishInPlace (registry : Registry) : Registry :=
  { registry with globalOffset := (registry.streams.filterMap (·.firstTimestamp)).min? }

theorem finish_of_pairwise
    {registry : Registry}
    (sorted : registry.streams.Pairwise fun earlier later => earlier.sortKey ≤ later.sortKey) :
    registry.finish = registry.finishInPlace := by
  have unmoved : registry.streams.mergeSort (·.sortKey ≤ ·.sortKey) = registry.streams :=
    List.mergeSort_of_pairwise (sorted.imp decide_eq_true)
  ext1
  · exact unmoved
  · rfl
  · exact congrArg (fun streams => (streams.filterMap Stream.firstTimestamp).min?) unmoved

end Registry

/-! ## The reader -/

namespace Reader

variable {source : Source} {config : Config} {opened : Reader Journal}

/-- A source is opened where it starts with a pack header and its tracks can be
found. -/
theorem ofSource_eq_ok_iff :
    ofSource source config = .ok opened
      ↔ ∃ registry walk tracks, source.numberAt? 0 4 = some packStartCode
          ∧ discover source config.window = .ok (registry, walk)
          ∧ registry.tracks = .ok tracks
          ∧ opened = ofRegistry config registry walk tracks := by
  constructor
  · intro isOpened
    unfold ofSource at isOpened
    split at isOpened
    · cases isOpened
    split at isOpened
    next word isWord isPack =>
      subst isPack
      split at isOpened
      next registry walk discovered =>
        cases isTracks : registry.tracks with
        | error fault =>
            rw [isTracks] at isOpened
            cases isOpened
        | ok tracks =>
            rw [isTracks] at isOpened
            cases isOpened
            exact ⟨registry, walk, tracks, isWord, discovered, isTracks, rfl⟩
      next => cases isOpened
    next => cases isOpened
  · rintro ⟨registry, walk, tracks, isWord, discovered, isTracks, rfl⟩
    unfold ofSource
    rw [isWord]
    dsimp only
    rw [if_pos rfl, discovered]
    dsimp only
    rw [isTracks]
    rfl

theorem eq_ofRegistry (isOpened : ofSource source config = .ok opened) :
    ∃ registry walk tracks, opened = ofRegistry config registry walk tracks
      ∧ registry.tracks = .ok tracks
      ∧ walk.source.content = source.content ∧ walk.position = 0 := by
  obtain ⟨registry, walk, tracks, -, discovered, isTracks, rfl⟩ := ofSource_eq_ok_iff.1 isOpened
  exact ⟨registry, walk, tracks, rfl, isTracks, walk_of_discover discovered⟩

/-- Whether a source can be opened, without putting its streams in order. -/
def canOpen (source : Source) (window : Nat) : Bool :=
  source.numberAt? 0 4 == some packStartCode
    && (Registry.empty.meetPackets (Navigator.ofSource (source.movedTo 0)) window).toOption.any
      fun found => decide (AreNear found.1.streams)

theorem exists_ofSource_of_canOpen (can : canOpen source config.window = true) :
    ∃ opened : Reader Journal, ofSource source config = .ok opened := by
  obtain ⟨isPack, finds⟩ := Bool.and_eq_true_iff.1 can
  obtain ⟨⟨registry, walk⟩, isFound, near⟩ := Option.any_eq_true .. |>.1 finds
  have met := toOption_eq_some_iff.1 isFound
  obtain ⟨tracks, isTracks⟩ := Registry.exists_tracks_finish_iff.2 (of_decide_eq_true near)
  have discovered : discover source config.window = .ok (registry.finish, walk.movedTo 0) := by
    unfold discover
    rw [met]
    rfl
  exact ⟨_, ofSource_eq_ok_iff.2 ⟨_, _, tracks, beq_iff_eq.1 isPack, discovered, isTracks, rfl⟩⟩

/-- Streams that are met in the order of tracks become tracks in this order. -/
theorem ofSource_of_pairwise
    {registry : Registry}
    {walk : Navigator}
    {tracks : List Track}
    (isPack : source.numberAt? 0 4 = some packStartCode)
    (met : Registry.empty.meetPackets (Navigator.ofSource (source.movedTo 0)) config.window
      = .ok (registry, walk))
    (sorted : registry.streams.Pairwise fun earlier later => earlier.sortKey ≤ later.sortKey)
    (isTracks : registry.finishInPlace.tracks = .ok tracks) :
    ofSource source config
      = .ok (ofRegistry config registry.finishInPlace (walk.movedTo 0) tracks
        : Reader Journal) := by
  have discovered : discover source config.window = .ok (registry.finish, walk.movedTo 0) := by
    unfold discover
    rw [met]
    rfl
  rw [Registry.finish_of_pairwise sorted] at discovered
  exact ofSource_eq_ok_iff.2 ⟨_, _, _, isPack, discovered, isTracks, rfl⟩

theorem slotOf_ofRegistry (config : Config) (registry : Registry) (walk : Navigator)
    (tracks : List Track) (track : Nat) :
    (ofRegistry config registry walk tracks : Reader Journal).slotOf track
      = registry.streams[track]?.bind (bufferOf config track) := by
  unfold slotOf ofRegistry
  dsimp only
  rw [List.getElem?_mapIdx]
  cases registry.streams[track]? with
  | none => rfl
  | some stream => rfl

theorem isNumbered_ofRegistry (config : Config) (registry : Registry) (walk : Navigator)
    (tracks : List Track) :
    (ofRegistry config registry walk tracks : Reader Journal).IsNumbered := by
  intro track buffer present
  rw [slotOf_ofRegistry] at present
  obtain ⟨stream, -, isBuffer⟩ := Option.bind_eq_some_iff.1 present
  unfold bufferOf at isBuffer
  split at isBuffer
  · obtain ⟨capacity, -, rfl⟩ := Option.map_eq_some_iff.1 isBuffer
    rfl
  · cases isBuffer

theorem isPlain_ofRegistry
    (plain : config.gathers = false)
    (registry : Registry)
    (walk : Navigator)
    (tracks : List Track) :
    (ofRegistry config registry walk tracks : Reader Journal).IsPlain := by
  intro track
  rw [slotOf_ofRegistry, Option.bind_eq_none_iff]
  intro stream _
  unfold bufferOf
  rw [plain, if_neg Bool.false_ne_true]

/-- Attaches a new journal to each of some tracks, with a policy of its own. -/
def attachAll (reader : Reader Journal)
    (policies : List (Nat × (List SinkRequest → Option Fault))) : Reader Journal :=
  policies.foldl (fun reader entry => (reader.attach entry.1 (.ofPolicy entry.2)).2) reader

theorem attachAll_eq
    (reader : Reader Journal)
    (policies : List (Nat × (List SinkRequest → Option Fault))) :
    reader.attachAll policies = { reader with sinks := reader.sinks.attachAll policies } := by
  unfold attachAll SinkTable.attachAll
  induction policies generalizing reader with
  | nil => rfl
  | cons first rest inductionHypothesis => exact inductionHypothesis _

section Attached

variable (reader : Reader Journal) (policies : List (Nat × (List SinkRequest → Option Fault)))

@[simp] theorem walk_attachAll : (reader.attachAll policies).walk = reader.walk := by
  rw [attachAll_eq]

@[simp] theorem registry_attachAll : (reader.attachAll policies).registry = reader.registry := by
  rw [attachAll_eq]

@[simp] theorem slotOf_attachAll : (reader.attachAll policies).slotOf = reader.slotOf := by
  rw [attachAll_eq]
  rfl

@[simp] theorem trackPackets_attachAll :
    (reader.attachAll policies).trackPackets = reader.trackPackets := by
  rw [attachAll_eq]
  exact trackPackets_congr rfl rfl

end Attached

/-- A reader of a program before its first call, whose journals have nothing
yet. -/
structure Begins (reader : Reader Journal) (source : Source) (config : Config) : Prop where
  content : reader.walk.source.content = source.content
  position : reader.walk.position = 0
  notDone : reader.isDone = false
  isNumbered : reader.IsNumbered
  isPlain : config.gathers = false → reader.IsPlain
  accepted : ∀ track, reader.sinks.accepted track = []

theorem begins_attachAll
    (isOpened : ofSource source config = .ok opened)
    (policies : List (Nat × (List SinkRequest → Option Fault))) :
    (opened.attachAll policies).Begins source config := by
  obtain ⟨registry, walk, tracks, rfl, -, same, atStart⟩ := eq_ofRegistry isOpened
  rw [attachAll_eq]
  exact
    { content := same
      position := atStart
      notDone := rfl
      isNumbered := isNumbered_ofRegistry config registry walk tracks
      isPlain := fun plain => isPlain_ofRegistry plain registry walk tracks
      accepted := fun track => (SinkTable.attachAll_ofTracks _ policies track).1 }

theorem tracks_attachAll
    (isOpened : ofSource source config = .ok opened)
    (policies : List (Nat × (List SinkRequest → Option Fault))) :
    (opened.attachAll policies).registry.tracks = .ok opened.tracks := by
  obtain ⟨registry, walk, tracks, rfl, isTracks, -⟩ := eq_ofRegistry isOpened
  rw [registry_attachAll]
  exact isTracks

/-- No packet is refused where all policies take packets. -/
theorem takesPackets_attachAll
    (isOpened : ofSource source config = .ok opened)
    {policies : List (Nat × (List SinkRequest → Option Fault))}
    (takes : ∀ entry ∈ policies, ∀ earlier packet, entry.2 (earlier ++ [.process packet]) = none) :
    (opened.attachAll policies).sinks.TakesPackets := by
  obtain ⟨registry, walk, tracks, rfl, -⟩ := eq_ofRegistry isOpened
  rw [attachAll_eq]
  intro track policy isPolicy
  exact takes _ ((SinkTable.attachAll_ofTracks _ policies track).2 policy isPolicy)

/-- A sink of a track takes its packets if there is such a track, whatever
other sinks there are. -/
theorem isAttached_attachAll
    (isOpened : ofSource source config = .ok opened)
    {policies : List (Nat × (List SinkRequest → Option Fault))}
    {track : Nat}
    (isAttached : track ∈ policies.map Prod.fst) :
    (opened.attachAll policies).sinks.isAttached track
      = decide (track < opened.sinks.slots.length) := by
  obtain ⟨registry, walk, tracks, rfl, -⟩ := eq_ofRegistry isOpened
  rw [attachAll_eq]
  dsimp only
  have none : (ofRegistry config registry walk tracks : Reader Journal).sinks.isAttached track
      = false :=
    SinkTable.isAttached_ofTracks _ _
  rw [SinkTable.isAttached_attachAll, none, Bool.or_false, decide_eq_decide]
  exact and_iff_left isAttached

end Reader

end MediaSplit.ProgramStream

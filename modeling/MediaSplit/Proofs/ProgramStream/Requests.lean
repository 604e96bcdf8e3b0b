import MediaSplit.Proofs.ProgramStream.Independence
import MediaSplit.Proofs.ProgramStream.Meeting
import MediaSplit.Proofs.ProgramStream.Opening

/-!
Contract: what becomes of a registry that is filled by requests.

Owns:
- `Registry.Request` and `Registry.afterAll`, a run of requests;
- `Registry.insertions`, the streams that are put in, each with the least of its
  timestamps, in plain terms of the requests;
- that discovery fills a registry by such requests and inserts no key twice
  (`IsFilled`), with `isTrackTable_afterAll`.

Does **not** own: the order of tracks and what tracks tell.

Requests observe a stream by its place, which is the number of insertions before
its own. What is observed at a place before a stream stands there is lost.
-/

set_option autoImplicit false

namespace MediaSplit.ProgramStream

namespace Registry

/-! ## Runs of requests -/

/-- What a registry is asked to do while it is filled. -/
inductive Request where
  | insert (key : Nat) (finding : Finding) (timestamp : Option Int)
  | observe (index : Nat) (timestamp : Option Int)
  | refuse (key : Nat)

/-- The registry after a request. -/
def after (registry : Registry) : Request → Registry
  | .insert key finding timestamp => registry.insert key finding timestamp
  | .observe index timestamp => registry.observe index timestamp
  | .refuse key => registry.refuse key

/-- The registry after a run of requests. -/
def afterAll (registry : Registry) (requests : List Request) : Registry :=
  requests.foldl after registry

namespace Request

/-- The key that a request inserts. -/
def inserted? : Request → Option Nat
  | insert key _ _ => some key
  | _ => none

/-- The timestamp that a request tells of the stream at a place. -/
def timeAt? (index : Nat) : Request → Option Int
  | observe place timestamp => if place = index then timestamp else none
  | _ => none

end Request

/-- A stream with the least of its timestamp and those observed at its place. -/
def leastOf (index : Nat) (requests : List Request) (stream : Stream) : Stream :=
  { stream with
    firstTimestamp :=
      (stream.firstTimestamp.toList ++ requests.filterMap (·.timeAt? index)).min? }

/-- The streams that requests insert behind `count` others. -/
def insertions (count : Nat) : List Request → List Stream
  | [] => []
  | .insert key finding timestamp :: later =>
      leastOf count later ⟨key, finding, timestamp⟩ :: insertions (count + 1) later
  | .observe _ _ :: later => insertions count later
  | .refuse _ :: later => insertions count later

theorem keys_insertions (count : Nat) (requests : List Request) :
    (insertions count requests).map (·.key) = requests.filterMap (·.inserted?) := by
  fun_induction insertions count requests with
  | case1 => rfl
  | case2 count key finding timestamp later inductionHypothesis =>
      rw [List.map_cons, inductionHypothesis]
      rfl
  | case3 count index timestamp later inductionHypothesis => exact inductionHypothesis
  | case4 count key later inductionHypothesis => exact inductionHypothesis

section LeastOf

variable {index : Nat} {stream : Stream} {request : Request} (later : List Request)

theorem leastOf_nil : leastOf index [] = id := by
  funext ⟨key, finding, timestamp⟩
  cases timestamp <;> rfl

theorem leastOf_cons_of_none (nothing : request.timeAt? index = none) :
    leastOf index (request :: later) stream = leastOf index later stream := by
  unfold leastOf
  rw [List.filterMap_cons_none nothing]

theorem leastOf_cons_observe (timestamp : Option Int) :
    leastOf index (.observe index timestamp :: later) stream
      = leastOf index later (stream.observe timestamp) := by
  have isTime : Request.timeAt? index (.observe index timestamp) = timestamp := if_pos rfl
  have times : (Request.observe index timestamp :: later).filterMap (·.timeAt? index)
      = timestamp.toList ++ later.filterMap (·.timeAt? index) := by
    cases timestamp with
    | none => exact List.filterMap_cons_none isTime
    | some time => exact List.filterMap_cons_some isTime
  unfold leastOf
  rw [times, Stream.firstTimestamp_observe, min?_toList_append, List.append_assoc]
  cases timestamp <;> rfl

theorem mapIdx_modify_observe (streams : List Stream) (place : Nat) (timestamp : Option Int) :
    (streams.modify place (·.observe timestamp)).mapIdx (fun index => leastOf index later)
      = streams.mapIdx fun index => leastOf index (.observe place timestamp :: later) := by
  apply List.ext_getElem?
  intro index
  rw [List.getElem?_mapIdx, List.getElem?_mapIdx, List.getElem?_modify]
  cases streams[index]? with
  | none => rfl
  | some stream =>
      by_cases here : place = index
      · subst here
        simp [leastOf_cons_observe]
      · have nothing : Request.timeAt? index (.observe place timestamp) = none := if_neg here
        simp [here, leastOf_cons_of_none later nothing]

end LeastOf

/-- A run of requests keeps the streams that were there, with what it observes at
their places, and puts its insertions behind them. -/
theorem streams_afterAll (registry : Registry) (requests : List Request) :
    (registry.afterAll requests).streams
      = registry.streams.mapIdx (fun index => leastOf index requests)
        ++ insertions registry.streams.length requests := by
  induction requests generalizing registry with
  | nil =>
      apply List.ext_getElem?
      intro index
      simp [afterAll, insertions, leastOf_nil]
  | cons request later inductionHypothesis =>
      have step : registry.afterAll (request :: later)
          = (registry.after request).afterAll later := rfl
      rw [step, inductionHypothesis]
      cases request with
      | insert key finding timestamp =>
          have kept : ∀ index, leastOf index (.insert key finding timestamp :: later)
              = leastOf index later :=
            fun index => funext fun _ => leastOf_cons_of_none later rfl
          simp [after, insert, insertions, kept, List.mapIdx_append]
      | observe place timestamp =>
          have sameLength : (registry.observe place timestamp).streams.length
              = registry.streams.length := List.length_modify ..
          rw [after, sameLength, insertions]
          exact congrArg (· ++ _) (mapIdx_modify_observe later registry.streams place timestamp)
      | refuse key =>
          have kept : ∀ index, leastOf index (.refuse key :: later) = leastOf index later :=
            fun index => funext fun _ => leastOf_cons_of_none later rfl
          simp [after, refuse, insertions, kept]

theorem streams_afterAll_empty (requests : List Request) :
    (empty.afterAll requests).streams = insertions 0 requests := streams_afterAll empty requests

/-! ## Discovery -/

/-- Whether a registry comes of requests that insert no key twice. -/
def IsFilled (registry : Registry) : Prop :=
  ∃ requests, registry = empty.afterAll requests ∧ (requests.filterMap (·.inserted?)).Nodup

theorem isFilled_empty : IsFilled empty := ⟨[], rfl, List.nodup_nil⟩

theorem IsFilled.after
    {registry : Registry}
    (filled : registry.IsFilled)
    (request : Request)
    (isNew : ∀ key, request.inserted? = some key → registry.index? key = none) :
    (registry.after request).IsFilled := by
  obtain ⟨requests, rfl, distinct⟩ := filled
  refine ⟨requests ++ [request], ?_, ?_⟩
  · unfold afterAll
    rw [List.foldl_append]
    rfl
  · rw [List.filterMap_append]
    cases inserted : request.inserted? with
    | none => rwa [List.filterMap_cons_none inserted, List.filterMap_nil, List.append_nil]
    | some key =>
        have noStream := index?_eq_none_iff.1 (isNew key inserted)
        rw [streams_afterAll_empty] at noStream
        rw [List.filterMap_cons_some inserted, List.filterMap_nil, ← List.concat_eq_append]
        refine distinct.concat fun isOld => ?_
        rw [← keys_insertions 0] at isOld
        obtain ⟨stream, member, isKey⟩ := List.mem_map.1 isOld
        exact noStream stream member isKey

/-- One packet leads to at most one request, and to an insertion only under a key
that is not found. -/
theorem IsFilled.meets
    {registry after : Registry}
    {heading : Heading}
    (filled : registry.IsFilled)
    (meeting : Meeting registry heading after) :
    after.IsFilled := by
  cases meeting with
  | passed _ => exact filled
  | ignored _ => exact filled
  | spoilt _ => exact filled.after (.refuse heading.key) fun _ isKey => by cases isKey
  | refused _ => exact filled.after (.refuse heading.key) fun _ isKey => by cases isKey
  | @observed header index _ _ _ =>
      exact filled.after (.observe index header.timestamp) fun _ isKey => by cases isKey
  | @inserted header finding _ _ _ unknown =>
      apply filled.after (.insert heading.key finding header.timestamp)
      intro key isKey
      cases isKey
      exact unknown

theorem IsFilled.meetPackets
    {registry after : Registry}
    {walk reached : Navigator}
    {window : Nat}
    (filled : registry.IsFilled)
    (ran : registry.meetPackets walk window = .ok (after, reached)) :
    after.IsFilled := by
  fun_induction Registry.meetPackets registry walk window with
  | case1 =>
      cases ran
      exact filled
  | case2 => cases ran
  | case3 registry walk start middle found next ahead packet behind skipped inductionHypothesis =>
      have isByte := (Navigator.standsBehind_of_nextPacket found).isByte
      exact inductionHypothesis (filled.meets (meeting_of_meetPacket isByte packet).1) ran
  | case4 registry walk start middle found next ahead packet atEnd stopped =>
      have isByte := (Navigator.standsBehind_of_nextPacket found).isByte
      cases ran
      exact filled.meets (meeting_of_meetPacket isByte packet).1

end Registry

/-- The registry of an opened reader is filled by requests that insert no key
twice. -/
theorem Reader.isFilled_of_ofSource
    {source : Source}
    {config : Config}
    {opened : Reader Journal}
    (isOpened : ofSource source config = .ok opened) :
    ∃ registry : Registry, registry.IsFilled ∧ opened.registry = registry.finish
      ∧ registry.finish.tracks = .ok opened.tracks := by
  obtain ⟨registry, walk, tracks, -, discovered, isTracks, rfl⟩ := ofSource_eq_ok_iff.1 isOpened
  unfold discover at discovered
  obtain ⟨⟨met, reached⟩, ran, ended⟩ := exists_of_bind discovered
  cases ended
  exact ⟨met, Registry.isFilled_empty.meetPackets ran, rfl, isTracks⟩

namespace Registry

theorem ids_tracks
    {registry : Registry}
    {tracks : List Track}
    (isTracks : registry.tracks = .ok tracks) :
    tracks.map (·.id) = registry.streams.map (·.key) := by
  apply List.ext_getElem?
  intro number
  rw [List.getElem?_map, List.getElem?_map, getElem?_tracks isTracks, Option.map_map]
  rfl

theorem IsFilled.nodup_ids
    {registry : Registry}
    {tracks : List Track}
    (filled : registry.IsFilled)
    (isTracks : registry.finish.tracks = .ok tracks) :
    (tracks.map (·.id)).Nodup := by
  obtain ⟨requests, rfl, distinct⟩ := filled
  rw [ids_tracks isTracks, (perm_finish.map (·.key)).nodup_iff, streams_afterAll_empty,
    keys_insertions]
  exact distinct

/-- Finishing a registry that requests with distinct keys have filled puts what
they inserted in order. There are tracks exactly if the inserted streams are not
too far apart in time, and these then make a table. The registry of an opened
program is filled in this way, so the ids of its tracks are distinct. -/
theorem isTrackTable_afterAll :
    (∀ requests : List Request,
        (requests.filterMap (·.inserted?)).Nodup →
        (∀ key ∈ requests.filterMap (·.inserted?), key < 0x10000) →
          IsTable (insertions 0 requests) (empty.afterAll requests).finish
            ∧ ((∃ tracks, (empty.afterAll requests).finish.tracks = .ok tracks)
                ↔ AreNear (insertions 0 requests))
            ∧ ∀ tracks, (empty.afterAll requests).finish.tracks = .ok tracks →
                IsTrackTable (insertions 0 requests) (empty.afterAll requests).finish tracks)
      ∧ ∀ (source : Source) (config : Config) (opened : Reader Journal),
        Reader.ofSource source config = .ok opened →
          (∃ requests : List Request, (requests.filterMap (·.inserted?)).Nodup
              ∧ opened.registry = (empty.afterAll requests).finish)
            ∧ (opened.tracks.map (·.id)).Nodup := by
  constructor
  · intro requests distinct isShort
    rw [← keys_insertions 0] at distinct isShort
    rw [← streams_afterAll_empty] at distinct isShort ⊢
    have allShort := List.forall_mem_map.1 isShort
    refine ⟨isTable_finish distinct allShort, exists_tracks_finish_iff, ?_⟩
    intro tracks isTracks
    exact isTrackTable_finish distinct allShort isTracks
  · intro source config opened isOpened
    obtain ⟨registry, filled, isRegistry, isTracks⟩ := Reader.isFilled_of_ofSource isOpened
    refine ⟨?_, filled.nodup_ids isTracks⟩
    rw [isRegistry]
    obtain ⟨requests, rfl, distinct⟩ := filled
    exact ⟨requests, distinct, rfl⟩

/-- Inserts a stream of which only the codec is known. -/
def Request.ofCodec (key : Nat) (codec : Codec) (timestamp : Option Int) : Request :=
  .insert key ⟨codec, .unknown, none, none⟩ timestamp

/-- Two streams stand at one place in the order, and the first to be inserted is
not the first in time. -/
def crossedRequests : List Request :=
  [.ofCodec 0x1C0 .eac3 (some 900), .observe 1 (some 100), .refuse 0x1A0,
    .ofCodec 0xC0 .mp2 none, .ofCodec 0xE0 .mpeg2Video (some 700),
    .observe 2 (some 400), .observe 2 none, .ofCodec 0x20 .vobSub (some 500)]

theorem isTrackTable_afterAll_crossedRequests :
    IsTable (insertions 0 crossedRequests) (empty.afterAll crossedRequests).finish
      ∧ (∃ tracks, (empty.afterAll crossedRequests).finish.tracks = .ok tracks
        ∧ IsTrackTable (insertions 0 crossedRequests) (empty.afterAll crossedRequests).finish
          tracks)
      ∧ ∃ opened : Reader Journal, Reader.ofSource Reader.twoStreams .standard = .ok opened
        ∧ (opened.tracks.map (·.id)).Nodup := by
  obtain ⟨isTable, exists_iff, isTrackTable⟩ :=
    isTrackTable_afterAll.1 crossedRequests (by decide) (by decide)
  obtain ⟨tracks, isTracks⟩ := exists_iff.2 (by decide)
  have can : Reader.canOpen Reader.twoStreams Config.standard.window = true := by decide +kernel
  obtain ⟨opened, isOpened⟩ := Reader.exists_ofSource_of_canOpen can
  exact ⟨isTable, ⟨tracks, isTracks, isTrackTable tracks isTracks⟩, opened, isOpened,
    (isTrackTable_afterAll.2 _ _ opened isOpened).2⟩

/-- Two streams whose timestamps are the first and the last instant. -/
def distantRequests : List Request :=
  [.ofCodec 0xE0 .mpeg2Video (some (-(2 ^ 63))), .ofCodec 0xC0 .mp2 (some (2 ^ 63 - 1))]

/-- Distinct keys do not make a table of tracks where streams are too far apart in
time. -/
theorem not_exists_tracks_distantRequests :
    (distantRequests.filterMap (·.inserted?)).Nodup
      ∧ (∀ key ∈ distantRequests.filterMap (·.inserted?), key < 0x10000)
      ∧ (∀ time ∈ (insertions 0 distantRequests).filterMap (·.firstTimestamp),
        Word.IsInstant time)
      ∧ ¬ ∃ tracks, (empty.afterAll distantRequests).finish.tracks = .ok tracks := by
  refine ⟨by decide, by decide, by decide, ?_⟩
  rw [exists_tracks_finish_iff, streams_afterAll_empty]
  decide

end Registry

end MediaSplit.ProgramStream

import MediaSplit.ProgramStream.Probe
import MediaSplit.Word

/-!
Contract: the streams of a program that have become tracks.

Owns: `Registry`, with the streams found so far and the places at which they are
found again, the keys that are refused for good, and, once it is finished, the
order of the tracks and the time their timestamps count from.

Tracks are ordered by kind and then by key, where ids below 256 are raised by
256 to stand among the sub-streams of the same low byte. Of several streams
with one key, the last one in the table is found. Places change when the streams
are put into another order, so they are listed anew there; a registry carries the
proof that its places are those of its streams.

A timestamp is any instant, and two of them can be too far apart for their
distance to be one. There is no table of tracks then.
-/

set_option autoImplicit false

namespace MediaSplit.ProgramStream

/-- A stream that has become a track. -/
structure Stream where
  key : Nat
  finding : Finding
  /-- The least timestamp seen. -/
  firstTimestamp : Option Int
  deriving Repr, Inhabited

namespace Stream

/-- Where the track stands in the order of tracks. -/
def sortKey (stream : Stream) : Nat :=
  stream.finding.codec.kind.rank * 0x10000
    + if stream.key < 256 then stream.key + 256 else stream.key

/-- Takes a timestamp into account. -/
def observe (stream : Stream) (timestamp : Option Int) : Stream :=
  match timestamp with
  | none => stream
  | some time =>
      { stream with firstTimestamp := some ((stream.firstTimestamp.map (min time)).getD time) }

@[simp] theorem key_observe (stream : Stream) (timestamp : Option Int) :
    (stream.observe timestamp).key = stream.key := by
  cases timestamp <;> rfl

/-- The place of each key in a table of streams, the last place first. -/
def placesOf (streams : List Stream) : List (Nat × Nat) :=
  (streams.mapIdx fun index stream => (stream.key, index)).reverse

theorem placesOf_append_singleton (streams : List Stream) (stream : Stream) :
    placesOf (streams ++ [stream]) = (stream.key, streams.length) :: placesOf streams := by
  simp [placesOf, List.mapIdx_append]

theorem placesOf_modify_observe (streams : List Stream) (index : Nat) (timestamp : Option Int) :
    placesOf (streams.modify index (·.observe timestamp)) = placesOf streams := by
  unfold placesOf
  congr 1
  apply List.ext_getElem?
  intro place
  rw [List.getElem?_mapIdx, List.getElem?_mapIdx, List.getElem?_modify]
  cases streams[place]? with
  | none => rfl
  | some stream =>
      by_cases here : index = place <;> simp [here]

end Stream

/-- The streams found in a program. -/
structure Registry where
  streams : List Stream
  /-- The place of each key among the streams. -/
  places : List (Nat × Nat)
  /-- Keys under which nothing becomes a track any more. -/
  refused : List Nat
  /-- The time that timestamps count from. -/
  globalOffset : Option Int
  isIndexed : places = Stream.placesOf streams
  deriving Repr

namespace Registry

/-- Registries are told apart by their streams; the places follow. -/
@[ext] theorem ext {registry other : Registry}
    (streams : registry.streams = other.streams)
    (refused : registry.refused = other.refused)
    (globalOffset : registry.globalOffset = other.globalOffset) :
    registry = other := by
  obtain ⟨_, _, _, _, rfl⟩ := registry
  obtain ⟨_, _, _, _, rfl⟩ := other
  cases streams
  cases refused
  cases globalOffset
  rfl

/-- No stream has been found. -/
def empty : Registry := ⟨[], [], [], none, rfl⟩

instance : Inhabited Registry := ⟨empty⟩

/-- Refuses a key for good. -/
def refuse (registry : Registry) (key : Nat) : Registry :=
  { registry with refused := registry.refused.insert key }

/-- Whether a key is refused. -/
def isRefused (registry : Registry) (key : Nat) : Bool := registry.refused.contains key

/-- The index of the last stream with this key. -/
def index? (registry : Registry) (key : Nat) : Option Nat := registry.places.lookup key

/-- Takes a timestamp of a stream into account. -/
def observe (registry : Registry) (index : Nat) (timestamp : Option Int) : Registry :=
  { registry with
    streams := registry.streams.modify index (·.observe timestamp)
    isIndexed := registry.isIndexed.trans (Stream.placesOf_modify_observe _ _ _).symm }

/-- Adds a stream. -/
def insert (registry : Registry) (key : Nat) (finding : Finding) (timestamp : Option Int) :
    Registry :=
  { registry with
    streams := registry.streams ++ [⟨key, finding, timestamp⟩]
    places := (key, registry.streams.length) :: registry.places
    isIndexed := by rw [Stream.placesOf_append_singleton, registry.isIndexed] }

/-- Puts the streams into the order of tracks, lists their places anew, and lets
time start with the least of their timestamps. -/
def finish (registry : Registry) : Registry :=
  let sorted := registry.streams.mergeSort (·.sortKey ≤ ·.sortKey)
  { registry with
    streams := sorted
    places := Stream.placesOf sorted
    globalOffset := (sorted.filterMap (·.firstTimestamp)).min?
    isIndexed := rfl }

/-- A timestamp counted from the start of time. -/
def sinceStart (registry : Registry) (timestamp : Int) : Except Fault Int :=
  Word.difference timestamp (registry.globalOffset.getD 0)

/-- A timestamp counted from the start of time; none before it. -/
def relative (registry : Registry) (timestamp : Option Int) : Except Fault (Option Int) := do
  let distance ← timestamp.mapM registry.sinceStart
  return distance.filter (0 ≤ ·)

/-- The track that a stream becomes under this number. -/
def trackOf (registry : Registry) (number : Nat) (stream : Stream) : Except Fault Track := do
  let offset ← stream.firstTimestamp.mapM registry.sinceStart
  return { Track.ofCodec number stream.key stream.finding.codec with
    params := stream.finding.params
    privateData := stream.finding.privateData
    timecodeOffset := offset }

/-- The tracks, numbered in their order. -/
def tracks (registry : Registry) : Except Fault (List Track) :=
  registry.streams.zipIdx.mapM fun (stream, number) => registry.trackOf number stream

end Registry

end MediaSplit.ProgramStream

import MediaSplit.Sink

/-!
Contract: the sinks of a reader, indexed by track number.

Owns: `SinkTable` with attaching, delivery by track and the one flush of all
attached sinks.

Packets for a track without a sink are dropped without a fault. The table is
marked as flushed before the first sink is asked, and the first refusal ends
the flush.
-/

set_option autoImplicit false

namespace MediaSplit

/-- One slot for each track. -/
structure SinkTable (σ : Type) where
  slots : List (Option σ)
  /-- Whether the flush has been started. -/
  isFlushed : Bool
  deriving DecidableEq, Repr, Inhabited

namespace SinkTable

variable {σ : Type}

/-- A table for `tracks` tracks with nothing attached. -/
def ofTracks (tracks : Nat) : SinkTable σ := ⟨List.replicate tracks none, false⟩

/-- Attaches a sink in place of any sink before it. -/
def attach (table : SinkTable σ) (track : Nat) (sink : σ) : Except Fault Unit × SinkTable σ :=
  if track < table.slots.length then
    (.ok (), { table with slots := table.slots.set track (some sink) })
  else (.error (.unknownTrack track), table)

/-- The sink attached to a track. -/
def sink? (table : SinkTable σ) (track : Nat) : Option σ :=
  (table.slots[track]?).join

/-- Whether a sink is attached to `track`. -/
def isAttached (table : SinkTable σ) (track : Nat) : Bool := (table.sink? track).isSome

/-- Whether any sink is attached. -/
def anyAttached (table : SinkTable σ) : Bool := table.slots.any Option.isSome

@[simp] theorem sink?_ofTracks (tracks track : Nat) :
    (ofTracks tracks : SinkTable σ).sink? track = none := by
  simp only [sink?, ofTracks, List.getElem?_replicate]
  split <;> rfl

theorem sink?_attach (table : SinkTable σ) (track other : Nat) (sink : σ) :
    (table.attach track sink).2.sink? other
      = if track < table.slots.length ∧ other = track then some sink else table.sink? other := by
  simp only [attach, sink?]
  split
  next inside =>
    by_cases same : other = track
    · simp [same, inside]
    · simp [same, List.getElem?_set_ne (Ne.symm same)]
  next outside => simp [outside]

variable [PacketSink σ]

/-- Gives a packet to the slot of index `track`. -/
def deliverTo (packet : Packet) : (track : Nat) → List (Option σ) → Reply (List (Option σ))
  | _, [] => (.ok (), [])
  | 0, none :: rest => (.ok (), none :: rest)
  | 0, some sink :: rest =>
      let (reply, sink) := PacketSink.process sink packet
      (reply, some sink :: rest)
  | track + 1, slot :: rest =>
      let (reply, rest) := deliverTo packet track rest
      (reply, slot :: rest)

/-- Gives a packet to the sink of its track. -/
def deliver (table : SinkTable σ) (packet : Packet) : Reply (SinkTable σ) :=
  let (reply, slots) := deliverTo packet packet.track table.slots
  (reply, { table with slots := slots })

/-- Gives packets to their sinks, in order, up to the first refusal. -/
def deliverAll (table : SinkTable σ) : List Packet → Reply (SinkTable σ)
  | [] => (.ok (), table)
  | packet :: rest =>
      match table.deliver packet with
      | (.ok (), table) => deliverAll table rest
      | (.error fault, table) => (.error fault, table)

/-- Flushes attached sinks in slot order, up to the first refusal. -/
def flushSlots : List (Option σ) → Reply (List (Option σ))
  | [] => (.ok (), [])
  | none :: rest =>
      let (reply, rest) := flushSlots rest
      (reply, none :: rest)
  | some sink :: rest =>
      match PacketSink.flush sink with
      | (.error fault, sink) => (.error fault, some sink :: rest)
      | (.ok (), sink) =>
          let (reply, rest) := flushSlots rest
          (reply, some sink :: rest)

/-- Flushes every attached sink, once in the life of the table. -/
def flushAll (table : SinkTable σ) : Reply (SinkTable σ) :=
  if table.isFlushed then (.ok (), table)
  else
    let (reply, slots) := flushSlots table.slots
    (reply, ⟨slots, true⟩)

theorem getElem?_deliverTo (packet : Packet) (track other : Nat) (slots : List (Option σ)) :
    (deliverTo packet track slots).2[other]?
      = if other = track then
          slots[other]?.map (·.map fun sink => (PacketSink.process sink packet).2)
        else slots[other]? := by
  fun_induction deliverTo packet track slots generalizing other with
  | case1 => simp
  | case2 rest => cases other <;> simp
  | case3 sink rest reply after processed => cases other <;> simp [processed]
  | case4 track slot rest reply after delivered ih =>
    rw [delivered] at ih
    cases other with
    | zero => simp
    | succ other => simpa using ih other

/-- A packet reaches the sink of its track and no other. -/
theorem sink?_deliver (table : SinkTable σ) (packet : Packet) (track : Nat) :
    (table.deliver packet).2.sink? track
      = if track = packet.track then
          (table.sink? track).map fun sink => (PacketSink.process sink packet).2
        else table.sink? track := by
  simp only [deliver, sink?, getElem?_deliverTo]
  split
  next same =>
    cases table.slots[track]? with
    | none => rfl
    | some slot => rfl
  next => rfl

end SinkTable

end MediaSplit

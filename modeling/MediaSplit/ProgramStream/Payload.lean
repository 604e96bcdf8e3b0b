import MediaSplit.ProgramStream.Navigator
import MediaSplit.ProgramStream.Pes.Extent

/-!
Contract: the payloads of the packets that a walk comes upon.

Owns:
- `readContent`, which reads the header of a packet, with `ContentCase`, what
  that can come to; `takePayload` and `pass`, which go on from where the reading
  stopped;
- `nextPayload`, the next payload for one key within a window;
- `Delivery` and `nextDelivery`, the next payload that any track wants.

A walk leaves a packet in one of three ways: it takes the payload that stands
where the header was read to, it passes over that payload, or it goes to where
the length field of a rejected packet says that the packet ends. Data that ends
within a packet ends the walk.
-/

set_option autoImplicit false

namespace MediaSplit.ProgramStream

namespace Navigator

/-- Reads the header of the packet whose start code has just been passed; there
is no content in a header that is cut off. The walk stands where the reading
stopped. -/
def readContent (navigator : Navigator) (start : PacketStart) :
    Except Error (Option PesContent) × Navigator :=
  match readPes start.id start.offset navigator.source with
  | (.ok content, source) => (.ok (some content), { navigator with source := source })
  | (.error (.source .endOfData), source) => (.ok none, { navigator with source := source })
  | (.error error, source) => (.error error, { navigator with source := source })

/-- Takes the payload of `length` bytes that starts at the position; there is
none where it is cut off. -/
def takePayload (navigator : Navigator) (length : Nat) :
    Except Error (Option Bytes) × Navigator :=
  match Source.readExactly length navigator.source with
  | (.ok payload, source) => (.ok (some payload), { navigator with source := source })
  | (.error .endOfData, source) => (.ok none, { navigator with source := source })
  | (.error fault, source) => (.error (.source fault), { navigator with source := source })

/-- Passes over `length` bytes, which need not be there. -/
def pass (navigator : Navigator) (length : Nat) : Navigator :=
  navigator.movedTo (navigator.position + length)

/-- The walk behind the rejected packet that starts there. -/
def pastRejected (navigator : Navigator) (start : PacketStart) (fullLength : Nat) : Navigator :=
  navigator.movedTo (start.offset + 6 + fullLength)

/-! ## Where the reading of a header stops -/

/-- Where a packet ends whose length field is at the position. -/
def packetEnd (navigator : Navigator) (fullLength : Nat) : Nat :=
  navigator.position + 2 + fullLength

/-- What reading the header of a packet can come to, whose length field is at
the position, and where it leaves the walk. -/
inductive ContentCase (navigator : Navigator) (start : PacketStart) (stopped : Navigator) :
    Except Error (Option PesContent) → Prop
  | rejected {fullLength reached : Nat}
      (field : navigator.source.numberAt? navigator.position 2 = some fullLength)
      (stop : stopped = navigator.movedTo reached) :
      ContentCase navigator start stopped (.ok (some (.rejected fullLength)))
  | payload {header : PesHeader} {reached : Nat}
      (field : navigator.source.numberAt? navigator.position 2 = some header.fullLength)
      (streamId : header.streamId = start.id)
      (positive : 0 < header.payloadLength)
      (stop : stopped = navigator.movedTo reached)
      (ahead : navigator.position + 2 ≤ reached)
      (isEnd : reached + header.payloadLength = navigator.packetEnd header.fullLength) :
      ContentCase navigator start stopped (.ok (some (.payload header)))
  | cutOff
      (short : ∀ fullLength, navigator.source.numberAt? navigator.position 2 = some fullLength →
        navigator.source.size < navigator.packetEnd fullLength + 4) :
      ContentCase navigator start stopped (.ok none)
  | refused (error : Error) : ContentCase navigator start stopped (.error error)

theorem contentCase_readContent (navigator : Navigator) (start : PacketStart) :
    navigator.ContentCase start (navigator.readContent start).2 (navigator.readContent start).1 := by
  have read := Pes.ensures_readPes navigator.source start.id start.offset
  unfold Chain.Ensures at read
  unfold readContent
  rcases answer : readPes start.id start.offset navigator.source with ⟨error | content, source⟩
  · rw [answer] at read
    rcases read with rfl | ⟨rfl, short⟩
    · exact .refused _
    · exact .cutOff short
  · rw [answer] at read
    obtain ⟨fullLength, reached, field, rfl, rfl | ⟨header, rfl, accepts⟩⟩ := read
    · exact .rejected field rfl
    · have same : fullLength = header.fullLength :=
        (Nat.add_left_cancel accepts.fullLength).symm
      subst same
      exact .payload field accepts.streamId accepts.positive rfl accepts.ahead accepts.payload

theorem contentCase_of_readContent {navigator stopped : Navigator} {start : PacketStart}
    {outcome : Except Error (Option PesContent)}
    (read : navigator.readContent start = (outcome, stopped)) :
    navigator.ContentCase start stopped outcome := by
  have content := navigator.contentCase_readContent start
  rw [read] at content
  exact content

theorem size_of_readContent {navigator stopped : Navigator} {start : PacketStart}
    {content : PesContent}
    (read : navigator.readContent start = (.ok (some content), stopped)) :
    stopped.source.size = navigator.source.size := by
  cases contentCase_of_readContent read with
  | rejected _ stop => rw [stop]; rfl
  | payload _ _ _ stop _ _ => rw [stop]; rfl

/-- The payload of an accepted packet stands behind its length field. -/
theorem position_lt_of_readContent {navigator stopped : Navigator} {start : PacketStart}
    {header : PesHeader}
    (read : navigator.readContent start = (.ok (some (.payload header)), stopped)) :
    navigator.position < stopped.position := by
  cases contentCase_of_readContent read with
  | payload _ _ _ stop ahead _ =>
      rw [stop]
      exact Nat.lt_of_succ_lt ahead

theorem position_of_takePayload {navigator after : Navigator} {length : Nat} {payload : Bytes}
    (taken : navigator.takePayload length = (.ok (some payload), after)) :
    after.source.size = navigator.source.size ∧ navigator.position ≤ after.position := by
  simp only [takePayload, Source.readExactly] at taken
  split at taken
  next read =>
    split at read
    · cases read
      cases taken
      exact ⟨rfl, Nat.le_refl _⟩
    split at read
    · cases read
    · cases read
      cases taken
      exact ⟨rfl, Nat.le_add_right _ _⟩
  · cases taken
  · cases taken

/-! ## The next payload -/

/-- The next payload for `key` among the packets of stream `id`, no further
than `limit`. -/
def nextPayload (navigator : Navigator) (id key limit : Nat) :
    Except Error (Option Bytes × Navigator) :=
  match _found : navigator.nextPacketOf id (some limit) with
  | (none, after) => .ok (none, after)
  | (some start, after) =>
      match _read : after.readContent start with
      | (.error error, _) => .error error
      | (.ok none, stopped) => .ok (none, stopped)
      | (.ok (some (.rejected fullLength)), stopped) =>
          (stopped.pastRejected start fullLength).nextPayload id key limit
      | (.ok (some (.payload header)), stopped) =>
          if header.key = key then
            match stopped.takePayload header.payloadLength with
            | (.error error, _) => .error error
            | (.ok payload, behind) => .ok (payload, behind)
          else (stopped.pass header.payloadLength).nextPayload id key limit
termination_by navigator.source.size - navigator.position
decreasing_by
  all_goals
    have forward := position_lt_of_nextPacketOf _found
    have sameSize := size_of_readContent _read
    simp only [position, pass, pastRejected, movedTo, Source.size_movedTo,
      Source.position_movedTo] at forward ⊢
  · have stands := offset_of_nextPacketOf _found
    simp only [position] at stands
    omega
  · have onward := position_lt_of_readContent _read
    simp only [position] at onward
    omega

theorem position_lt_of_nextPayload {navigator after : Navigator} {id key limit : Nat}
    {payload : Bytes}
    (found : navigator.nextPayload id key limit = .ok (some payload, after)) :
    after.source.size = navigator.source.size ∧ navigator.position < after.position ∧
      navigator.position < navigator.source.size := by
  fun_induction nextPayload navigator id key limit with
  | case1 => cases found
  | case2 => cases found
  | case3 => cases found
  | case4 navigator start middle next fullLength stopped read walk =>
      have forward := position_lt_of_nextPacketOf next
      have stands := offset_of_nextPacketOf next
      have sameSize := size_of_readContent read
      have further := walk found
      simp only [position, pastRejected, movedTo, Source.size_movedTo,
        Source.position_movedTo] at forward stands further ⊢
      exact ⟨by omega, by omega, by omega⟩
  | case5 => cases found
  | case6 navigator start middle next header stopped read _ taken behind isTaken =>
      have forward := position_lt_of_nextPacketOf next
      have sameSize := size_of_readContent read
      have onward := position_lt_of_readContent read
      simp only [Except.ok.injEq, Prod.mk.injEq] at found
      obtain ⟨rfl, rfl⟩ := found
      have further := position_of_takePayload isTaken
      exact ⟨by omega, by omega, by omega⟩
  | case7 navigator start middle next header stopped read _ walk =>
      have forward := position_lt_of_nextPacketOf next
      have sameSize := size_of_readContent read
      have onward := position_lt_of_readContent read
      have further := walk found
      simp only [position, pass, movedTo, Source.size_movedTo,
        Source.position_movedTo] at forward onward further ⊢
      exact ⟨by omega, by omega, by omega⟩

end Navigator

/-- A payload on its way to a track. -/
structure Delivery where
  track : Nat
  /-- Where the start code of its packet stands. -/
  offset : Nat
  timestamp : Option Int
  payload : Bytes
  deriving DecidableEq, Repr, Inhabited

namespace Navigator

/-- The next payload for which `trackOf` has a track; none at the end of the
data. Packets outside private stream 1 are passed over unread where the key
is their id and no track wants it. -/
def nextDelivery (trackOf : Nat → Option Nat) (navigator : Navigator) :
    Except Error (Option Delivery) × Navigator :=
  match _found : navigator.nextPacket none with
  | (none, after) => (.ok none, after)
  | (some start, after) =>
      if start.id ≠ StreamId.privateStream1 ∧ trackOf start.id = none then
        match _skipped : after.skipPacket with
        | (true, behind) => behind.nextDelivery trackOf
        | (false, atEnd) => (.ok none, atEnd)
      else
        match _read : after.readContent start with
        | (.error error, stopped) => (.error error, stopped)
        | (.ok none, stopped) => (.ok none, stopped)
        | (.ok (some (.rejected fullLength)), stopped) =>
            (stopped.pastRejected start fullLength).nextDelivery trackOf
        | (.ok (some (.payload header)), stopped) =>
            match trackOf header.key with
            | none => (stopped.pass header.payloadLength).nextDelivery trackOf
            | some track =>
                match stopped.takePayload header.payloadLength with
                | (.error error, behind) => (.error error, behind)
                | (.ok payload, behind) =>
                    (.ok (payload.map (⟨track, start.offset, header.timestamp, ·⟩)), behind)
termination_by navigator.source.size - navigator.position
decreasing_by
  all_goals
    have forward := position_lt_of_nextPacket _found
  · have onward := position_of_skipPacket _skipped
    omega
  all_goals
    have sameSize := size_of_readContent _read
    simp only [position, pass, pastRejected, movedTo, Source.size_movedTo,
      Source.position_movedTo] at forward ⊢
  · have stands := offset_of_nextPacket _found
    simp only [position] at stands
    omega
  · have onward := position_lt_of_readContent _read
    simp only [position] at onward
    omega

end Navigator

end MediaSplit.ProgramStream

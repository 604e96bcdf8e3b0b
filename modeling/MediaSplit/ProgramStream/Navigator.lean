import MediaSplit.ProgramStream.Error
import MediaSplit.ProgramStream.StreamId
import MediaSplit.ProgramStream.StreamMap
import MediaSplit.Source

/-!
Contract: walking a program stream from packet to packet.

Owns: `Navigator`, a source with what the structures passed so far have told;
`nextPacket` and `nextPacketOf`, which stop behind the start code of a packet;
and `skipPacket`, which passes over a packet by its length field.

Pack headers, system headers and stream maps are passed over. After anything
else that is not a packet, the walk goes on at the first start code that
follows. A walk that runs out of data ends, with the position at the end of
the data.

Every step of the walk moves forward within the data
(`position_lt_of_codeAfter`), which is why it ends.
-/

set_option autoImplicit false

namespace MediaSplit.ProgramStream

/-- The two forms of a program stream. -/
inductive Version where
  | mpeg1
  | mpeg2
  deriving DecidableEq, Repr, Inhabited

/-- The number that stands for a version. -/
def Version.number : Version → Nat
  | .mpeg1 => 1
  | .mpeg2 => 2

/-- The start code of a packet. -/
structure PacketStart where
  /-- The stream id. -/
  id : Nat
  /-- Where the start code stands. -/
  offset : Nat
  deriving DecidableEq, Repr, Inhabited

/-- A walk over a program stream. -/
structure Navigator where
  source : Source
  /-- The version, which the first pack header decides. -/
  version : Option Version
  /-- What the stream maps have announced. -/
  map : StreamMap
  /-- How often the walk went astray and found back. -/
  resyncs : Nat
  deriving DecidableEq, Inhabited

/-- The first start code that ends behind `position`, given the three bytes
before it as a number, and the position behind that code. -/
def findStartCode? (source : Source) (lastBytes position : Nat) : Option (Nat × Nat) :=
  match present : source.byteAt? position with
  | none => none
  | some byte =>
      let word := lastBytes % 2 ^ 24 * 256 + byte
      if isStartCode word then some (word, position + 1)
      else findStartCode? source word (position + 1)
termination_by source.size - position
decreasing_by
  have inside := Source.lt_size_of_byteAt? present
  omega

/-- Size of a pack header of the first version without its start code, and of
the same part of the second. -/
def packHeaderSize : Nat := 8

/-- The version told by the byte behind a pack start code. -/
def Version.ofMarker (marker : Nat) : Version :=
  if marker < 0x40 then .mpeg1 else .mpeg2

/-- Where a pack header ends whose start code ends at `position`; in the
second version up to seven stuffing bytes close it. -/
def packHeaderEnd? (source : Source) (version : Version) (position : Nat) : Option Nat :=
  match version with
  | .mpeg1 => some (position + packHeaderSize)
  | .mpeg2 => (source.byteAt? (position + packHeaderSize + 1)).map fun last =>
      position + packHeaderSize + 2 + last % 8

/-- Where the entries of a system header end: before the first byte that does
not start one. -/
def bufferEntriesEnd? (source : Source) (position : Nat) : Option Nat :=
  match present : source.byteAt? position with
  | none => none
  | some byte => if byte < 0x80 then some position else bufferEntriesEnd? source (position + 3)
termination_by source.size - position
decreasing_by
  have inside := Source.lt_size_of_byteAt? present
  omega

/-- Size of a system header without its start code and its entries. -/
def systemHeaderSize : Nat := 8

namespace Navigator

/-- A walk from the position of `source`. -/
def ofSource (source : Source) : Navigator := ⟨source, none, .empty, 0⟩

/-- The position of the walk. -/
def position (navigator : Navigator) : Nat := navigator.source.position

/-- The walk at another position. -/
def movedTo (navigator : Navigator) (position : Nat) : Navigator :=
  { navigator with source := navigator.source.movedTo position }

/-- The walk at the end of the data. -/
def movedToEnd (navigator : Navigator) : Navigator :=
  navigator.movedTo navigator.source.size

/-- Reads the word where a start code is expected. -/
def codeAt (navigator : Navigator) (position : Nat) : Option Nat × Navigator :=
  match navigator.source.numberAt? position 4 with
  | some word => (some word, navigator.movedTo (position + 4))
  | none => (none, navigator.movedToEnd)

/-- Reads the word behind a structure that ends there, if it is complete. -/
def codeBehind (navigator : Navigator) (structureEnd : Option Nat) : Option Nat × Navigator :=
  match structureEnd with
  | some position => navigator.codeAt position
  | none => (none, navigator.movedToEnd)

/-- The walk once the byte behind a pack start code has been seen. -/
def decideVersion (navigator : Navigator) : Navigator :=
  let marker := navigator.source.byteAt? navigator.position
  { navigator with version := navigator.version.or (marker.map Version.ofMarker) }

/-- Finds the first start code that ends behind the position. -/
def resync (navigator : Navigator) (word : Nat) : Option Nat × Navigator :=
  match findStartCode? navigator.source word navigator.position with
  | some (code, position) =>
      (some code, { navigator with
        source := navigator.source.movedTo position, resyncs := navigator.resyncs + 1 })
  | none => (none, navigator.movedToEnd)

/-- Whether a word starts a packet. -/
def isPacketCode (word : Nat) : Bool :=
  isStartCode word && (word < programEndCode || streamMapCode < word)

/-- Passes over what starts with `word`, which ends at the position, and reads
the word that follows. -/
def codeAfter (navigator : Navigator) (word : Nat) : Option Nat × Navigator :=
  if word = packStartCode then
    let navigator := navigator.decideVersion
    navigator.codeBehind (navigator.version.bind fun version =>
      packHeaderEnd? navigator.source version navigator.position)
  else if word = systemHeaderCode then
    navigator.codeBehind
      (bufferEntriesEnd? navigator.source (navigator.position + systemHeaderSize))
  else if word = streamMapCode then
    match navigator.map.read navigator.source navigator.position with
    | some (mapEnd, map) => { navigator with map := map }.codeAt mapEnd
    | none => (none, navigator.movedToEnd)
  else navigator.resync word

theorem le_snd_of_findStartCode? {source : Source} {word position code after : Nat}
    (found : findStartCode? source word position = some (code, after)) :
    position < after ∧ after ≤ source.size := by
  fun_induction findStartCode? source word position with
  | case1 => cases found
  | case2 word position byte present next isCode =>
      have inside := Source.lt_size_of_byteAt? present
      simp only [Option.some.injEq, Prod.mk.injEq] at found
      omega
  | case3 word position byte present next notCode step =>
      have bounds := step found
      omega

theorem le_of_bufferEntriesEnd? {source : Source} {position structureEnd : Nat}
    (found : bufferEntriesEnd? source position = some structureEnd) :
    position ≤ structureEnd := by
  fun_induction bufferEntriesEnd? source position with
  | case1 => cases found
  | case2 => cases found; omega
  | case3 position byte present isEntry step =>
      have bound := step found
      omega

theorem lt_of_packHeaderEnd? {source : Source} {version : Version}
    {position structureEnd : Nat}
    (found : packHeaderEnd? source version position = some structureEnd) :
    position < structureEnd := by
  cases version with
  | mpeg1 =>
      simp only [packHeaderEnd?, packHeaderSize, Option.some.injEq] at found
      omega
  | mpeg2 =>
      simp only [packHeaderEnd?, packHeaderSize, Option.map_eq_some_iff] at found
      obtain ⟨last, _, ends⟩ := found
      omega

theorem le_fst_of_read {map after : StreamMap} {source : Source} {offset mapEnd : Nat}
    (found : map.read source offset = some (mapEnd, after)) : offset < mapEnd := by
  simp only [StreamMap.read] at found
  cases field : source.numberAt? offset 2 with
  | none => simp [field] at found
  | some length =>
      simp only [field, Option.pure_def, Option.bind_eq_bind, Option.bind_some,
        Option.some.injEq, Prod.mk.injEq] at found
      omega

theorem position_of_codeAt {navigator after : Navigator} {position word : Nat}
    (found : navigator.codeAt position = (some word, after)) :
    after.source.size = navigator.source.size ∧ after.position = position + 4 ∧
      position + 4 ≤ navigator.source.size := by
  simp only [codeAt] at found
  split at found
  · rename_i value present
    have inside := Source.le_size_of_numberAt? present
    cases found
    exact ⟨rfl, rfl, inside⟩
  · cases found

theorem position_lt_of_codeBehind {navigator after : Navigator} {structureEnd : Option Nat}
    {word start : Nat}
    (forward : ∀ position, structureEnd = some position → start < position)
    (found : navigator.codeBehind structureEnd = (some word, after)) :
    after.source.size = navigator.source.size ∧ start < after.position ∧
      after.position ≤ after.source.size := by
  cases structureEnd with
  | none => cases found
  | some position =>
      have ahead := forward position rfl
      obtain ⟨sameSize, landed, inside⟩ := position_of_codeAt found
      exact ⟨sameSize, by omega, by omega⟩

/-- One step of the walk moves forward and stays within the data. -/
theorem position_lt_of_codeAfter {navigator after : Navigator} {word next : Nat}
    (found : navigator.codeAfter word = (some next, after)) :
    after.source.size = navigator.source.size ∧ navigator.position < after.position ∧
      after.position ≤ after.source.size := by
  simp only [codeAfter] at found
  split at found
  · refine @position_lt_of_codeBehind navigator.decideVersion _ _ _ _ ?_ found
    intro position ends
    obtain ⟨version, _, header⟩ := Option.bind_eq_some_iff.1 ends
    exact lt_of_packHeaderEnd? header
  · split at found
    · refine position_lt_of_codeBehind ?_ found
      intro position ends
      have bound := le_of_bufferEntriesEnd? ends
      simp only [systemHeaderSize] at bound
      omega
    · split at found
      · split at found
        · rename_i mapEnd map read
          have ahead := le_fst_of_read read
          obtain ⟨sameSize, landed, inside⟩ := position_of_codeAt found
          refine ⟨sameSize, ?_, ?_⟩
          · omega
          · omega
        · cases found
      · simp only [resync] at found
        split at found
        · rename_i code position search
          have bounds := le_snd_of_findStartCode? search
          simp only [Prod.mk.injEq] at found
          obtain ⟨_, rfl⟩ := found
          exact ⟨rfl, bounds⟩
        · cases found

/-- Walks on from a word that ends at the position to the next packet, no
further than `limit`. -/
def packetFrom (navigator : Navigator) (word : Nat) (limit : Option Nat) :
    Option PacketStart × Navigator :=
  if limit.any (· < navigator.position) then (none, navigator)
  else if isPacketCode word then (some ⟨word % 256, navigator.position - 4⟩, navigator)
  else
    match _step : navigator.codeAfter word with
    | (some next, after) => after.packetFrom next limit
    | (none, after) => (none, after)
termination_by navigator.source.size - navigator.position
decreasing_by
  have progress := position_lt_of_codeAfter _step
  simp only [position] at progress ⊢
  omega

/-- Walks to the next packet and stops behind its start code. There is none at
the end of the data, and none once the position has passed `limit`. -/
def nextPacket (navigator : Navigator) (limit : Option Nat) : Option PacketStart × Navigator :=
  match navigator.codeAt navigator.position with
  | (some word, navigator) => navigator.packetFrom word limit
  | (none, navigator) => (none, navigator)

/-- Passes over a packet by its length field, from that field on. Says whether
there was such a field. -/
def skipPacket (navigator : Navigator) : Bool × Navigator :=
  match navigator.source.numberAt? navigator.position 2 with
  | some length => (true, navigator.movedTo (navigator.position + 2 + length))
  | none => (false, navigator.movedToEnd)

theorem position_le_of_packetFrom {navigator after : Navigator} {word : Nat}
    {limit : Option Nat} {start : PacketStart}
    (found : navigator.packetFrom word limit = (some start, after)) :
    after.source.size = navigator.source.size ∧ navigator.position ≤ after.position := by
  fun_induction packetFrom navigator word limit with
  | case1 => cases found
  | case2 => cases found; exact ⟨rfl, Nat.le_refl _⟩
  | case3 navigator word _ _ next middle step walk =>
      obtain ⟨sameSize, ahead⟩ := walk found
      have progress := position_lt_of_codeAfter step
      exact ⟨sameSize.trans progress.1, by omega⟩
  | case4 => cases found

theorem offset_of_packetFrom {navigator after : Navigator} {word : Nat} {limit : Option Nat}
    {start : PacketStart}
    (found : navigator.packetFrom word limit = (some start, after)) :
    start.offset = after.position - 4 := by
  fun_induction packetFrom navigator word limit with
  | case1 => cases found
  | case2 => cases found; rfl
  | case3 navigator word _ _ next middle step walk => exact walk found
  | case4 => cases found

/-- A packet found stands behind the position, within the data. -/
theorem position_lt_of_nextPacket {navigator after : Navigator} {limit : Option Nat}
    {start : PacketStart} (found : navigator.nextPacket limit = (some start, after)) :
    after.source.size = navigator.source.size ∧ navigator.position + 4 ≤ after.position ∧
      navigator.position + 4 ≤ navigator.source.size := by
  simp only [nextPacket] at found
  split at found
  · rename_i word middle code
    obtain ⟨sameSize, landed, inside⟩ := position_of_codeAt code
    obtain ⟨sameAfter, ahead⟩ := position_le_of_packetFrom found
    exact ⟨sameAfter.trans sameSize, by omega, inside⟩
  · cases found

/-- The walk stops behind the start code of the packet. -/
theorem offset_of_nextPacket {navigator after : Navigator} {limit : Option Nat}
    {start : PacketStart} (found : navigator.nextPacket limit = (some start, after)) :
    start.offset + 4 = after.position := by
  have ahead := position_lt_of_nextPacket found
  simp only [nextPacket] at found
  split at found
  · have stands := offset_of_packetFrom found
    omega
  · cases found

theorem position_of_skipPacket {navigator after : Navigator}
    (skipped : navigator.skipPacket = (true, after)) :
    after.source.size = navigator.source.size ∧ navigator.position < after.position := by
  simp only [skipPacket] at skipped
  split at skipped
  · cases skipped
    exact ⟨rfl, by simp only [position, movedTo, Source.position_movedTo]; omega⟩
  · cases skipped

/-- Walks to the next packet of stream `id`, passing over all others by their
length fields. -/
def nextPacketOf (navigator : Navigator) (id : Nat) (limit : Option Nat) :
    Option PacketStart × Navigator :=
  match _found : navigator.nextPacket limit with
  | (none, after) => (none, after)
  | (some start, after) =>
      if start.id = id then (some start, after)
      else
        match _skipped : after.skipPacket with
        | (true, behind) => behind.nextPacketOf id limit
        | (false, atEnd) => (none, atEnd)
termination_by navigator.source.size - navigator.position
decreasing_by
  have forward := position_lt_of_nextPacket _found
  have onward := position_of_skipPacket _skipped
  omega

/-- A packet of a stream that is found stands behind the position. -/
theorem position_lt_of_nextPacketOf {navigator after : Navigator} {id : Nat}
    {limit : Option Nat} {start : PacketStart}
    (found : navigator.nextPacketOf id limit = (some start, after)) :
    after.source.size = navigator.source.size ∧ navigator.position + 4 ≤ after.position ∧
      navigator.position + 4 ≤ navigator.source.size := by
  fun_induction nextPacketOf navigator id limit with
  | case1 => cases found
  | case2 navigator start middle next =>
      cases found
      exact position_lt_of_nextPacket next
  | case3 navigator start middle next _ behind skipped walk =>
      have forward := position_lt_of_nextPacket next
      have onward := position_of_skipPacket skipped
      have further := walk found
      exact ⟨by omega, by omega, by omega⟩
  | case4 => cases found

theorem offset_of_nextPacketOf {navigator after : Navigator} {id : Nat} {limit : Option Nat}
    {start : PacketStart}
    (found : navigator.nextPacketOf id limit = (some start, after)) :
    start.offset + 4 = after.position := by
  fun_induction nextPacketOf navigator id limit with
  | case1 => cases found
  | case2 navigator start middle next =>
      cases found
      exact offset_of_nextPacket next
  | case3 navigator start middle _ _ behind _ walk => exact walk found
  | case4 => cases found

end Navigator

end MediaSplit.ProgramStream

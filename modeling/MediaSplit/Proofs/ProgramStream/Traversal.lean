import MediaSplit.Proofs.ProgramStream.Walk

/-!
Contract: the walk over a program as it is written.

Owns:
- `Navigator.Traverses`, a walk from packet to packet up to the end of the data;
- `Navigator.IsBehind`, a walk that has passed over one structure;
- that a walk over a writable program comes upon exactly its packets, never goes
  astray, and knows the version of the first pack header.

Does **not** own: what is in a packet, and programs with anything else between
their structures.

Pack headers and system headers have no length field, so where they end has to
follow from their own bytes. A system header ends where no further entry starts,
which the start code behind it decides, or the end of the data.
-/

set_option autoImplicit false

namespace MediaSplit.ProgramStream

/-! ## Structures as written -/

theorem toNumber_startCode_packet {id : Nat} (isId : Structure.isPacketId id = true) :
    Bytes.toNumber (startCode id) = 2 ^ 8 + id := by
  have isByte := of_decide_eq_true (Bool.and_eq_true_iff.1 isId).1
  rw [toNumber_startCode, Nat.mod_eq_of_lt isByte]

/-- A structure starts with a zero, so it is no entry of a system header. -/
theorem Structure.head?_toBytes (part : Structure) : part.toBytes.head? = some 0 := by
  cases part <;> rfl

namespace Navigator

/-- The bytes that a walk has not passed. -/
def ahead (navigator : Navigator) : Bytes := navigator.source.toBytes.drop navigator.position

/-- A walk that steps from packet to packet by the length fields comes upon the
`packets` in order, and then upon none. -/
inductive Traverses : (navigator : Navigator) → (packets : List PacketStart) →
    (after : Navigator) → Prop
  | ends {navigator after : Navigator} (found : navigator.nextPacket none = (none, after)) :
      Traverses navigator [] after
  | passes {navigator packet behind after : Navigator} {start : PacketStart}
      {rest : List PacketStart}
      (found : navigator.nextPacket none = (some start, packet))
      (skipped : packet.skipPacket = (true, behind))
      (goesOn : Traverses behind rest after) :
      Traverses navigator (start :: rest) after

/-- The walk behind a structure, which has told nothing but its version. -/
structure IsBehind (part : Structure) (navigator behind : Navigator) : Prop where
  content : behind.source.content = navigator.source.content
  position : behind.position = navigator.position + part.toBytes.length
  version : behind.version = navigator.version.or part.version?
  resyncs : behind.resyncs = navigator.resyncs

section Structures

variable {navigator behind after : Navigator} {part : Structure} {rest : Bytes}

theorem IsBehind.ahead
    (isBehind : IsBehind part navigator behind)
    (stands : navigator.ahead = part.toBytes ++ rest) :
    behind.ahead = rest := by
  unfold Navigator.ahead Source.toBytes
  rw [isBehind.content, isBehind.position]
  exact Source.drop_of_drop stands

theorem Traverses.of_nextPacket_eq
    {packets : List PacketStart}
    (same : navigator.nextPacket none = behind.nextPacket none)
    (traverses : Traverses behind packets after) :
    Traverses navigator packets after := by
  cases traverses with
  | ends found => exact .ends (same.trans found)
  | passes found skipped goesOn => exact .passes (same.trans found) skipped goesOn

/-! ## One structure -/

theorem code_of_ahead {id : Nat} (stands : navigator.ahead = startCode id ++ rest) :
    navigator.source.numberAt? navigator.position 4 = some (2 ^ 8 + id % 2 ^ 8) := by
  rw [← toNumber_startCode]
  exact Source.numberAt?_of_drop stands (List.cons_ne_nil _ _)

theorem codeAt_of_end
    {position : Nat}
    (atEnd : navigator.source.toBytes.drop position = []) :
    navigator.codeAt position = (none, navigator.movedToEnd) := by
  have past := List.drop_eq_nil_iff.1 atEnd
  rw [← Source.size_eq_length] at past
  exact codeAt_of_short (by omega)

/-- A pack header is passed over by what its version says about its size. -/
theorem nextPacket_of_pack
    {marker : UInt8}
    {version : Version}
    {structureEnd : Nat}
    (stands : navigator.ahead = startCode packStartCode ++ marker :: rest)
    (told : Version.ofMarker marker.toNat = version)
    (agrees : navigator.version.or (some version) = some version)
    (ends : packHeaderEnd? navigator.source version (navigator.position + 4)
      = some structureEnd) :
    navigator.nextPacket none
      = ({ navigator.movedTo structureEnd with version := some version }).nextPacket none := by
  have present : navigator.source.byteAt? (navigator.position + 4) = some marker.toNat :=
    Source.byteAt?_of_drop stands
  have decided : (navigator.movedTo (navigator.position + 4)).decideVersion
      = { navigator.movedTo (navigator.position + 4) with version := some version } := by
    unfold decideVersion
    dsimp only
    rw [← agrees, ← told]
    show { navigator.movedTo (navigator.position + 4) with
      version := navigator.version.or
        ((navigator.source.byteAt? (navigator.position + 4)).map Version.ofMarker) } = _
    rw [present]
    rfl
  apply nextPacket_of_codeAfter (code_of_ahead stands) (by decide)
  show (navigator.movedTo (navigator.position + 4)).codeAfter packStartCode = _
  unfold codeAfter
  rw [if_pos rfl, decided]
  show codeBehind _ (packHeaderEnd? navigator.source version (navigator.position + 4)) = _
  rw [ends]
  rfl

theorem exists_isBehind_firstPack
    {marker : UInt8}
    {body : Bytes}
    (stands : navigator.ahead = (Structure.firstPack marker body).toBytes ++ rest)
    (writable : (Structure.firstPack marker body).IsWritable)
    (agrees : navigator.version.or (some .mpeg1) = some .mpeg1) :
    ∃ behind, IsBehind (.firstPack marker body) navigator behind
      ∧ navigator.nextPacket none = behind.nextPacket none := by
  obtain ⟨isFirst, size⟩ := writable
  have told : Version.ofMarker marker.toNat = .mpeg1 := if_pos isFirst
  refine ⟨{ navigator.movedTo (navigator.position + 4 + packHeaderSize) with
    version := some .mpeg1 }, ?_, nextPacket_of_pack stands told agrees rfl⟩
  constructor
  case content => rfl
  case position =>
    show navigator.position + 4 + packHeaderSize = _
    simp only [Structure.toBytes, startCode, List.length_append, List.length_cons,
      List.length_nil, ← size]
    omega
  case version => exact agrees.symm
  case resyncs => rfl

theorem exists_isBehind_secondPack
    {marker : UInt8}
    {body stuffing : Bytes}
    {free : Nat}
    (stands : navigator.ahead = (Structure.secondPack marker body free stuffing).toBytes ++ rest)
    (writable : (Structure.secondPack marker body free stuffing).IsWritable)
    (agrees : navigator.version.or (some .mpeg2) = some .mpeg2) :
    ∃ behind, IsBehind (.secondPack marker body free stuffing) navigator behind
      ∧ navigator.nextPacket none = behind.nextPacket none := by
  obtain ⟨isSecond, size, few⟩ := writable
  have told : Version.ofMarker marker.toNat = .mpeg2 :=
    if_neg (Nat.not_lt.2 isSecond)
  let last := UInt8.ofNat (free % 2 ^ 5 * 2 ^ 3 + stuffing.length)
  have isLast : last.toNat % 8 = stuffing.length := by
    show (UInt8.ofNat (free % 2 ^ 5 * 2 ^ 3 + stuffing.length)).toNat % 8 = _
    rw [UInt8.toNat_ofNat']
    omega
  have fields : navigator.ahead
      = startCode packStartCode ++ marker :: (body ++ last :: (stuffing ++ rest)) := by
    rw [stands]
    simp only [Structure.toBytes, Bytes.ofNumber, List.append_assoc, List.cons_append,
      List.nil_append]
    rfl
  have present : navigator.source.byteAt? (navigator.position + 4 + packHeaderSize + 1)
      = some last.toNat := by
    have place : navigator.position + 4 + packHeaderSize + 1
        = navigator.position + (startCode packStartCode ++ marker :: body).length := by
      rw [List.length_append, List.length_cons, size]
      rfl
    have spelled : navigator.ahead
        = (startCode packStartCode ++ marker :: body) ++ last :: (stuffing ++ rest) := by
      rw [List.append_assoc]
      exact fields
    rw [place]
    exact Source.byteAt?_of_drop spelled
  have ends : packHeaderEnd? navigator.source .mpeg2 (navigator.position + 4)
      = some (navigator.position + 4 + packHeaderSize + 2 + stuffing.length) := by
    unfold packHeaderEnd?
    rw [present, Option.map_some, isLast]
  refine ⟨{ navigator.movedTo (navigator.position + 4 + packHeaderSize + 2 + stuffing.length) with
    version := some .mpeg2 }, ?_, nextPacket_of_pack fields told agrees ends⟩
  constructor
  case content => rfl
  case position =>
    show navigator.position + 4 + packHeaderSize + 2 + stuffing.length = _
    simp only [Structure.toBytes, startCode, List.length_append, List.length_cons,
      List.length_nil, Bytes.length_ofNumber, size]
    omega
  case version => exact agrees.symm
  case resyncs => rfl

/-- The entries of a system header reach up to the first byte that starts none,
which is missing at the end of the data. -/
theorem bufferEntriesEnd?_of_drop
    {source : Source}
    {position : Nat}
    {entries : List (UInt8 × UInt8 × UInt8)}
    (stands : source.toBytes.drop position
      = (entries.flatMap fun (id, high, low) => [id, high, low]) ++ rest)
    (areEntries : ∀ entry ∈ entries, 0x80 ≤ entry.1)
    (closed : ∀ byte ∈ rest.head?, byte < 0x80) :
    bufferEntriesEnd? source position
      = rest.head?.map fun _ => position + 3 * entries.length := by
  induction entries generalizing position with
  | nil =>
      have present := source.byteAt?_eq_head? position
      rw [stands, List.flatMap_nil, List.nil_append] at present
      rw [bufferEntriesEnd?]
      cases head : rest.head? with
      | none =>
          rw [head] at present
          split
          next => rfl
          next byte found => cases present.symm.trans found
      | some first =>
          rw [head] at present
          have below : first.toNat < 0x80 := UInt8.lt_iff_toNat_lt.1 (closed first head)
          split
          next missing => cases present.symm.trans missing
          next byte found =>
            obtain rfl := Option.some.inj (present.symm.trans found)
            rw [if_pos below]
            rfl
  | cons entry entries inductionHypothesis =>
      obtain ⟨id, high, low⟩ := entry
      have present : source.byteAt? position = some id.toNat := by
        rw [Source.byteAt?_eq_head?, stands]
        rfl
      have isEntry : 0x80 ≤ id.toNat := UInt8.le_iff_toNat_le.1 (areEntries _ List.mem_cons_self)
      have behind : source.toBytes.drop (position + 3)
          = (entries.flatMap fun (id, high, low) => [id, high, low]) ++ rest := by
        refine Source.drop_of_drop (?_ : _ = [id, high, low] ++ _)
        rw [stands, List.flatMap_cons, List.append_assoc]
      rw [bufferEntriesEnd?]
      split
      next missing => cases present.symm.trans missing
      next byte found =>
        obtain rfl := Option.some.inj (present.symm.trans found)
        rw [if_neg (Nat.not_lt.2 isEntry), inductionHypothesis behind
          (fun other member => areEntries other (List.mem_cons_of_mem _ member))]
        cases rest.head? with
        | none => rfl
        | some first =>
            rw [Option.map_some, Option.map_some, List.length_cons]
            congr 1
            omega

theorem length_bufferEntries (entries : List (UInt8 × UInt8 × UInt8)) :
    (entries.flatMap fun (id, high, low) => [id, high, low]).length = 3 * entries.length := by
  induction entries with
  | nil => rfl
  | cons entry entries inductionHypothesis =>
      rw [List.flatMap_cons, List.length_append, inductionHypothesis, List.length_cons]
      simp only [List.length_cons, List.length_nil]
      omega

theorem exists_isBehind_systemHeader
    {body : Bytes}
    {entries : List (UInt8 × UInt8 × UInt8)}
    (stands : navigator.ahead = (Structure.systemHeader body entries).toBytes ++ rest)
    (writable : (Structure.systemHeader body entries).IsWritable)
    (closed : ∀ byte ∈ rest.head?, byte < 0x80) :
    ∃ behind, IsBehind (.systemHeader body entries) navigator behind
      ∧ navigator.nextPacket none = behind.nextPacket none := by
  obtain ⟨size, areEntries⟩ := writable
  have start : navigator.position + 4 + systemHeaderSize
      = navigator.position + (startCode systemHeaderCode ++ body).length := by
    rw [List.length_append, size]
    rfl
  have lies : navigator.source.toBytes.drop (navigator.position + 4 + systemHeaderSize)
      = (entries.flatMap fun (id, high, low) => [id, high, low]) ++ rest := by
    rw [start]
    apply Source.drop_of_drop
    rw [← List.append_assoc]
    exact stands
  have ends : bufferEntriesEnd? (navigator.source.movedTo (navigator.position + 4)) _ = _ :=
    bufferEntriesEnd?_of_drop lies areEntries closed
  have isBehind : IsBehind (.systemHeader body entries) navigator
      (navigator.movedTo (navigator.position + 4 + systemHeaderSize + 3 * entries.length)) := by
    constructor
    case content => rfl
    case position =>
      show navigator.position + 4 + systemHeaderSize + 3 * entries.length = _
      rw [Structure.toBytes, List.length_append, length_bufferEntries, start]
      omega
    case version => exact Option.or_none.symm
    case resyncs => rfl
  refine ⟨_, isBehind, ?_⟩
  have starts : navigator.ahead = startCode systemHeaderCode
      ++ (body ++ ((entries.flatMap fun (id, high, low) => [id, high, low]) ++ rest)) := by
    rw [stands, Structure.toBytes, List.append_assoc, List.append_assoc]
  have code := code_of_ahead starts
  apply nextPacket_of_codeAfter code (by decide)
  show (navigator.movedTo (navigator.position + 4)).codeAfter systemHeaderCode = _
  unfold codeAfter
  rw [if_neg (by decide), if_pos rfl]
  show codeBehind _ (bufferEntriesEnd? (navigator.source.movedTo (navigator.position + 4))
    (navigator.position + 4 + systemHeaderSize)) = _
  rw [ends]
  cases head : rest.head? with
  | some first => rfl
  | none =>
      have atEnd := isBehind.ahead stands
      rw [List.head?_eq_none_iff.1 head] at atEnd
      exact (codeAt_of_end atEnd).symm

/-- The length field of what stands behind a start code. -/
theorem lengthField_of_ahead
    {id : Nat}
    {body : Bytes}
    (stands : navigator.ahead = startCode id ++ body.withLength 2 ++ rest)
    (fits : body.length < 2 ^ 16) :
    navigator.source.numberAt? (navigator.position + 4) 2 = some body.length := by
  have lies : navigator.source.toBytes.drop (navigator.position + 4)
      = Bytes.ofNumber 2 body.length ++ (body ++ rest) := by
    refine Source.drop_of_drop (?_ : navigator.ahead = startCode id ++ _)
    rw [stands, Bytes.withLength, List.append_assoc, List.append_assoc]
  exact (Source.numberAt?_of_written lies (by decide) fits).1

theorem length_withLength (id : Nat) (body : Bytes) :
    (startCode id ++ body.withLength 2).length = 4 + 2 + body.length := by
  rw [List.length_append, Bytes.withLength, List.length_append, Bytes.length_ofNumber,
    Nat.add_assoc]
  rfl

theorem exists_isBehind_streamMap
    {body : Bytes}
    (stands : navigator.ahead = (Structure.streamMap body).toBytes ++ rest)
    (writable : (Structure.streamMap body).IsWritable) :
    ∃ behind, IsBehind (.streamMap body) navigator behind
      ∧ navigator.nextPacket none = behind.nextPacket none := by
  let behindCode := navigator.movedTo (navigator.position + 4)
  have field : behindCode.source.numberAt? behindCode.position 2 = some body.length :=
    lengthField_of_ahead stands writable
  have starts : navigator.ahead = startCode streamMapCode ++ (body.withLength 2 ++ rest) := by
    rw [stands, Structure.toBytes, List.append_assoc]
  have code := code_of_ahead starts
  obtain ⟨map, taken⟩ : ∃ map, behindCode.map.read behindCode.source behindCode.position
      = some (navigator.position + 4 + 2 + body.length, map) := by
    unfold StreamMap.read
    rw [field]
    exact ⟨_, rfl⟩
  refine ⟨{ navigator.movedTo (navigator.position + 4 + 2 + body.length) with map := map }, ?_, ?_⟩
  · constructor
    case content => rfl
    case position =>
      show navigator.position + 4 + 2 + body.length = _
      rw [Structure.toBytes, length_withLength]
      omega
    case version => exact Option.or_none.symm
    case resyncs => rfl
  · apply nextPacket_of_codeAfter code (by decide)
    show (navigator.movedTo (navigator.position + 4)).codeAfter streamMapCode = _
    unfold codeAfter
    rw [if_neg (by decide), if_neg (by decide), if_pos rfl]
    split
    next mapEnd found read =>
      obtain ⟨rfl, rfl⟩ := Prod.mk.inj (Option.some.inj (taken.symm.trans read))
      rfl
    next missing => cases taken.symm.trans missing

/-- Every structure but a packet is passed over on the way to the next packet. -/
theorem exists_isBehind_of_header
    (stands : navigator.ahead = part.toBytes ++ rest)
    (writable : part.IsWritable)
    (isHeader : ∀ id body, part ≠ .packet id body)
    (closed : ∀ byte ∈ rest.head?, byte < 0x80)
    (agrees : ∀ told ∈ part.version?, navigator.version.or (some told) = some told) :
    ∃ behind, IsBehind part navigator behind
      ∧ navigator.nextPacket none = behind.nextPacket none := by
  cases part with
  | firstPack marker body => exact exists_isBehind_firstPack stands writable (agrees _ rfl)
  | secondPack marker body free stuffing =>
      exact exists_isBehind_secondPack stands writable (agrees _ rfl)
  | systemHeader body entries => exact exists_isBehind_systemHeader stands writable closed
  | streamMap body => exact exists_isBehind_streamMap stands writable
  | packet id body => exact absurd rfl (isHeader id body)

/-- A packet is found where it stands, and skipped to its end. -/
theorem exists_isBehind_packet
    {id : Nat}
    {body : Bytes}
    (stands : navigator.ahead = (Structure.packet id body).toBytes ++ rest)
    (writable : (Structure.packet id body).IsWritable) :
    ∃ packet behind,
      navigator.nextPacket none = (some ⟨id, navigator.position⟩, packet)
        ∧ packet.skipPacket = (true, behind)
        ∧ IsBehind (.packet id body) navigator behind := by
  obtain ⟨isId, fits⟩ := writable
  have code : navigator.source.numberAt? navigator.position 4 = some (2 ^ 8 + id) := by
    rw [← toNumber_startCode_packet isId]
    have spelled : navigator.ahead = startCode id ++ (body.withLength 2 ++ rest) := by
      rw [← List.append_assoc]
      exact stands
    exact Source.numberAt?_of_drop spelled (List.cons_ne_nil _ _)
  obtain ⟨isByte, isPacket⟩ := Bool.and_eq_true_iff.1 isId
  have isSmall := of_decide_eq_true isByte
  have sameId : (2 ^ 8 + id) % 256 = id := by omega
  have found := nextPacket_of_isPacketCode code isPacket
  rw [sameId] at found
  have field := lengthField_of_ahead stands fits
  refine ⟨_, _, found, skipPacket_eq field, ?_⟩
  constructor
  case content => rfl
  case position =>
    show navigator.position + 4 + 2 + body.length = _
    rw [Structure.toBytes, length_withLength]
    omega
  case version => exact Option.or_none.symm
  case resyncs => rfl

/-! ## All structures -/

/-- Behind the last structure there is nothing or an end code, and no packet. -/
theorem nextPacket_of_tail
    {hasEndCode : Bool}
    (stands : navigator.ahead = if hasEndCode then startCode programEndCode else []) :
    navigator.nextPacket none = (none, navigator.movedToEnd) := by
  cases hasEndCode with
  | false =>
      have ended := codeAt_of_end stands
      unfold nextPacket
      rw [ended]
  | true =>
      have lies : navigator.ahead = startCode programEndCode ++ [] := stands
      have missing : navigator.source.byteAt? (navigator.position + 4) = none := by
        have atEnd := Source.drop_of_drop lies
        rw [Source.byteAt?_eq_head?]
        exact congrArg (fun bytes => bytes.head?.map UInt8.toNat) atEnd
      have lost : (navigator.movedTo (navigator.position + 4)).codeAfter programEndCode
          = (none, navigator.movedToEnd) := by
        unfold codeAfter
        rw [if_neg (by decide), if_neg (by decide), if_neg (by decide)]
        have nowhere : findStartCode? (navigator.source.movedTo (navigator.position + 4))
            programEndCode (navigator.position + 4) = none := by
          rw [findStartCode?]
          split
          next => rfl
          next byte found => cases missing.symm.trans found
        unfold resync
        split
        next code position found => cases nowhere.symm.trans found
        next => rfl
      unfold nextPacket codeAt
      rw [code_of_ahead lies]
      show packetFrom (navigator.movedTo (navigator.position + 4)) programEndCode none = _
      rw [packetFrom, Option.any_none, if_neg Bool.false_ne_true, if_neg (by decide)]
      split
      next step => cases lost.symm.trans step
      next step => cases lost.symm.trans step; rfl

theorem head?_flatMap_toBytes (parts : List Structure) (hasEndCode : Bool) :
    ∀ byte ∈ (parts.flatMap Structure.toBytes
      ++ if hasEndCode then startCode programEndCode else []).head?, byte < 0x80 := by
  intro byte first
  have isZero : byte = 0 := by
    cases parts with
    | nil =>
        cases hasEndCode with
        | false => cases first
        | true => exact (Option.some.inj first).symm
    | cons part parts =>
        rw [List.flatMap_cons, List.append_assoc, List.head?_append, part.head?_toBytes] at first
        exact (Option.some.inj first).symm
  rw [isZero]
  decide

theorem packetsFrom_of_header
    (isHeader : ∀ id body, part ≠ .packet id body)
    (offset : Nat)
    (parts : List Structure) :
    Program.packetsFrom offset (part :: parts)
      = Program.packetsFrom (offset + part.toBytes.length) parts := by
  cases part with
  | packet id body => exact absurd rfl (isHeader id body)
  | firstPack | secondPack | systemHeader | streamMap => rfl

/-- The version that is told from here on, by the walk so far or by what follows,
stays the same as one structure after the other is passed. -/
theorem exists_traverses
    {parts : List Structure}
    {hasEndCode : Bool}
    (stands : navigator.ahead = parts.flatMap Structure.toBytes
      ++ if hasEndCode then startCode programEndCode else [])
    (writable : ∀ part ∈ parts, part.IsWritable)
    (agree : ∀ part ∈ parts, ∀ told ∈ part.version?,
      some told = navigator.version.or (parts.findSome? Structure.version?)) :
    ∃ after, Traverses navigator (Program.packetsFrom navigator.position parts) after
      ∧ after.resyncs = navigator.resyncs
      ∧ after.version = navigator.version.or (parts.findSome? Structure.version?) := by
  induction parts generalizing navigator with
  | nil =>
      refine ⟨_, .ends (nextPacket_of_tail stands), rfl, ?_⟩
      exact Option.or_none.symm
  | cons part parts inductionHypothesis =>
      rw [List.flatMap_cons, List.append_assoc] at stands
      have own := writable part List.mem_cons_self
      have toldAlike : navigator.version.or ((part :: parts).findSome? Structure.version?)
          = (navigator.version.or part.version?).or (parts.findSome? Structure.version?) := by
        rw [Option.or_assoc, List.findSome?_cons]
        cases part.version? <;> rfl
      have further : ∀ behind, IsBehind part navigator behind →
          ∃ after, Traverses behind (Program.packetsFrom behind.position parts) after
            ∧ after.resyncs = navigator.resyncs
            ∧ after.version
              = navigator.version.or ((part :: parts).findSome? Structure.version?) := by
        intro behind isBehind
        rw [toldAlike, ← isBehind.version, ← isBehind.resyncs]
        apply inductionHypothesis (isBehind.ahead stands)
        · exact fun other member => writable other (List.mem_cons_of_mem _ member)
        · intro other member told isTold
          rw [isBehind.version, ← toldAlike]
          exact agree other (List.mem_cons_of_mem _ member) told isTold
      by_cases isPacket : ∃ id body, part = .packet id body
      · obtain ⟨id, body, rfl⟩ := isPacket
        obtain ⟨packet, behind, found, skipped, isBehind⟩ := exists_isBehind_packet stands own
        obtain ⟨after, traverses, told⟩ := further behind isBehind
        rw [isBehind.position] at traverses
        exact ⟨after, .passes found skipped traverses, told⟩
      · have isHeader : ∀ id body, part ≠ .packet id body :=
          fun id body isPart => isPacket ⟨id, body, isPart⟩
        have agrees : ∀ told ∈ part.version?,
            navigator.version.or (some told) = some told := by
          intro told isTold
          have same := agree part List.mem_cons_self told isTold
          rw [List.findSome?_cons, isTold] at same
          exact same.symm
        obtain ⟨behind, isBehind, same⟩ := exists_isBehind_of_header stands own isHeader
          (head?_flatMap_toBytes parts hasEndCode) agrees
        obtain ⟨after, traverses, told⟩ := further behind isBehind
        rw [isBehind.position, ← packetsFrom_of_header isHeader] at traverses
        exact ⟨after, traverses.of_nextPacket_eq same, told⟩

end Structures

/-- A walk over a program comes upon its packets and then upon none, with no need
to look for a start code, and knows the version of the first pack header. -/
theorem exists_traverses_toBytes {program : Program} (writable : program.IsWritable) :
    ∃ after, (ofSource (Source.ofBytes program.toBytes)).Traverses program.packets after
      ∧ after.resyncs = 0
      ∧ after.version = program.version? := by
  have stands : (ofSource (Source.ofBytes program.toBytes)).ahead = program.toBytes := rfl
  exact exists_traverses stands writable.1 writable.2

/-- A program whose stuffing, map and packets are full of start codes. -/
def disguisedProgram : Program :=
  { structures := [
      .secondPack 0x44 [0, 0, 1, 0xBA, 0, 0, 1, 0xE0] 31 [0, 0, 1, 0xB9, 0, 0, 1],
      .systemHeader [0, 0, 1, 0xE0, 0, 0, 0, 1] [(0xE0, 0, 0), (0x80, 1, 0xBA), (0xC0, 0, 0)],
      .streamMap [0x80, 0, 0, 0, 0, 1, 0xE0],
      .packet 0xE0 [0, 0, 1, 0xE0, 0, 0],
      .secondPack 0x40 [0, 0, 1, 0xB9, 0, 0, 0, 1] 0 [],
      .packet 0x00 [],
      .packet 0xBD [0, 0, 1, 0xBA],
      .systemHeader [0, 0, 0, 0, 0, 0, 0, 1] []]
    hasEndCode := true }

theorem exists_traverses_disguisedProgram :
    ∃ after, (ofSource (Source.ofBytes disguisedProgram.toBytes)).Traverses
        [⟨0xE0, 55⟩, ⟨0x00, 81⟩, ⟨0xBD, 87⟩] after
      ∧ after.resyncs = 0
      ∧ after.version = some .mpeg2 := by
  have writable : disguisedProgram.IsWritable := by decide
  exact exists_traverses_toBytes writable

end Navigator

end MediaSplit.ProgramStream

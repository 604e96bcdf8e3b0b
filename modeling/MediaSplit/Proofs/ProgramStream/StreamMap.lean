import MediaSplit.ProgramStream.StreamMap.Form
import MediaSplit.Proofs.Source

/-!
Contract: what a program stream map announces.

Owns:
- `StreamMap.takeIn`, a list of entries taken in one after the other, and which
  codec each id has behind them;
- that a map is decoded as it was written, up to its last entry and no further,
  whatever follows it.

Does **not** own: where maps stand in a program, and maps that cannot be read to
their end.

Entries are taken in as they are read, so the outcome of a map is the outcome of
a list of entries, also where there is something wrong with the map.
-/

set_option autoImplicit false

namespace MediaSplit.ProgramStream.StreamMap

/-! ## Announcements -/

theorem lookup_filter_ne {id other : Nat} (differs : other ≠ id) (announced : List (Nat × Codec)) :
    (announced.filter (·.1 != id)).lookup other = announced.lookup other := by
  induction announced with
  | nil => rfl
  | cons first rest inductionHypothesis =>
      by_cases isId : first.1 = id
      · have isOther : (other == first.1) = false := by simp [isId, differs]
        rw [List.filter_cons_of_neg (by simp [isId]), inductionHypothesis, List.lookup_cons,
          isOther]
      · rw [List.filter_cons_of_pos (by simp [isId]), List.lookup_cons, List.lookup_cons,
          inductionHypothesis]

/-- An announcement of a known type stands for its own id and for no other. -/
theorem codec?_announce (map : StreamMap) (streamType id other : Nat) :
    (map.announce streamType id).codec? other
      = if isMapped other = true ∧ id = other then
          (codecOfType? streamType).or (map.codec? other)
        else map.codec? other := by
  unfold announce
  cases codecOfType? streamType with
  | none => simp
  | some codec =>
      by_cases mapped : isMapped id = true
      · dsimp only
        rw [if_pos mapped]
        unfold codec?
        rw [List.lookup_cons]
        by_cases same : id = other
        · subst same
          simp [mapped]
        · have isOther : (other == id) = false := by simp [Ne.symm same]
          rw [isOther, if_neg fun both => same both.2]
          exact lookup_filter_ne (Ne.symm same) map.announced
      · have differs : ¬ (isMapped other = true ∧ id = other) := by
          rintro ⟨isOther, rfl⟩
          exact mapped isOther
        dsimp only
        rw [if_neg mapped, if_neg differs]

/-- Entries taken in one after the other. -/
def takeIn (map : StreamMap) (entries : List Entry) : StreamMap :=
  entries.foldl (fun map entry => map.announce entry.streamType.toNat entry.id.toNat) map

theorem codecAfter?_cons (before : Option Codec) (id : Nat) (entry : Entry) (rest : List Entry) :
    codecAfter? before id (entry :: rest)
      = codecAfter?
          (if entry.id.toNat = id then (codecOfType? entry.streamType.toNat).or before else before)
          id rest := by
  unfold codecAfter?
  by_cases same : entry.id.toNat = id
  · cases known : codecOfType? entry.streamType.toNat with
    | none =>
        rw [List.filterMap_cons_none (by rw [if_pos same, known]), if_pos same, Option.none_or]
    | some codec =>
        rw [List.filterMap_cons_some (by rw [if_pos same, known]), if_pos same, Option.some_or,
          List.getLast?_cons, Option.some_or, Option.or_some]
  · rw [List.filterMap_cons_none (by rw [if_neg same]), if_neg same]

/-- Behind a list of entries, an id that can be announced has the codec of the
last entry for it whose type is known. -/
theorem codec?_takeIn (map : StreamMap) (entries : List Entry) (id : Nat) :
    (map.takeIn entries).codec? id
      = if isMapped id = true then codecAfter? (map.codec? id) id entries else map.codec? id := by
  induction entries generalizing map with
  | nil => exact (ite_self _).symm
  | cons entry rest inductionHypothesis =>
      show ((map.announce entry.streamType.toNat entry.id.toNat).takeIn rest).codec? id = _
      rw [inductionHypothesis, codec?_announce, codecAfter?_cons]
      by_cases mapped : isMapped id = true <;> simp [mapped]

theorem read_eq
    (map : StreamMap)
    {source : Source}
    {offset length : Nat}
    (field : source.numberAt? offset 2 = some length) :
    map.read source offset
      = some (offset + 2 + length, (map.announceBody source (offset + 2) length).2) := by
  unfold read
  rw [field]
  rfl

/-! ## Entries as written -/

theorem announceAll_zero (map : StreamMap) (source : Source) (offset : Nat) :
    map.announceAll source offset 0 = (.ok (), map) := by
  unfold announceAll
  rw [if_pos rfl]

section Source

variable {map : StreamMap} {source : Source} {offset remaining : Nat} {entry : Entry} {rest : Bytes}

theorem Entry.toBytes_eq (entry : Entry) :
    entry.toBytes = [entry.streamType, entry.id, UInt8.ofNat (entry.info.length / 256),
      UInt8.ofNat entry.info.length] ++ entry.info :=
  rfl

theorem Entry.length_toBytes (entry : Entry) :
    entry.toBytes.length = entryHeadSize + entry.info.length := by
  rw [toBytes_eq, List.length_append]
  rfl

/-- An entry that is there as a whole is passed over as a whole. -/
theorem announceAll_of_entry
    (stands : source.toBytes.drop offset = entry.toBytes ++ rest)
    (isShort : entry.info.length < 2 ^ 16)
    (fits : entry.toBytes.length ≤ remaining) :
    map.announceAll source offset remaining
      = (map.announce entry.streamType.toNat entry.id.toNat).announceAll source
          (offset + entry.toBytes.length) (remaining - entry.toBytes.length) := by
  have size : Bytes.toNumber (Bytes.ofNumber 2 entry.info.length) = entry.info.length :=
    Bytes.toNumber_ofNumber_of_lt isShort
  have head : source.bytesAt offset entryHeadSize = [entry.streamType, entry.id,
      UInt8.ofNat (entry.info.length / 256), UInt8.ofNat entry.info.length] := by
    rw [Source.bytesAt_eq_slice, Bytes.slice, stands, Entry.toBytes_eq, List.append_assoc]
    rfl
  have length := entry.length_toBytes
  rw [length] at fits ⊢
  conv => lhs; unfold announceAll
  rw [if_neg (by simp only [entryHeadSize] at fits; omega), head]
  have whole : min (Bytes.toNumber [UInt8.ofNat (entry.info.length / 256),
      UInt8.ofNat entry.info.length]) remaining = entry.info.length :=
    (congrArg (min · remaining) size).trans (Nat.min_eq_left (Nat.le_of_add_left_le fits))
  dsimp only
  rw [whole]

/-- Entries that fill their room are taken in to the last one. -/
theorem announceAll_of_entries
    {entries : List Entry}
    (stands : source.toBytes.drop offset = entries.flatMap Entry.toBytes ++ rest)
    (areShort : ∀ entry ∈ entries, entry.info.length < 2 ^ 16) :
    map.announceAll source offset (entries.flatMap Entry.toBytes).length
      = (.ok (), map.takeIn entries) := by
  induction entries generalizing map offset with
  | nil =>
      exact announceAll_zero map source offset
  | cons entry entries inductionHypothesis =>
      rw [List.flatMap_cons, List.append_assoc] at stands
      have behind := Source.drop_of_drop stands
      rw [List.flatMap_cons, List.length_append,
        announceAll_of_entry stands (areShort entry List.mem_cons_self) (Nat.le_add_right _ _),
        Nat.add_sub_cancel_left]
      exact inductionHypothesis behind fun other member =>
        areShort other (List.mem_cons_of_mem _ member)

end Source

/-! ## Maps as written -/

section Written

variable {map : StreamMap} {source : Source} {form : Form} {offset : Nat} {rest : Bytes}

theorem Form.length_eq (writable : form.IsWritable) :
    form.length = 10 + form.info.length + form.entryBytes.length := by
  unfold Form.length
  rw [writable.1]
  simp only [Form.headSize, Form.checkSize]
  omega

theorem Form.length_toBytes (form : Form) : form.toBytes.length = 2 + form.length := by
  simp only [Form.toBytes, Form.length, Form.headSize, Bytes.withLength, List.length_append,
    Bytes.length_ofNumber, List.length_singleton]
  omega

/-- The entries of a written map are found where they stand, and the room for
them is not cut short. -/
theorem entryRange_of_written
    (stands : source.toBytes.drop offset = form.toBytes ++ rest)
    (writable : form.IsWritable) :
    source.numberAt? offset 2 = some form.length
      ∧ entryRange source (offset + 2) form.length
        = .ok (offset + 8 + form.info.length, form.entryBytes.length)
      ∧ source.toBytes.drop (offset + 8 + form.info.length)
        = form.entryBytes ++ (form.check ++ rest) := by
  have whole := form.length_eq writable
  have short : form.length ≤ 1018 := writable.2
  simp only [Form.toBytes, Bytes.withLength, List.append_assoc] at stands
  obtain ⟨lengthField, atMarker⟩ :=
    Source.numberAt?_of_written stands (by decide) (by omega)
  have marker : source.byteAt? (offset + 2) = some (2 ^ 7 + form.version % 2 ^ 7) := by
    rw [Source.byteAt?_eq_head?, atMarker]
    show some (UInt8.ofNat (2 ^ 7 + form.version % 2 ^ 7)).toNat = _
    rw [UInt8.toNat_ofNat', Nat.mod_eq_of_lt (by omega)]
  obtain ⟨-, atSpare⟩ := Source.numberAt?_of_written atMarker (by decide) (by omega)
  obtain ⟨infoField, atInfo⟩ :=
    Source.numberAt?_of_written (Source.drop_of_drop atSpare) (by decide) (by omega)
  obtain ⟨entryField, atEntries⟩ :=
    Source.numberAt?_of_written (Source.drop_of_drop atInfo) (by decide) (by omega)
  rw [List.length_singleton] at infoField atInfo entryField atEntries
  have isLast : offset + 2 + 1 + 1 + 2 + form.info.length + 2 = offset + 8 + form.info.length := by
    omega
  have start : offset + 2 + 6 + form.info.length = offset + 8 + form.info.length := by omega
  have room : min form.entryBytes.length (form.length - form.info.length - fixedSize)
      = form.entryBytes.length := by
    unfold fixedSize
    omega
  refine ⟨lengthField, ?_, isLast ▸ atEntries⟩
  unfold entryRange
  have inRange : (decide (form.length = 0) || decide (form.length > maxLength)) = false := by
    unfold maxLength
    simp only [Bool.or_eq_false_iff, decide_eq_false_iff_not]
    omega
  rw [inRange, if_neg Bool.false_ne_true, marker]
  dsimp only
  rw [if_neg (by omega), show source.numberAt? (offset + 2 + 2) 2 = _ from infoField]
  dsimp only
  rw [show source.numberAt? (offset + 2 + 4 + form.info.length) 2 = _ from entryField]
  dsimp only
  rw [start, room]

/-- **A written map is decoded as a whole**: each id has the codec of the last
entry for it whose type is known, and keeps its own where there is none. -/
theorem exists_read_toBytes
    (map : StreamMap)
    (stands : source.toBytes.drop offset = form.toBytes ++ rest)
    (writable : form.IsWritable) :
    ∃ after, map.read source offset = some (offset + form.toBytes.length, after)
      ∧ (map.announceBody source (offset + 2) form.length).1 = .ok ()
      ∧ ∀ id, 0xB0 ≤ id → id ≤ 0xEF →
          after.codec? id = codecAfter? (map.codec? id) id form.entries := by
  obtain ⟨lengthField, range, atEntries⟩ := entryRange_of_written stands writable
  have areShort : ∀ entry ∈ form.entries, entry.info.length < 2 ^ 16 := by
    intro entry member
    have inside : entry.toBytes.length ≤ form.entryBytes.length := by
      rw [Form.entryBytes, List.flatMap_def]
      exact (List.sublist_flatten_of_mem (List.mem_map_of_mem member)).length_le
    have length := entry.length_toBytes
    have whole := form.length_eq writable
    have short : form.length ≤ 1018 := writable.2
    omega
  have taken : map.announceBody source (offset + 2) form.length
      = (.ok (), map.takeIn form.entries) := by
    unfold announceBody
    rw [range]
    exact announceAll_of_entries atEntries areShort
  refine ⟨map.takeIn form.entries, ?_, congrArg Prod.fst taken, ?_⟩
  · rw [read_eq map lengthField, taken, form.length_toBytes, Nat.add_assoc]
  · intro id first last
    have mapped : isMapped id = true := by
      unfold isMapped
      simp [first, last]
    rw [codec?_takeIn, if_pos mapped]

end Written

/-- A map with an id that is announced three times, the last time with an unknown
type, with an id out of range, and with info and a check word that look like
entries. -/
def disguisedMap : Form :=
  { version := 3
    spare := 0xFF
    info := [0x02, 0xE1, 0x00, 0x00]
    entries := [
      ⟨0x02, 0xE0, [0x02, 0xE1, 0x00, 0x00]⟩,
      ⟨0x81, 0xBD, []⟩,
      ⟨0x1B, 0xE0, [0xFF]⟩,
      ⟨0x77, 0xE0, []⟩,
      ⟨0x03, 0xF0, []⟩]
    check := [0x02, 0xE1, 0x00, 0x00] }

theorem exists_read_disguisedMap :
    disguisedMap.IsWritable ∧ ∃ after,
      StreamMap.read ⟨[(0xC0, .aac), (0xE0, .mp2)]⟩
          (Source.ofBytes ([0xAB] ++ disguisedMap.toBytes ++ [0x02, 0xE1, 0x00, 0x00])) 1
        = some (42, after)
      ∧ after.codec? 0xE0 = some .avc
      ∧ after.codec? 0xBD = some .ac3
      ∧ after.codec? 0xC0 = some .aac
      ∧ after.codec? 0xE1 = none := by
  have writable : disguisedMap.IsWritable := ⟨rfl, by decide⟩
  have stands : (Source.ofBytes ([0xAB] ++ disguisedMap.toBytes
      ++ [0x02, 0xE1, 0x00, 0x00])).toBytes.drop 1
        = disguisedMap.toBytes ++ [0x02, 0xE1, 0x00, 0x00] :=
    rfl
  obtain ⟨after, read, -, announced⟩ :=
    exists_read_toBytes ⟨[(0xC0, .aac), (0xE0, .mp2)]⟩ stands writable
  refine ⟨writable, after, read, ?_, ?_, ?_, ?_⟩
  · exact announced 0xE0 (by decide) (by decide)
  · exact announced 0xBD (by decide) (by decide)
  · exact announced 0xC0 (by decide) (by decide)
  · exact announced 0xE1 (by decide) (by decide)

end MediaSplit.ProgramStream.StreamMap

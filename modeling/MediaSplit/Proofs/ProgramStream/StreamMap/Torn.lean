import MediaSplit.Proofs.ProgramStream.StreamMap

/-!
Contract: program stream maps that cannot be read to their end.

Owns:
- `StreamMap.EndsWithin`, a source that ends within an entry, and
  `StreamMap.begun`, the entries of which enough is there to be taken in;
- `StreamMap.BreaksOff`, why a map cannot be read to its end and which entries
  have been begun by then;
- that such a map is passed over, and that just those entries have been taken in.

Does **not** own: maps as they are written.

An entry is taken in by its first two bytes, before its info is looked at. So
what is said of a map that ends in an entry counts the bytes that are there of
that entry.
-/

set_option autoImplicit false

namespace MediaSplit.ProgramStream.StreamMap

/-! ## Entries that break off -/

/-- The bytes begin an entry and end before it does. -/
def BreaksOffIn (cut : Bytes) (last : Entry) : Prop :=
  ∃ lost, lost ≠ [] ∧ last.toBytes = cut ++ lost

/-- From `offset` to its end, the source holds entries and the beginning of one
more. -/
structure EndsWithin
    (source : Source)
    (offset : Nat)
    (entries : List Entry)
    (cut : Bytes)
    (last : Entry) : Prop where
  held : source.toBytes.drop offset = entries.flatMap Entry.toBytes ++ cut
  breaksOff : BreaksOffIn cut last

/-- The entries of which both the stream type and the id are there. -/
def begun (entries : List Entry) (cut : Bytes) (last : Entry) : List Entry :=
  if 2 ≤ cut.length then entries ++ [last] else entries

theorem takeIn_begun_cons
    (map : StreamMap)
    (entry : Entry)
    (entries : List Entry)
    (cut : Bytes)
    (last : Entry) :
    map.takeIn (begun (entry :: entries) cut last)
      = (map.announce entry.streamType.toNat entry.id.toNat).takeIn (begun entries cut last) := by
  unfold begun
  split <;> rfl

section Broken

variable
  {map after : StreamMap}
  {source : Source}
  {offset length remaining : Nat}
  {error : Error}
  {streamType id high low : UInt8}
  {entries : List Entry}
  {cut info : Bytes}
  {last : Entry}

theorem Entry.toBytes_of_size (size : info.length = Bytes.toNumber [high, low]) :
    toBytes ⟨streamType, id, info⟩ = [streamType, id, high, low] ++ info := by
  have field : [high, low] = Bytes.ofNumber 2 info.length := Bytes.eq_ofNumber rfl size.symm
  show [streamType, id] ++ (Bytes.ofNumber 2 info.length ++ info) = _
  rw [← field]
  rfl

/-- Fewer bytes than an entry has before its info begin an entry. -/
theorem exists_breaksOffIn_of_short {cut : Bytes} (short : cut.length < entryHeadSize) :
    ∃ last, BreaksOffIn cut last := by
  match cut, short with
  | [], _ => exact ⟨default, _, List.cons_ne_nil _ _, rfl⟩
  | [streamType], _ => exact ⟨⟨streamType, 0, []⟩, _, List.cons_ne_nil _ _, rfl⟩
  | [streamType, id], _ => exact ⟨⟨streamType, id, []⟩, _, List.cons_ne_nil _ _, rfl⟩
  | [streamType, id, high], _ =>
      let info : Bytes := List.replicate (Bytes.toNumber [high, 0]) 0
      have size : info.length = Bytes.toNumber [high, 0] := List.length_replicate
      exact ⟨⟨streamType, id, info⟩, 0 :: info, List.cons_ne_nil _ _, Entry.toBytes_of_size size⟩

/-- An entry of which two bytes are there is known by them. -/
theorem BreaksOffIn.takeIn_begun
    (breaksOff : BreaksOffIn (streamType :: id :: cut) last)
    (map : StreamMap) :
    map.takeIn (begun [] (streamType :: id :: cut) last)
      = map.announce streamType.toNat id.toNat := by
  obtain ⟨lost, -, whole⟩ := breaksOff
  obtain ⟨isType, isRest⟩ := List.cons.inj (whole : last.streamType :: last.id :: _ = _)
  have isId : last.id = id := (List.cons.inj isRest).1
  have isBegun : begun [] (streamType :: id :: cut) last = [last] := if_pos (Nat.le_add_left _ _)
  rw [isBegun, ← isType, ← isId]
  rfl

theorem EndsWithin.behind_entry
    (ends : EndsWithin source (offset + (entryHeadSize + Bytes.toNumber [high, low])) entries cut
      last)
    (head : source.bytesAt offset entryHeadSize = [streamType, id, high, low])
    (isWhole : entryHeadSize + Bytes.toNumber [high, low] ≤ source.size - offset) :
    ∃ info, EndsWithin source offset (⟨streamType, id, info⟩ :: entries) cut last := by
  refine ⟨source.bytesAt (offset + entryHeadSize) (Bytes.toNumber [high, low]), ?_, ends.breaksOff⟩
  have size : (source.bytesAt (offset + entryHeadSize) (Bytes.toNumber [high, low])).length
      = Bytes.toNumber [high, low] := by
    rw [Source.length_bytesAt]
    omega
  rw [List.flatMap_cons, Entry.toBytes_of_size size, ← head, ← Source.bytesAt_add,
    List.append_assoc, ← ends.held, Source.bytesAt_append_drop]

theorem EndsWithin.of_cutInfo
    (head : source.bytesAt offset entryHeadSize = [streamType, id, high, low])
    (isCut : source.size - offset < entryHeadSize + Bytes.toNumber [high, low]) :
    ∃ cut last, EndsWithin source offset [] (streamType :: id :: cut) last := by
  have enough := congrArg List.length head
  rw [Source.length_bytesAt] at enough
  change min entryHeadSize (source.size - offset) = entryHeadSize at enough
  let present := source.toBytes.drop (offset + entryHeadSize)
  let lost : Bytes := List.replicate (Bytes.toNumber [high, low] - present.length) 0
  have here : present.length = source.size - offset - entryHeadSize := by
    rw [List.length_drop, ← Source.size_eq_length]
    omega
  have size : (present ++ lost).length = Bytes.toNumber [high, low] := by
    rw [List.length_append, List.length_replicate]
    omega
  refine ⟨high :: low :: present, ⟨streamType, id, present ++ lost⟩, ?_, lost, ?_, ?_⟩
  · rw [← source.bytesAt_append_drop offset entryHeadSize, head]
    rfl
  · apply List.ne_nil_of_length_pos
    rw [List.length_replicate]
    omega
  · rw [Entry.toBytes_of_size size]
    rfl

theorem EndsWithin.of_short
    (short : (source.bytesAt offset entryHeadSize).length < entryHeadSize) :
    ∃ last, EndsWithin source offset [] (source.bytesAt offset entryHeadSize) last := by
  obtain ⟨last, breaksOff⟩ := exists_breaksOffIn_of_short short
  exact ⟨last, (source.bytesAt_of_short short).symm, breaksOff⟩

/-- Where nothing is left of the source, no entry is begun. -/
theorem EndsWithin.takeIn_begun_of_end
    (ends : EndsWithin source offset entries cut last)
    (atEnd : source.size ≤ offset)
    (map : StreamMap) :
    map.takeIn (begun entries cut last) = map := by
  have nothing : entries.flatMap Entry.toBytes ++ cut = [] := by
    rw [← ends.held, List.drop_eq_nil_iff, ← Source.size_eq_length]
    exact atEnd
  obtain ⟨noEntries, rfl⟩ := List.append_eq_nil_iff.1 nothing
  cases entries with
  | nil => rfl
  | cons entry rest => cases noEntries

/-- Entries that the source does not hold to their end have been taken in as far
as they were begun. -/
theorem exists_begun_of_error
    (failed : map.announceAll source offset remaining = (.error error, after)) :
    error = cutOff ∧ ∃ entries cut last, EndsWithin source offset entries cut last
      ∧ after = map.takeIn (begun entries cut last) := by
  fun_induction announceAll map source offset remaining with
  | case1 => cases failed
  | case2 map offset remaining isLeft streamType id high low head size inductionHypothesis =>
      -- the info cannot fill the room, or the reading would have ended
      have isRoom : Bytes.toNumber [high, low] < remaining := by
        apply Nat.lt_of_not_le
        intro all
        have nothing : remaining - size = 0 := by
          show remaining - (entryHeadSize + min (Bytes.toNumber [high, low]) remaining) = 0
          omega
        rw [nothing, announceAll_zero] at failed
        cases failed
      have isSize : size = entryHeadSize + Bytes.toNumber [high, low] :=
        congrArg (entryHeadSize + ·) (Nat.min_eq_left (Nat.le_of_lt isRoom))
      obtain ⟨isCutOff, entries, cut, last, ends, taken⟩ := inductionHypothesis failed
      rw [isSize] at ends
      by_cases isWhole : entryHeadSize + Bytes.toNumber [high, low] ≤ source.size - offset
      · obtain ⟨info, held⟩ := ends.behind_entry head isWhole
        exact ⟨isCutOff, _, cut, last, held, by rw [taken, takeIn_begun_cons]⟩
      · -- nothing stands behind the info, so this entry is the one that breaks off
        obtain ⟨cut', last', held⟩ := EndsWithin.of_cutInfo head (Nat.lt_of_not_le isWhole)
        refine ⟨isCutOff, [], _, last', held, ?_⟩
        rw [held.breaksOff.takeIn_begun map, taken]
        exact ends.takeIn_begun_of_end (by omega) _
  | case3 map offset remaining isLeft streamType id tail notWhole head =>
      cases failed
      have short : (source.bytesAt offset entryHeadSize).length < entryHeadSize := by
        apply Nat.lt_of_le_of_ne
        · rw [Source.length_bytesAt]
          exact Nat.min_le_left _ _
        · rw [head]
          intro isFour
          match tail, Nat.add_right_cancel isFour with
          | [high, low], _ => exact notWhole high low rfl
      obtain ⟨last, ends⟩ := EndsWithin.of_short short
      rw [head] at ends
      exact ⟨rfl, [], _, last, ends, (ends.breaksOff.takeIn_begun map).symm⟩
  | case4 map offset remaining isLeft noEntry notBegun =>
      cases failed
      have isShort : (source.bytesAt offset entryHeadSize).length < 2 := by
        match head : source.bytesAt offset entryHeadSize with
        | [] => exact Nat.two_pos
        | [streamType] => exact Nat.one_lt_two
        | streamType :: id :: tail => exact absurd head (notBegun streamType id tail)
      obtain ⟨last, ends⟩ := EndsWithin.of_short (Nat.lt_trans isShort (by decide))
      have isNone : begun [] (source.bytesAt offset entryHeadSize) last = [] :=
        if_neg (Nat.not_le.2 isShort)
      exact ⟨rfl, [], _, last, ends, by rw [isNone]; rfl⟩

/-! ## Maps that break off -/

/-- Why a map of this length, whose length field is at `offset`, cannot be read to
its end, and which entries have been begun by then. -/
inductive BreaksOff (source : Source) (offset length : Nat) : Error → List Entry → Prop
  | badLength (outOfRange : length = 0 ∨ maxLength < length) :
      BreaksOff source offset length (.invalidMap ("length " ++ toString length ++ " out of range"))
        []
  | notInForce {marker : Nat} (present : source.byteAt? (offset + 2) = some marker)
      (clear : marker < 0x80) :
      BreaksOff source offset length (.invalidMap "current_next_indicator not set") []
  | cutBeforeEntries
      (isCut : source.size < offset + 6 ∨ ∃ infoSize,
        source.numberAt? (offset + 4) 2 = some infoSize ∧ source.size < offset + 8 + infoSize) :
      BreaksOff source offset length cutOff []
  | cutInEntries {infoSize : Nat} {entries : List Entry} {cut : Bytes} {last : Entry}
      (infoField : source.numberAt? (offset + 4) 2 = some infoSize)
      (ends : EndsWithin source (offset + 8 + infoSize) entries cut last) :
      BreaksOff source offset length cutOff (begun entries cut last)

/-- What is wrong before the first entry leaves no entry begun, and otherwise the
entries start behind the program info. -/
theorem entryRange_cases (source : Source) (offset length : Nat) :
    match entryRange source (offset + 2) length with
    | .error error => BreaksOff source offset length error []
    | .ok (start, _) =>
        ∃ infoSize, source.numberAt? (offset + 4) 2 = some infoSize
          ∧ start = offset + 8 + infoSize := by
  unfold entryRange
  by_cases outOfRange : length = 0 ∨ maxLength < length
  · rw [if_pos (by simpa using outOfRange)]
    exact .badLength outOfRange
  rw [if_neg (by simpa using outOfRange)]
  cases present : source.byteAt? (offset + 2) with
  | none =>
      have isShort := Source.size_le_of_byteAt?_eq_none present
      exact .cutBeforeEntries (.inl (by omega))
  | some marker =>
  dsimp only
  by_cases clear : marker < 0x80
  · rw [if_pos clear]
    exact .notInForce present clear
  rw [if_neg clear]
  cases infoField : source.numberAt? (offset + 2 + 2) 2 with
  | none =>
      have isShort := Source.numberAt?_eq_none_iff.1 infoField
      exact .cutBeforeEntries (.inl (by omega))
  | some infoSize =>
  dsimp only
  cases entryField : source.numberAt? (offset + 2 + 4 + infoSize) 2 with
  | none =>
      have isShort := Source.numberAt?_eq_none_iff.1 entryField
      exact .cutBeforeEntries (.inr ⟨infoSize, infoField, by omega⟩)
  | some size => exact ⟨infoSize, rfl, by omega⟩

/-- **A map that cannot be read to its end** is passed over by its length field,
and just the entries begun before its end have been taken in. -/
theorem exists_breaksOff_of_error
    (field : source.numberAt? offset 2 = some length)
    (broken : (map.announceBody source (offset + 2) length).1 = .error error) :
    ∃ after entries, map.read source offset = some (offset + 2 + length, after)
      ∧ BreaksOff source offset length error entries
      ∧ ∀ id, after.codec? id
          = if 0xB0 ≤ id ∧ id ≤ 0xEF then codecAfter? (map.codec? id) id entries
            else map.codec? id := by
  obtain ⟨entries, breaksOff, taken⟩ :
      ∃ entries, BreaksOff source offset length error entries
        ∧ (map.announceBody source (offset + 2) length).2 = map.takeIn entries := by
    have head := entryRange_cases source offset length
    unfold announceBody at broken ⊢
    rcases found : entryRange source (offset + 2) length with reason | ⟨start, size⟩
    · rw [found] at head broken
      cases broken
      exact ⟨[], head, rfl⟩
    · rw [found] at head broken
      obtain ⟨infoSize, infoField, rfl⟩ := head
      obtain ⟨rfl, entries, cut, last, ends, taken⟩ :=
        exists_begun_of_error (Prod.ext broken rfl)
      exact ⟨_, .cutInEntries infoField ends, taken⟩
  refine ⟨map.takeIn entries, entries, ?_, breaksOff, ?_⟩
  · rw [read_eq map field, taken]
  · intro id
    rw [codec?_takeIn]
    unfold isMapped
    simp only [Bool.and_eq_true, decide_eq_true_eq]

end Broken

/-- A map of three entries that ends inside the second one. -/
def tornMap : Source :=
  Source.ofBytes
    [0x00, 0x16, 0x80, 0x01, 0x00, 0x00, 0x00, 0x0C, 0x02, 0xE0, 0x00, 0x00, 0x81, 0xBD]

theorem exists_breaksOff_tornMap :
    tornMap.numberAt? 0 2 = some 22
      ∧ (empty.announceBody tornMap 2 22).1 = .error cutOff
      ∧ ∃ after entries, empty.read tornMap 0 = some (24, after)
        ∧ BreaksOff tornMap 0 22 cutOff entries
        ∧ ∀ id, after.codec? id
            = if 0xB0 ≤ id ∧ id ≤ 0xEF then codecAfter? (empty.codec? id) id entries
              else empty.codec? id := by
  have field : tornMap.numberAt? 0 2 = some 22 := by decide +kernel
  have broken : (empty.announceBody tornMap 2 22).1 = .error cutOff := by
    have evaluated : (match (empty.announceBody tornMap 2 22).1 with
        | .error error => some error
        | .ok _ => none) = some cutOff := by
      decide +kernel
    split at evaluated
    next isError =>
      rw [isError]
      exact congrArg _ (Option.some.inj evaluated)
    next => cases evaluated
  exact ⟨field, broken, exists_breaksOff_of_error field broken⟩

/-- A map that cannot be read to its end is not passed over without a trace: the
torn map has announced two streams. -/
theorem not_unannounced_tornMap :
    ¬ ∀ (map : StreamMap) (source : Source) (offset length : Nat) (error : Error),
        source.numberAt? offset 2 = some length →
        (map.announceBody source (offset + 2) length).1 = .error error →
        ∃ after, map.read source offset = some (offset + 2 + length, after)
          ∧ ∀ id, after.codec? id = map.codec? id := by
  intro unannounced
  have field : tornMap.numberAt? 0 2 = some 22 := by decide +kernel
  have broken : (empty.announceBody tornMap 2 22).1.toOption = none := by decide +kernel
  have taken : empty.read tornMap 0 = some (24, ⟨[(0xBD, .ac3), (0xE0, .mpeg2Video)]⟩) := by
    decide +kernel
  cases reason : (empty.announceBody tornMap 2 22).1 with
  | ok done =>
      rw [reason] at broken
      cases broken
  | error error =>
      obtain ⟨after, read, same⟩ := unannounced empty tornMap 0 22 error field reason
      cases taken.symm.trans read
      exact absurd (same 0xE0) (by decide)

end MediaSplit.ProgramStream.StreamMap

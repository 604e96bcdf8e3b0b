import MediaSplit.Schedule

/-!
Contract: which texts are schedules of frame ranges, and of which ranges.

Owns:
- `Schedule.IsFile`, what such a text says line by line;
- `ofBytes_of_isFile` and `isFile_of_ofBytes`: these texts and no others become
  schedules of frame ranges, each that of its data lines;
- what is known of the numbers in a text that is accepted.
-/

set_option autoImplicit false

namespace MediaSplit.Schedule

/-- Whether lines give a default rate and data lines, all of which can be read. -/
structure AreLines (lines : Lines) (rate : Float) (dataLines : List NumberedLine) : Prop where
  exists_rest : ∃ rest, lines.readDefaultRate false = (.ok rate, rest)
    ∧ rest.dataLines = (dataLines, none)
  nonempty : entriesOf Range.read dataLines ≠ []

/-- Whether a file of format version 1 gives a default rate and data lines. -/
def IsFile (lines : Lines) (rate : Float) (dataLines : List NumberedLine) : Prop :=
  ∃ first after, lines.next = (.ok (some first), after)
    ∧ Lines.formatVersion? first.text = some (some 1)
    ∧ AreLines after rate dataLines

/-- The schedule of data lines. -/
def ofDataLines (rate : Float) (dataLines : List NumberedLine) : FrameRanges :=
  .arrange rate (entriesOf Range.read dataLines)

section Load

variable {lines : Lines} {schedule : FrameRanges} {rate : Float} {dataLines : List NumberedLine}
variable {warnings : List Warning}

theorem load_of_areLines (are : AreLines lines rate dataLines) :
    FrameRanges.load lines
      = (.ok (ofDataLines rate dataLines), warningsOf Range.read dataLines) := by
  obtain ⟨⟨rest, readsRate, readsData⟩, nonempty⟩ := are
  unfold FrameRanges.load
  rw [readsRate]
  dsimp only
  unfold loadEntries FrameRanges.build
  rw [readsData]
  dsimp only
  rw [if_neg (by simpa using nonempty)]
  dsimp only
  rw [List.append_nil]
  rfl

theorem areLines_of_load (loaded : FrameRanges.load lines = (.ok schedule, warnings)) :
    ∃ rate dataLines, AreLines lines rate dataLines ∧ schedule = ofDataLines rate dataLines := by
  unfold FrameRanges.load at loaded
  split at loaded
  next => cases loaded
  next rate rest readsRate =>
    unfold loadEntries FrameRanges.build at loaded
    cases readsData : rest.dataLines with
    | mk dataLines fault =>
        rw [readsData] at loaded
        cases fault with
        | some fault => cases loaded
        | none =>
            dsimp only at loaded
            split at loaded
            next => cases loaded
            next nonempty =>
              obtain rfl := Except.ok.inj (Prod.mk.inj loaded).1
              refine ⟨rate, dataLines, ⟨⟨rest, readsRate, readsData⟩, ?_⟩, rfl⟩
              simpa using nonempty

theorem exists_of_as
    {α : Type}
    {kind : α → Schedule}
    {entries : Loaded α}
    {result : Schedule}
    (loaded : entries.as kind = (.ok result, warnings)) :
    ∃ value, entries = (.ok value, warnings) ∧ kind value = result := by
  obtain ⟨outcome, entryWarnings⟩ := entries
  cases outcome with
  | error error => cases loaded
  | ok value =>
      cases loaded
      exact ⟨value, rfl, rfl⟩

theorem ofBytes_of_isFile
    {name : String}
    {bytes : Bytes}
    (isFile : IsFile (.ofBytes name bytes) rate dataLines) :
    ofBytes name bytes
      = (.ok (.frameRanges (ofDataLines rate dataLines)), warningsOf Range.read dataLines) := by
  obtain ⟨first, after, readsFirst, isFirst, are⟩ := isFile
  unfold ofBytes load
  rw [readsFirst]
  dsimp only
  rw [Option.bind_some, isFirst]
  show (FrameRanges.load after).as frameRanges = _
  rw [load_of_areLines are]
  rfl

theorem isFile_of_ofBytes
    {name : String}
    {bytes : Bytes}
    (loaded : ofBytes name bytes = (.ok (.frameRanges schedule), warnings)) :
    ∃ rate dataLines, IsFile (.ofBytes name bytes) rate dataLines
      ∧ schedule = ofDataLines rate dataLines := by
  unfold ofBytes load at loaded
  split at loaded
  next => cases loaded
  next first after readsFirst =>
    split at loaded
    next version isVersion =>
      unfold loadVersion at loaded
      split at loaded
      next isFirst =>
        obtain ⟨_, loadedRanges, same⟩ := exists_of_as loaded
        cases same
        obtain ⟨rate, dataLines, are, rfl⟩ := areLines_of_load loadedRanges
        subst isFirst
        cases first with
        | none => cases isVersion
        | some first => exact ⟨rate, dataLines, ⟨first, after, readsFirst, isVersion, are⟩, rfl⟩
      next =>
        split at loaded
        next =>
          obtain ⟨_, -, same⟩ := exists_of_as loaded
          cases same
        next =>
          split at loaded
          next =>
            obtain ⟨_, -, same⟩ := exists_of_as loaded
            cases same
          next => cases loaded
    next => cases loaded

end Load

/-! ## What is read is in range -/

theorem integer?_le {text : List Char} {number : Int} (reads : Text.integer? text = some number) :
    number ≤ greatest := by
  have fits := (Option.filter_eq_some_iff.1 reads).2
  simp only [Bool.and_eq_true, decide_eq_true_eq] at fits
  exact Int.le_sub_one_of_lt fits.2

theorem readDefaultRate_pos
    {lines rest : Lines}
    {rate : Float}
    (reads : lines.readDefaultRate false = (.ok rate, rest)) :
    0.0 < rate := by
  unfold Lines.readDefaultRate at reads
  split at reads
  next => cases reads
  next line after readsLine =>
    split at reads
    next => cases reads
    next named isNamed =>
      split at reads
      next above =>
        obtain rfl := Except.ok.inj (Prod.mk.inj reads).1
        simpa using above
      next => cases reads

theorem Range.lastFrame_le_of_parse?
    {line : List Char}
    {range : Range}
    (parses : Range.parse? line = some range) :
    range.lastFrame ≤ greatest := by
  unfold Range.parse? at parses
  split at parses
  next first last rate fields =>
    obtain ⟨firstFrame, -, parses⟩ := Option.bind_eq_some_iff.1 parses
    obtain ⟨lastFrame, readsLast, parses⟩ := Option.bind_eq_some_iff.1 parses
    obtain ⟨rate, -, parses⟩ := Option.bind_eq_some_iff.1 parses
    obtain rfl := Option.some.inj parses
    exact integer?_le readsLast
  next => cases parses

/-- Ranges that a file gives make sense. -/
theorem Range.of_mem_entriesOf
    {dataLines : List NumberedLine}
    {range : Range}
    (member : range ∈ entriesOf Range.read dataLines) :
    range.isInconsistent = false ∧ range.lastFrame ≤ greatest := by
  obtain ⟨line, -, reads⟩ := List.mem_filterMap.1 member
  unfold Range.read at reads
  split at reads
  next => cases reads
  next parsed parses =>
    split at reads
    next => cases reads
    next consistent =>
      obtain rfl := Option.some.inj reads
      exact ⟨eq_false_of_ne_true consistent, lastFrame_le_of_parse? parses⟩

end MediaSplit.Schedule

import MediaSplit.Proofs.Schedule.Lines
import MediaSplit.Proofs.Schedule.Loading

/-!
Contract: every data line of a schedule file is used or reported.

Owns:
- `Schedule.Yields`, data lines of which each gives one entry or one warning
  that names it;
- `Schedule.IsAccountedFor`, which every schedule is that has been read from a
  text: its entries and its warnings are all that the data lines give.

Does **not** own: which lines can be read, and what becomes of an entry. A frame
range may be covered by earlier ones and then takes no part in the schedule,
though it has been used.
-/

set_option autoImplicit false

namespace MediaSplit.Schedule

/-- Data lines of which each has given an entry, or a warning with its number.
Both kinds stand in the order of their lines. -/
inductive Yields {α : Type} (read : List Char → LineResult α) :
    List NumberedLine → List α → List Warning → Prop
  | nil : Yields read [] [] []
  | entry {line : NumberedLine} {value : α} {lines : List NumberedLine} {values : List α}
      {warnings : List Warning}
      (reads : read line.text = .ok value)
      (later : Yields read lines values warnings) :
      Yields read (line :: lines) (value :: values) warnings
  | warning {line : NumberedLine} {reason : String} {lines : List NumberedLine}
      {values : List α} {warnings : List Warning}
      (refuses : read line.text = .error reason)
      (later : Yields read lines values warnings) :
      Yields read (line :: lines) values (⟨some line.number, reason⟩ :: warnings)

/-- Lines that begin with a format line of this version and have these data lines
behind it. -/
def IsHeaded (lines : List NumberedLine) (version : Int) (dataLines : List NumberedLine) : Prop :=
  ∃ header behind, lines = header :: behind
    ∧ Lines.formatVersion? header.text = some (some version)
    ∧ dataLines = behind.filter Lines.isData

/-- Lines of which the first data line names the default rate. -/
def IsRated (lines : List NumberedLine) (version : Int) (rate : Float)
    (dataLines : List NumberedLine) : Prop :=
  ∃ rateLine, IsHeaded lines version (rateLine :: dataLines)
    ∧ Lines.defaultRate? rateLine.text = some rate

/-- A schedule of the entries that the data lines have given, with the warnings
for the others. Timestamps are sorted, and may lack entries, which calls for a
remark that names no line. Durations have one more entry, of open length, behind
those of the lines. -/
inductive Accounts (lines : List NumberedLine) : Schedule → List Warning → Prop
  | frameRanges {rate : Float} {dataLines : List NumberedLine} {ranges : List Range}
      {warnings : List Warning}
      (isRated : IsRated lines 1 rate dataLines)
      (yields : Yields Range.read dataLines ranges warnings) :
      Accounts lines (.frameRanges (.arrange rate ranges)) warnings
  | timestamps {dataLines : List NumberedLine} {timecodes : List Int}
      {warnings remarks : List Warning}
      (isHeaded : IsHeaded lines 2 dataLines)
      (yields : Yields Timestamps.read dataLines timecodes warnings)
      (namesNone : ∀ remark ∈ remarks, timecodes = [] ∧ remark.line = none)
      (perm : (Timestamps.ofTimecodes timecodes).timecodes.toList.Perm timecodes) :
      Accounts lines (.timestamps (.ofTimecodes timecodes)) (warnings ++ remarks)
  | durations {rate : Float} {dataLines : List NumberedLine} {spans : List Span}
      {warnings : List Warning}
      (isRated : IsRated lines 3 rate dataLines)
      (yields : Yields (Span.read rate) dataLines spans warnings)
      (areEntries : (Durations.ofSpans spans rate).toList
        = spans ++ [⟨openEnd, rate, false⟩]) :
      Accounts lines (.durations (.ofSpans spans rate)) warnings

/-- A schedule whose text has been used or reported line by line. -/
structure IsAccountedFor (text : List Char) (schedule : Schedule) (warnings : List Warning) :
    Prop where
  accounts : Accounts (linesOf text) schedule warnings
  ascending : (warnings.filterMap (·.line)).Pairwise (· < ·)
  behindMark : (linesOf text).tail = (linesFrom 1 text).tail

/-! ## Data lines -/

section Data

variable {α β : Type} {read : List Char → LineResult α}

theorem yields_entriesOf (read : List Char → LineResult α) (dataLines : List NumberedLine) :
    Yields read dataLines (entriesOf read dataLines) (warningsOf read dataLines) := by
  unfold entriesOf warningsOf
  induction dataLines with
  | nil => exact .nil
  | cons line rest inductionHypothesis =>
      rw [List.filterMap_cons, List.filterMap_cons]
      cases reads : read line.text with
      | ok value => exact .entry reads inductionHypothesis
      | error reason => exact .warning reads inductionHypothesis

theorem Yields.sublist_numbers
    {lines : List NumberedLine}
    {values : List α}
    {warnings : List Warning}
    (yields : Yields read lines values warnings) :
    (warnings.filterMap (·.line)).Sublist (lines.map (·.number)) := by
  induction yields with
  | nil => exact .slnil
  | entry _ _ inductionHypothesis => exact .cons _ inductionHypothesis
  | warning _ _ inductionHypothesis => exact .cons_cons _ inductionHypothesis

theorem exists_remarks_of_loadEntries
    {build : List α → Loaded β}
    {lines : Lines}
    {dataLines : List NumberedLine}
    {value : β}
    {warnings : List Warning}
    (readsData : lines.dataLines = (dataLines, none))
    (loaded : loadEntries read build lines = (.ok value, warnings)) :
    ∃ remarks, build (entriesOf read dataLines) = (.ok value, remarks)
      ∧ warnings = warningsOf read dataLines ++ remarks := by
  unfold loadEntries at loaded
  rw [readsData] at loaded
  dsimp only at loaded
  obtain ⟨sameOutcome, rfl⟩ := Prod.mk.inj loaded
  exact ⟨_, Prod.ext sameOutcome rfl, rfl⟩

end Data

/-! ## The three kinds -/

section Kinds

variable {lines : List NumberedLine} {after rest : Lines} {version : Int} {rate : Float}
variable {dataLines : List NumberedLine} {warnings : List Warning}

theorem exists_isRated_of_readDefaultRate
    {zeroAllowed : Bool}
    (isHeaded : IsHeaded lines version dataLines)
    (readsData : after.dataLines = (dataLines, none))
    (readsRate : after.readDefaultRate zeroAllowed = (.ok rate, rest)) :
    ∃ later, IsRated lines version rate later ∧ rest.dataLines = (later, none) := by
  unfold Lines.readDefaultRate at readsRate
  split at readsRate
  next => cases readsRate
  next line behind readsLine =>
    split at readsRate
    next => cases readsRate
    next named isNamed =>
      obtain ⟨rateLine, rfl, isRate⟩ := Option.bind_eq_some_iff.1 isNamed
      obtain ⟨rfl, rfl⟩ : named = rate ∧ behind = rest := by
        split at readsRate
        next => simpa using readsRate
        next => cases readsRate
      rw [Lines.dataLines_of_nextData readsLine] at readsData
      obtain ⟨rfl, noFault⟩ := Prod.mk.inj readsData
      exact ⟨_, ⟨rateLine, isHeaded, isRate⟩, Prod.ext rfl noFault⟩

theorem accounts_of_load_frameRanges
    {schedule : FrameRanges}
    (isHeaded : IsHeaded lines 1 dataLines)
    (readsData : after.dataLines = (dataLines, none))
    (loaded : FrameRanges.load after = (.ok schedule, warnings)) :
    Accounts lines (.frameRanges schedule) warnings := by
  unfold FrameRanges.load at loaded
  split at loaded
  next => cases loaded
  next rate rest readsRate =>
    obtain ⟨later, isRated, readsLater⟩ :=
      exists_isRated_of_readDefaultRate isHeaded readsData readsRate
    obtain ⟨remarks, built, rfl⟩ := exists_remarks_of_loadEntries readsLater loaded
    unfold FrameRanges.build at built
    split at built
    next => cases built
    next =>
      cases built
      rw [List.append_nil]
      exact .frameRanges isRated (yields_entriesOf _ _)

theorem accounts_of_load_timestamps
    {schedule : Timestamps}
    (isHeaded : IsHeaded lines 2 dataLines)
    (readsData : after.dataLines = (dataLines, none))
    (loaded : Timestamps.load after = (.ok schedule, warnings)) :
    Accounts lines (.timestamps schedule) warnings := by
  obtain ⟨remarks, built, rfl⟩ := exists_remarks_of_loadEntries readsData loaded
  unfold Timestamps.build at built
  cases built
  refine .timestamps isHeaded (yields_entriesOf _ _) ?_ (List.mergeSort_perm _ _)
  intro remark member
  split at member
  next empty =>
    obtain rfl := List.mem_singleton.1 member
    exact ⟨List.isEmpty_iff.1 empty, rfl⟩
  next => cases member

theorem accounts_of_load_durations
    {schedule : Durations}
    (isHeaded : IsHeaded lines 3 dataLines)
    (readsData : after.dataLines = (dataLines, none))
    (loaded : Durations.load after = (.ok schedule, warnings)) :
    Accounts lines (.durations schedule) warnings := by
  unfold Durations.load at loaded
  split at loaded
  next => cases loaded
  next rate rest readsRate =>
    obtain ⟨later, isRated, readsLater⟩ :=
      exists_isRated_of_readDefaultRate isHeaded readsData readsRate
    obtain ⟨remarks, built, rfl⟩ := exists_remarks_of_loadEntries readsLater loaded
    unfold Durations.build at built
    split at built
    next => cases built
    next =>
      cases built
      rw [List.append_nil]
      exact .durations isRated (yields_entriesOf _ _) (Durations.toList_ofSpans _ _)

theorem accounts_of_loadVersion
    {schedule : Schedule}
    (isHeaded : IsHeaded lines version dataLines)
    (readsData : after.dataLines = (dataLines, none))
    (loaded : loadVersion version after = (.ok schedule, warnings)) :
    Accounts lines schedule warnings := by
  unfold loadVersion at loaded
  split at loaded
  next isFirst =>
    subst isFirst
    obtain ⟨_, loadedKind, rfl⟩ := exists_of_as loaded
    exact accounts_of_load_frameRanges isHeaded readsData loadedKind
  next =>
    split at loaded
    next isSecond =>
      subst isSecond
      obtain ⟨_, loadedKind, rfl⟩ := exists_of_as loaded
      exact accounts_of_load_timestamps isHeaded readsData loadedKind
    next =>
      split at loaded
      next isThird =>
        subst isThird
        obtain ⟨_, loadedKind, rfl⟩ := exists_of_as loaded
        exact accounts_of_load_durations isHeaded readsData loadedKind
      next => cases loaded

/-- The numbers in warnings ascend with the lines, since those are numbered in
order. -/
theorem Accounts.pairwise_numbers
    {schedule : Schedule}
    (accounts : Accounts lines schedule warnings)
    (ordered : (lines.map (·.number)).Pairwise (· < ·)) :
    (warnings.filterMap (·.line)).Pairwise (· < ·) := by
  have ofHeaded {version : Int} {dataLines : List NumberedLine}
      (isHeaded : IsHeaded lines version dataLines) :
      (dataLines.map (·.number)).Pairwise (· < ·) := by
    obtain ⟨header, behind, rfl, -, rfl⟩ := isHeaded
    have within : (behind.filter Lines.isData).Sublist (header :: behind) :=
      .cons _ List.filter_sublist
    exact ordered.sublist (within.map _)
  have ofRated {version : Int} {rate : Float} {dataLines : List NumberedLine}
      (isRated : IsRated lines version rate dataLines) :
      (dataLines.map (·.number)).Pairwise (· < ·) := by
    obtain ⟨rateLine, isHeaded, -⟩ := isRated
    exact (ofHeaded isHeaded).tail
  cases accounts with
  | frameRanges isRated yields => exact (ofRated isRated).sublist yields.sublist_numbers
  | timestamps isHeaded yields namesNone perm =>
      rw [List.filterMap_append, List.filterMap_eq_nil_iff.2 fun remark member =>
        (namesNone remark member).2, List.append_nil]
      exact (ofHeaded isHeaded).sublist yields.sublist_numbers
  | durations isRated yields areEntries => exact (ofRated isRated).sublist yields.sublist_numbers

end Kinds

/-! ## Files -/

/-- Every data line of a text that is accepted has become an entry of the
schedule or a warning with its number. -/
theorem isAccountedFor_ofBytes
    {name text : String}
    {schedule : Schedule}
    {warnings : List Warning}
    (loaded : ofBytes name text.toUTF8.data.toList = (.ok schedule, warnings)) :
    IsAccountedFor text.toList schedule warnings := by
  rw [← Text.encoded_toList] at loaded
  generalize text.toList = text at loaded ⊢
  have accounts : Accounts (linesOf text) schedule warnings := by
    by_cases empty : text = []
    · subst empty
      cases loaded
    · obtain ⟨first, behind, after, areLines, readsFirst, readsData⟩ :=
        Lines.exists_next_ofText name empty
      unfold ofBytes load at loaded
      have begun : Lines.ofBytes name (Text.encoded text) = Lines.ofText name text 0 := rfl
      rw [begun, readsFirst] at loaded
      dsimp only at loaded
      split at loaded
      next version isVersion =>
        exact accounts_of_loadVersion ⟨first, behind, areLines, isVersion, rfl⟩ readsData loaded
      next => cases loaded
  exact ⟨accounts, accounts.pairwise_numbers (pairwise_linesFrom 1 _), tail_linesOf text⟩

/-- A text with a byte order mark, a remark, a blank line and one bad line. -/
def markedText : String :=
  "\uFEFF# timecode format v3\nassume 25\n# a remark\n\n2.5\n1,x\n gap, 3"

theorem isAccountedFor_ofBytes_markedText :
    ∃ schedule,
      ofBytes "x.txt" markedText.toUTF8.data.toList
          = (.ok schedule, [⟨some 6, "line could not be parsed"⟩])
        ∧ IsAccountedFor markedText.toList schedule [⟨some 6, "line could not be parsed"⟩] := by
  have isOk : (ofBytes "x.txt" markedText.toUTF8.data.toList).1.isOk = true := by decide +kernel
  have isWarned : (ofBytes "x.txt" markedText.toUTF8.data.toList).2
      = [⟨some 6, "line could not be parsed"⟩] := by
    decide +kernel
  cases outcome : (ofBytes "x.txt" markedText.toUTF8.data.toList).1 with
  | error error =>
      rw [outcome] at isOk
      cases isOk
  | ok schedule =>
      have loaded : ofBytes "x.txt" markedText.toUTF8.data.toList
          = (.ok schedule, [⟨some 6, "line could not be parsed"⟩]) := Prod.ext outcome isWarned
      exact ⟨schedule, loaded, isAccountedFor_ofBytes loaded⟩

end MediaSplit.Schedule

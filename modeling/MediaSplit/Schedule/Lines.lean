import MediaSplit.Bytes
import MediaSplit.Schedule.Error
import MediaSplit.Text.Number
import MediaSplit.Warning

/-!
Contract: a schedule file as lines.

Owns:
- `Schedule.Lines`, the part of a file not yet read, with `next`, one line at a
  time, and `nextData`, which passes over blank lines and remarks;
- `Lines.dataLines`, all data lines that are left;
- the format line, the line with the default rate, and the fields of a line.

Lines are counted from 1. Each line is UTF-8 by itself and loses the white
space at both ends, and the first one loses a byte order mark before that. A
line that is not UTF-8 is read but not counted.
-/

set_option autoImplicit false

namespace MediaSplit.Schedule

/-- The part of a schedule file that is not yet read. -/
structure Lines where
  /-- What the file is called in errors. -/
  name : String
  /-- The bytes not yet read. -/
  rest : Bytes
  /-- The number of lines read. -/
  count : Nat
  deriving DecidableEq, Repr, Inhabited

/-- A line of text with its number. -/
structure NumberedLine where
  number : Nat
  text : List Char
  deriving DecidableEq, Repr, Inhabited

namespace Lines

/-- A file of which nothing has been read. -/
def ofBytes (name : String) (bytes : Bytes) : Lines := ⟨name, bytes, 0⟩

/-- The byte that ends a line. -/
def lineEnd : UInt8 := 10

/-- The byte order mark. -/
def byteOrderMark : Char := Char.ofNat 0xFEFF

/-- The text of a line that is the `number`-th of its file. -/
def lineText (number : Nat) (decoded : String) : List Char :=
  match decoded.toList with
  | c :: rest =>
      if number = 1 ∧ c = byteOrderMark then Text.trim rest else Text.trim (c :: rest)
  | [] => []

/-- What is left behind the first line. -/
def behindLine (bytes : Bytes) : Bytes := (bytes.dropWhile (· ≠ lineEnd)).drop 1

theorem length_behindLine (bytes : Bytes) (nonempty : bytes ≠ []) :
    (behindLine bytes).length < bytes.length := by
  have bound := (List.dropWhile_sublist (l := bytes) (· ≠ lineEnd)).length_le
  have positive := List.length_pos_iff.2 nonempty
  simp only [behindLine, List.length_drop]
  omega

/-- Reads the next line; nothing at the end of the file. -/
def next (lines : Lines) : Except SourceFault (Option NumberedLine) × Lines :=
  if lines.rest = [] then (.ok none, lines)
  else
    let raw := lines.rest.takeWhile (· ≠ lineEnd)
    let rest := behindLine lines.rest
    match String.fromUTF8? ⟨raw.toArray⟩ with
    | none => (.error .invalidText, { lines with rest := rest })
    | some decoded =>
        let number := lines.count + 1
        (.ok (some ⟨number, lineText number decoded⟩),
          { lines with rest := rest, count := number })

/-- Whether a line carries data: it is neither blank nor a remark. -/
def isData (line : NumberedLine) : Bool :=
  match line.text with
  | [] => false
  | c :: _ => c != '#'

theorem length_rest_next
    (lines after : Lines)
    (line : NumberedLine)
    (reads : lines.next = (.ok (some line), after)) :
    after.rest.length < lines.rest.length := by
  unfold next at reads
  split at reads
  · simp at reads
  · rename_i nonempty
    dsimp only at reads
    split at reads
    · simp at reads
    · simp only [Prod.mk.injEq] at reads
      rw [← reads.2]
      exact length_behindLine lines.rest nonempty

/-- Reads up to the next data line; nothing at the end of the file. -/
def nextData (lines : Lines) : Except SourceFault (Option NumberedLine) × Lines :=
  match _reads : lines.next with
  | (.ok (some line), after) =>
      if isData line then (.ok (some line), after) else nextData after
  | other => other
termination_by lines.rest.length
decreasing_by exact length_rest_next lines after line _reads

/-- All data lines that are left, up to the first line that cannot be read. -/
def dataLines (lines : Lines) : List NumberedLine × Option SourceFault :=
  match _reads : lines.next with
  | (.ok (some line), after) =>
      let (more, fault) := dataLines after
      (if isData line then line :: more else more, fault)
  | (.ok none, _) => ([], none)
  | (.error fault, _) => ([], some fault)
termination_by lines.rest.length
decreasing_by exact length_rest_next lines after line _reads

/-- The version that a format line names, if it is one; the inner answer is
none where the version is not a number. -/
def formatVersion? (line : List Char) : Option (Option Int) :=
  (Text.afterKeyword? "# timecode format v" line).map fun rest => Text.integer? (Text.trim rest)

/-- The rate that a default rate line names: the keyword, white space, and a
number. -/
def defaultRate? (line : List Char) : Option Float :=
  match Text.afterKeyword? "assume" line with
  | some (c :: rest) => if Text.isBlank c then Text.float? (Text.trim rest) else none
  | _ => none

/-- The comma-separated fields of a line, trimmed. -/
def fields (line : List Char) : List (List Char) :=
  (Text.splitAt ',' line).map Text.trim

/-- Reads the line with the default rate. A rate of zero needs `zeroAllowed`;
a negative one is never accepted. -/
def readDefaultRate (zeroAllowed : Bool) (lines : Lines) : Except Error Float × Lines :=
  match lines.nextData with
  | (.error fault, after) => (.error (.source fault), after)
  | (.ok line, after) =>
      match line.bind fun line => defaultRate? line.text with
      | none => (.error (.missingDefaultRate lines.name), after)
      | some rate =>
          if rate > 0.0 || (zeroAllowed && rate == 0.0) then (.ok rate, after)
          else (.error (.missingDefaultRate lines.name), after)

end Lines

/-- What became of a data line: an entry, or the reason why there is none. -/
abbrev LineResult (α : Type) := Except String α

/-- The entries that data lines gave. -/
def entriesOf {α : Type} (read : List Char → LineResult α) (lines : List NumberedLine) : List α :=
  lines.filterMap fun line => (read line.text).toOption

/-- The warnings for data lines that gave no entry. -/
def warningsOf {α : Type} (read : List Char → LineResult α) (lines : List NumberedLine) :
    List Warning :=
  lines.filterMap fun line =>
    match read line.text with
    | .ok _ => none
    | .error reason => some ⟨some line.number, reason⟩

/-- A schedule or the reason for refusing it, with the warnings up to there. -/
abbrev Loaded (α : Type) := Except Error α × List Warning

/-- Reads the data lines that are left and builds a schedule of their entries.
A line that cannot be read is the cause of a refusal whatever `build` says. -/
def loadEntries {α β : Type}
    (read : List Char → LineResult α)
    (build : List α → Loaded β)
    (lines : Lines) : Loaded β :=
  let (dataLines, fault) := lines.dataLines
  let warnings := warningsOf read dataLines
  match fault with
  | some fault => (.error (.source fault), warnings)
  | none =>
      let (outcome, more) := build (entriesOf read dataLines)
      (outcome, warnings ++ more)

end MediaSplit.Schedule

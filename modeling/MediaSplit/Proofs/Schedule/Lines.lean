import MediaSplit.Schedule.Lines
import Mathlib.Data.List.TakeWhile

/-!
Contract: the lines of a schedule file that is text.

Owns:
- `Text.encoded`, the bytes of a text;
- `Schedule.linesOf`, the lines of a text in plain terms: cut at line feeds,
  numbered from 1, trimmed;
- that reading the bytes line by line comes to the same lines, and that the
  data lines read are those among them.

Does **not** own: files that are not UTF-8, and what is made of a line.

A byte order mark is taken off the text before it is cut. It cannot be told from
one taken off the first line, since no line begins before the text does.
-/

set_option autoImplicit false

namespace MediaSplit

/-! ## Text as bytes -/

namespace Text

/-- The bytes of a text. -/
def encoded (text : List Char) : Bytes := text.flatMap String.utf8EncodeChar

theorem encoded_eq_nil {text : List Char} : encoded text = [] ↔ text = [] := by
  cases text <;> simp [encoded]

theorem encoded_append (text more : List Char) :
    encoded (text ++ more) = encoded text ++ encoded more :=
  List.flatMap_append

theorem encoded_toList (text : String) : encoded text.toList = text.toUTF8.data.toList := by
  have bytes : (String.ofList text.toList).toByteArray = text.toList.utf8Encode :=
    String.toByteArray_ofList
  rw [String.ofList_toList] at bytes
  rw [String.toUTF8, bytes, List.utf8Encode, List.toList_data_toByteArray]
  rfl

theorem fromUTF8?_encoded (text : List Char) :
    String.fromUTF8? ⟨(encoded text).toArray⟩ = some (String.ofList text) := by
  have bytes : (⟨(encoded text).toArray⟩ : ByteArray) = text.utf8Encode := by
    rw [List.utf8Encode]
    exact ByteArray.ext List.data_toByteArray.symm
  unfold String.fromUTF8?
  rw [dif_pos (.intro text bytes)]
  congr 1
  apply String.toByteArray_inj.1
  rw [String.toByteArray_ofList]
  exact bytes

/-- No other character has the byte of a line feed in it. -/
theorem lineFeed_notMem_utf8EncodeChar {c : Char} (other : c ≠ '\n') :
    (10 : UInt8) ∉ String.utf8EncodeChar c := by
  have otherCode : c.val.toNat ≠ 10 := fun same => other (Char.ext (UInt32.toNat_inj.1 same))
  unfold String.utf8EncodeChar
  dsimp only
  repeat' split
  all_goals
    simp only [List.mem_cons, List.not_mem_nil, or_false, ← UInt8.toNat_inj,
      UInt8.toNat_ofNat', UInt8.reduceToNat]
    omega

theorem lineFeed_notMem_encoded {line : List Char} (within : '\n' ∉ line) :
    (10 : UInt8) ∉ encoded line := by
  intro member
  obtain ⟨c, isChar, isByte⟩ := List.mem_flatMap.1 member
  have other : c ≠ '\n' := fun same => within (same ▸ isChar)
  exact lineFeed_notMem_utf8EncodeChar other isByte

/-! ## Cutting at a separator -/

theorem splitAt_of_notMem {separator : Char} {piece : List Char} (within : separator ∉ piece) :
    splitAt separator piece = [piece] := by
  induction piece with
  | nil => rfl
  | cons c rest inductionHypothesis =>
      obtain ⟨other, within⟩ := not_or.1 (mt List.mem_cons.2 within)
      have later := inductionHypothesis within
      unfold splitAt at later ⊢
      rw [List.foldr_cons, later, if_neg (Ne.symm other)]

theorem splitAt_append
    {separator : Char}
    {piece : List Char}
    (within : separator ∉ piece)
    (behind : List Char) :
    splitAt separator (piece ++ separator :: behind) = piece :: splitAt separator behind := by
  induction piece with
  | nil =>
      unfold splitAt
      rw [List.nil_append, List.foldr_cons, if_pos rfl]
  | cons c rest inductionHypothesis =>
      obtain ⟨other, within⟩ := not_or.1 (mt List.mem_cons.2 within)
      have later := inductionHypothesis within
      unfold splitAt at later ⊢
      rw [List.cons_append, List.foldr_cons, later, if_neg (Ne.symm other)]

/-- Induction on the lines of a text. -/
@[elab_as_elim]
theorem lineInduction
    {motive : List Char → Prop}
    (last : ∀ line, '\n' ∉ line → motive line)
    (more : ∀ line behind, '\n' ∉ line → motive behind → motive (line ++ '\n' :: behind))
    (text : List Char) :
    motive text := by
  induction isSize : text.length using Nat.strongRecOn generalizing text with
  | ind size inductionHypothesis =>
      by_cases within : '\n' ∈ text
      · obtain ⟨line, behind, rfl, first⟩ := List.eq_append_cons_of_mem within
        have shorter : behind.length < size := by
          rw [← isSize, List.length_append, List.length_cons]
          omega
        exact more line behind first (inductionHypothesis _ shorter behind rfl)
      · exact last text within

end Text

namespace Schedule

/-! ## Lines in plain terms -/

/-- The lines of a text, each without the white space at its ends, numbered from
`number` on. -/
def linesFrom (number : Nat) (text : List Char) : List NumberedLine :=
  ((Text.splitAt '\n' text).zipIdx number).map fun (line, number) => ⟨number, Text.trim line⟩

/-- A text without the byte order mark that it may start with. -/
def withoutMark : List Char → List Char
  | [] => []
  | c :: rest => if c = Lines.byteOrderMark then rest else c :: rest

/-- The lines of a file with this text. -/
def linesOf (text : List Char) : List NumberedLine := linesFrom 1 (withoutMark text)

section Plain

variable {line : List Char}

theorem linesFrom_of_notMem (within : '\n' ∉ line) (number : Nat) :
    linesFrom number line = [⟨number, Text.trim line⟩] := by
  unfold linesFrom
  rw [Text.splitAt_of_notMem within]
  rfl

theorem linesFrom_append (within : '\n' ∉ line) (number : Nat) (behind : List Char) :
    linesFrom number (line ++ '\n' :: behind)
      = ⟨number, Text.trim line⟩ :: linesFrom (number + 1) behind := by
  unfold linesFrom
  rw [Text.splitAt_append within]
  rfl

theorem numbers_linesFrom (number : Nat) (text : List Char) :
    (linesFrom number text).map (·.number)
      = List.range' number (Text.splitAt '\n' text).length := by
  unfold linesFrom
  rw [List.map_map, ← List.zipIdx_map_snd]
  rfl

theorem pairwise_linesFrom (number : Nat) (text : List Char) :
    ((linesFrom number text).map (·.number)).Pairwise (· < ·) := by
  rw [numbers_linesFrom]
  exact List.pairwise_lt_range' 1

theorem withoutMark_cons (c : Char) (rest : List Char) :
    withoutMark (c :: rest) = if c = Lines.byteOrderMark then rest else c :: rest := rfl

theorem withoutMark_append (line behind : List Char) :
    withoutMark (line ++ '\n' :: behind) = withoutMark line ++ '\n' :: behind := by
  cases line with
  | nil => rfl
  | cons c rest =>
      rw [List.cons_append, withoutMark_cons, withoutMark_cons]
      split <;> rfl

theorem notMem_withoutMark (within : '\n' ∉ line) : '\n' ∉ withoutMark line := by
  cases line with
  | nil => exact within
  | cons c rest =>
      rw [withoutMark_cons]
      split
      next => exact fun member => within (List.mem_cons_of_mem c member)
      next => exact within

/-- A byte order mark has no part in any line but the first. -/
theorem tail_linesOf (text : List Char) : (linesOf text).tail = (linesFrom 1 text).tail := by
  unfold linesOf
  induction text using Text.lineInduction with
  | last line within =>
      rw [linesFrom_of_notMem within, linesFrom_of_notMem (notMem_withoutMark within)]
      rfl
  | more line behind within _ =>
      rw [withoutMark_append, linesFrom_append within, linesFrom_append (notMem_withoutMark within)]
      rfl

end Plain

namespace Lines

/-! ## Reading line by line -/

theorem lineText_first (line : List Char) :
    lineText 1 (String.ofList line) = Text.trim (withoutMark line) := by
  unfold lineText withoutMark
  rw [String.toList_ofList]
  cases line with
  | nil => rfl
  | cons c rest =>
      dsimp only
      split
      next both => rw [if_pos both.2]
      next notBoth => rw [if_neg fun isMark => notBoth ⟨rfl, isMark⟩]

theorem lineText_later {number : Nat} (later : number ≠ 1) (line : List Char) :
    lineText number (String.ofList line) = Text.trim line := by
  unfold lineText
  rw [String.toList_ofList]
  cases line with
  | nil => rfl
  | cons c rest =>
      dsimp only
      rw [if_neg fun both => later both.1]

variable {name : String} {line : List Char} {count : Nat}

/-- A file of which this text is left, behind `count` lines. -/
def ofText (name : String) (text : List Char) (count : Nat) : Lines :=
  ⟨name, Text.encoded text, count⟩

theorem next_ofText
    {text behind : List Char}
    (nonempty : text ≠ [])
    (isLine : (Text.encoded text).takeWhile (· ≠ lineEnd) = Text.encoded line)
    (isBehind : behindLine (Text.encoded text) = Text.encoded behind) :
    (ofText name text count).next
      = (.ok (some ⟨count + 1, lineText (count + 1) (String.ofList line)⟩),
          ofText name behind (count + 1)) := by
  unfold next ofText
  rw [if_neg (mt Text.encoded_eq_nil.1 nonempty)]
  dsimp only
  rw [isLine, Text.fromUTF8?_encoded, isBehind]

theorem inLine_of_mem_encoded (within : '\n' ∉ line) :
    ∀ byte ∈ Text.encoded line, decide (byte ≠ lineEnd) = true := by
  intro byte member
  apply decide_eq_true
  rintro rfl
  exact Text.lineFeed_notMem_encoded within member

theorem next_of_notMem (within : '\n' ∉ line) (nonempty : line ≠ []) :
    (ofText name line count).next
      = (.ok (some ⟨count + 1, lineText (count + 1) (String.ofList line)⟩),
          ofText name [] (count + 1)) := by
  have inLine := inLine_of_mem_encoded within
  apply next_ofText nonempty (List.takeWhile_eq_self_iff.2 inLine)
  unfold behindLine
  rw [List.dropWhile_eq_nil_iff.2 inLine]
  rfl

theorem next_append (within : '\n' ∉ line) (behind : List Char) :
    (ofText name (line ++ '\n' :: behind) count).next
      = (.ok (some ⟨count + 1, lineText (count + 1) (String.ofList line)⟩),
          ofText name behind (count + 1)) := by
  have inLine := inLine_of_mem_encoded within
  have bytes : Text.encoded (line ++ '\n' :: behind)
      = Text.encoded line ++ lineEnd :: Text.encoded behind := Text.encoded_append line _
  apply next_ofText
  · simp
  · rw [bytes, List.takeWhile_append_of_pos inLine]
    simp
  · unfold behindLine
    rw [bytes, List.dropWhile_append_of_pos inLine]
    simp

/-! ## Data lines -/

theorem dataLines_of_next
    {lines after : Lines}
    {line : NumberedLine}
    (reads : lines.next = (.ok (some line), after)) :
    lines.dataLines
      = (if isData line then line :: after.dataLines.1 else after.dataLines.1,
          after.dataLines.2) := by
  rw [dataLines]
  split
  next read =>
    rw [reads] at read
    cases read
    rfl
  next read =>
    rw [reads] at read
    cases read
  next read =>
    rw [reads] at read
    cases read

theorem dataLines_empty (name : String) (count : Nat) :
    (ofText name [] count).dataLines = ([], none) := by
  rw [dataLines]
  rfl

/-- The next data line is the first of all that are left. -/
theorem dataLines_of_nextData
    {lines after : Lines}
    {line : NumberedLine}
    (reads : lines.nextData = (.ok (some line), after)) :
    lines.dataLines = (line :: after.dataLines.1, after.dataLines.2) := by
  induction size : lines.rest.length using Nat.strongRecOn generalizing lines with
  | ind size inductionHypothesis =>
      rw [nextData] at reads
      split at reads
      next first behind read =>
        rw [dataLines_of_next read]
        split at reads
        next isLine =>
          obtain ⟨rfl, rfl⟩ : first = line ∧ behind = after := by simpa using reads
          rw [if_pos isLine]
        next notLine =>
          have shorter := length_rest_next lines behind first read
          rw [if_neg notLine, inductionHypothesis _ (by omega) reads rfl]
      next other =>
        rw [reads] at other
        exact absurd rfl (other line after)

/-- Behind the first line, the data lines read are those of the text. -/
theorem dataLines_ofText (name : String) (text : List Char) {count : Nat} (begun : count ≠ 0) :
    (ofText name text count).dataLines
      = ((linesFrom (count + 1) text).filter isData, none) := by
  have later : count + 1 ≠ 1 := by omega
  induction text using Text.lineInduction generalizing count with
  | last line within =>
      rw [linesFrom_of_notMem within]
      by_cases empty : line = []
      · subst empty
        rw [dataLines_empty]
        rfl
      · rw [dataLines_of_next (next_of_notMem within empty), dataLines_empty, lineText_later later,
          List.filter_cons, List.filter_nil]
  | more line behind within inductionHypothesis =>
      rw [linesFrom_append within, dataLines_of_next (next_append within behind),
        lineText_later later, inductionHypothesis (by omega) (by omega), List.filter_cons]

/-- The first line of a file is read, and the data lines behind it are those of its
text. -/
theorem exists_next_ofText (name : String) {text : List Char} (nonempty : text ≠ []) :
    ∃ first behind after, linesOf text = first :: behind
      ∧ (ofText name text 0).next = (.ok (some first), after)
      ∧ after.dataLines = (behind.filter isData, none) := by
  unfold linesOf
  induction text using Text.lineInduction with
  | last line within =>
      have isLine := linesFrom_of_notMem (notMem_withoutMark within) 1
      have read := @next_of_notMem name line 0 within nonempty
      rw [lineText_first] at read
      exact ⟨_, [], _, isLine, read, dataLines_empty name 1⟩
  | more line behind within _ =>
      have areLines := linesFrom_append (notMem_withoutMark within) 1 behind
      have read := @next_append name line 0 within behind
      rw [← withoutMark_append] at areLines
      rw [lineText_first] at read
      exact ⟨_, _, _, areLines, read, dataLines_ofText name behind Nat.one_ne_zero⟩

end Lines

end Schedule

end MediaSplit

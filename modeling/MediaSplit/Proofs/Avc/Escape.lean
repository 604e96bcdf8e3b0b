import MediaSplit.Avc.Escape

/-!
Contract: escape bytes come and go without a trace.

Owns: that removing escape bytes undoes inserting them; that a unit in which no
`00 00 03` stands loses nothing; and that no unit loses anything but bytes `03`.
The three stand together in `unescape_undoesEscape`.

The one who inserts starts counting again at each escape byte and so never
counts past two. The one who removes starts again at the same places and counts
on in a run of zero bytes that holds none. The two counts agree on what was
escaped, and on anything else only a count of two or more says something about
the bytes before.
-/

set_option autoImplicit false

namespace MediaSplit.Avc

/-! ## What was escaped -/

/-- Zero bytes before a place that nothing has been inserted behind. -/
theorem unescapeAfter_escapeAfter {zeros : Nat} (few : zeros ≤ 2) (data : Bytes) :
    unescapeAfter (Int32.ofNat zeros) (escapeAfter zeros data) = data := by
  induction data generalizing zeros with
  | nil => rfl
  | cons byte rest inductionHypothesis =>
      rw [escapeAfter]
      split
      next escaped =>
        obtain ⟨rfl, small⟩ := escaped
        have again : (if byte = 0 then 1 else 0) ≤ 2 := by
          split <;> decide
        have counts : (if byte = 0 then (0 : Int32) + 1 else 0)
            = Int32.ofNat (if byte = 0 then 1 else 0) := by
          split <;> rfl
        have stays : ¬ ((2 : Int32) ≤ 0 ∧ byte = escapeByte) := fun both =>
          absurd both.1 (by decide)
        rw [unescapeAfter_cons, if_pos (by decide), unescapeAfter_cons, if_neg stays, counts,
          inductionHypothesis again]
      next plain =>
        have stays : ¬ (2 ≤ Int32.ofNat zeros ∧ byte = escapeByte) := by
          rintro ⟨enough, rfl⟩
          apply plain
          refine ⟨?_, by decide⟩
          match zeros, few, enough with
          | 2, _, _ => rfl
        have fewer : (if byte = 0 then zeros + 1 else 0) ≤ 2 := by
          split
          next isZero =>
            subst isZero
            have notTwo : zeros ≠ 2 := fun two => plain ⟨two, by decide⟩
            omega
          next => decide
        have counts : (if byte = 0 then Int32.ofNat zeros + 1 else 0)
            = Int32.ofNat (if byte = 0 then zeros + 1 else 0) := by
          split
          next => exact (Int32.ofNat_add zeros 1).symm
          next => rfl
        rw [unescapeAfter_cons, if_neg stays, counts, inductionHypothesis fewer]

theorem unescape_escape (data : Bytes) : unescape (escape data) = data :=
  unescapeAfter_escapeAfter (Nat.zero_le 2) data

/-! ## What holds no escape byte -/

/-- What a count of zero bytes says about the bytes before, also where it has
come round. -/
structure CountsZeros (before : Bytes) (zeros : Int32) : Prop where
  one : 1 ≤ zeros → [0] <:+ before
  two : 2 ≤ zeros → [0, 0] <:+ before

theorem one_le_of_two_le_add_one {zeros : Int32} (enough : 2 ≤ zeros + 1) : 1 ≤ zeros := by
  have one : (1 : Int32).toInt = 1 := rfl
  have two : (2 : Int32).toInt = 2 := rfl
  have least := zeros.le_toInt
  have most := zeros.toInt_lt
  -- behind the greatest number comes the least, which is no two
  rw [Int32.le_iff_toInt_le, Int32.toInt_add, one, two, Int.bmod_def] at enough
  rw [Int32.le_iff_toInt_le, one]
  split at enough <;> omega

theorem countsZeros_zero (before : Bytes) : CountsZeros before 0 :=
  ⟨fun enough => absurd enough (by decide), fun enough => absurd enough (by decide)⟩

theorem CountsZeros.push
    {before : Bytes}
    {zeros : Int32}
    (counts : CountsZeros before zeros)
    (byte : UInt8) :
    CountsZeros (before ++ [byte]) (if byte = 0 then zeros + 1 else 0) := by
  split
  next isZero =>
    subst isZero
    refine ⟨fun _ => List.suffix_append before [0], ?_⟩
    intro enough
    obtain ⟨front, rfl⟩ := counts.one (one_le_of_two_le_add_one enough)
    exact ⟨front, by simp⟩
  next => exact countsZeros_zero _

theorem unescapeAfter_of_clean
    {before : Bytes}
    {zeros : Int32}
    (counts : CountsZeros before zeros)
    {data : Bytes}
    (clean : ¬ [0, 0, escapeByte] <:+: before ++ data) :
    unescapeAfter zeros data = data := by
  induction data generalizing before zeros with
  | nil => rfl
  | cons byte rest inductionHypothesis =>
      have stays : ¬ (2 ≤ zeros ∧ byte = escapeByte) := by
        rintro ⟨enough, rfl⟩
        apply clean
        obtain ⟨front, rfl⟩ := counts.two enough
        exact ⟨front, rest, by simp⟩
      have next : before ++ byte :: rest = before ++ [byte] ++ rest := by simp
      rw [next] at clean
      rw [unescapeAfter_cons, if_neg stays, inductionHypothesis (counts.push byte) clean]

/-! ## What is lost -/

theorem sublist_unescapeAfter (zeros : Int32) (data : Bytes) :
    (unescapeAfter zeros data).Sublist data := by
  induction data generalizing zeros with
  | nil => exact .slnil
  | cons byte rest inductionHypothesis =>
      rw [unescapeAfter_cons]
      split
      next => exact (inductionHypothesis _).cons byte
      next => exact (inductionHypothesis _).cons_cons byte

theorem filter_unescapeAfter (zeros : Int32) (data : Bytes) :
    (unescapeAfter zeros data).filter (· != escapeByte) = data.filter (· != escapeByte) := by
  induction data generalizing zeros with
  | nil => rfl
  | cons byte rest inductionHypothesis =>
      rw [unescapeAfter_cons]
      split
      next escaped =>
        rw [inductionHypothesis, escaped.2]
        rfl
      next => rw [List.filter_cons, List.filter_cons, inductionHypothesis]

/-- Removing escape bytes undoes inserting them, changes nothing where no
`00 00 03` stands, and leaves every other byte in its place. -/
theorem unescape_undoesEscape (data : Bytes) :
    unescape (escape data) = data
      ∧ (¬ [0, 0, escapeByte] <:+: data → unescape data = data)
      ∧ (unescape data).Sublist data
      ∧ (unescape data).filter (· != escapeByte) = data.filter (· != escapeByte) := by
  refine ⟨unescape_escape data, ?_, sublist_unescapeAfter 0 data, filter_unescapeAfter 0 data⟩
  intro clean
  exact unescapeAfter_of_clean (countsZeros_zero []) clean

/-- A unit that a start code stands in is changed by its escaping, and is its own
unescaping since no `00 00 03` stands in it. -/
theorem unescape_undoesEscape_startCode :
    ¬ [0, 0, escapeByte] <:+: ([3, 0, 0, 0, 0, 1, 0, 3, 0, 0] : Bytes)
      ∧ escape [3, 0, 0, 0, 0, 1, 0, 3, 0, 0] = [3, 0, 0, 3, 0, 0, 3, 1, 0, 3, 0, 0]
      ∧ unescape (escape [3, 0, 0, 0, 0, 1, 0, 3, 0, 0]) = [3, 0, 0, 0, 0, 1, 0, 3, 0, 0]
      ∧ unescape [3, 0, 0, 0, 0, 1, 0, 3, 0, 0] = [3, 0, 0, 0, 0, 1, 0, 3, 0, 0] :=
  have clean : ¬ [0, 0, escapeByte] <:+: ([3, 0, 0, 0, 0, 1, 0, 3, 0, 0] : Bytes) := by decide
  have both := unescape_undoesEscape [3, 0, 0, 0, 0, 1, 0, 3, 0, 0]
  ⟨clean, by decide, both.1, both.2.1 clean⟩

end MediaSplit.Avc

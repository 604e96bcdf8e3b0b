import MediaSplit.Proofs.Bytes
import MediaSplit.Source

/-!
Contract: ranges of a byte source and the numbers they spell.

Owns: how long a range is and how ranges are cut and joined; the big-endian
number of a range when a byte is added behind it or dropped before it; what is
read where known bytes stand; and that all of this hangs on the bytes of a source
and not on its position.
-/

set_option autoImplicit false

namespace MediaSplit

namespace Source

/-! ## Ranges -/

theorem size_eq_length (source : Source) : source.size = source.toBytes.length := by
  unfold size toBytes
  rw [Array.length_toList]
  rfl

@[simp] theorem length_bytesAt (source : Source) (offset count : Nat) :
    (source.bytesAt offset count).length = min count (source.size - offset) := by
  rw [bytesAt_eq_slice, Bytes.slice, List.length_take, List.length_drop, size_eq_length]

theorem take_bytesAt (source : Source) (offset count less : Nat) :
    (source.bytesAt offset count).take less = source.bytesAt offset (min less count) := by
  rw [bytesAt_eq_slice, bytesAt_eq_slice, Bytes.slice, Bytes.slice, List.take_take]

theorem drop_bytesAt (source : Source) (offset count first : Nat) :
    (source.bytesAt offset count).drop first
      = source.bytesAt (offset + first) (count - first) := by
  rw [bytesAt_eq_slice, bytesAt_eq_slice, Bytes.slice, Bytes.slice, List.drop_take,
    List.drop_drop]

/-- Two ranges, one behind the other, are one range. -/
theorem bytesAt_add (source : Source) (offset first count : Nat) :
    source.bytesAt offset (first + count)
      = source.bytesAt offset first ++ source.bytesAt (offset + first) count := by
  rw [← List.take_append_drop first (source.bytesAt offset (first + count)), take_bytesAt,
    drop_bytesAt, Nat.min_eq_left (Nat.le_add_right _ _), Nat.add_sub_cancel_left]

/-- A range that reaches the end of the data is the rest of the data. -/
theorem bytesAt_of_size_le (source : Source) {offset count : Nat}
    (reaches : source.size ≤ offset + count) :
    source.bytesAt offset count = source.toBytes.drop offset := by
  rw [bytesAt_eq_slice, Bytes.slice]
  apply List.take_of_length_le
  rw [List.length_drop, ← size_eq_length]
  omega

/-- A range that is shorter than asked for is the rest of the data. -/
theorem bytesAt_of_short (source : Source) {offset count : Nat}
    (short : (source.bytesAt offset count).length < count) :
    source.bytesAt offset count = source.toBytes.drop offset := by
  rw [length_bytesAt] at short
  exact bytesAt_of_size_le source (by omega)

/-- A range and what stands behind it. -/
theorem bytesAt_append_drop (source : Source) (offset count : Nat) :
    source.bytesAt offset count ++ source.toBytes.drop (offset + count)
      = source.toBytes.drop offset := by
  rw [bytesAt_eq_slice, Bytes.slice, ← List.drop_drop, List.take_append_drop]

theorem getElem?_toBytes (source : Source) (offset : Nat) :
    source.toBytes[offset]? = source.content[offset]? := by
  have length := source.size_eq_length
  by_cases inside : offset < source.content.size
  · rw [getElem?_pos source.content offset inside,
      List.getElem?_eq_getElem (by rw [← length]; exact inside)]
    rfl
  · rw [getElem?_neg source.content offset inside, List.getElem?_eq_none_iff, ← length]
    exact Nat.le_of_not_lt inside

theorem bytesAt_succ {source : Source} {offset count byte : Nat}
    (present : source.byteAt? (offset + count) = some byte) :
    ∃ last : UInt8, last.toNat = byte ∧
      source.bytesAt offset (count + 1) = source.bytesAt offset count ++ [last] := by
  obtain ⟨last, present, isByte⟩ := Option.map_eq_some_iff.1 present
  refine ⟨last, isByte, ?_⟩
  have found : (source.toBytes.drop offset)[count]? = some last := by
    rw [List.getElem?_drop, getElem?_toBytes, present]
  rw [bytesAt_eq_slice, bytesAt_eq_slice, Bytes.slice, Bytes.slice, List.take_add_one, found]
  rfl

/-! ## Numbers -/

theorem numberAt?_eq_some_iff {source : Source} {offset width value : Nat} :
    source.numberAt? offset width = some value
      ↔ offset + width ≤ source.size ∧ Bytes.toNumber (source.bytesAt offset width) = value := by
  unfold numberAt?
  split
  next fits => simp [fits]
  next long => simp [long]

theorem numberAt?_eq_none_iff {source : Source} {offset width : Nat} :
    source.numberAt? offset width = none ↔ source.size < offset + width := by
  unfold numberAt?
  split
  next fits => simp [fits]
  next long => simpa using long

theorem size_le_of_byteAt?_eq_none {source : Source} {offset : Nat}
    (missing : source.byteAt? offset = none) : source.size ≤ offset := by
  rw [byteAt?, Option.map_eq_none_iff] at missing
  exact Nat.le_of_not_lt fun inside => by
    rw [getElem?_pos source.content offset inside] at missing
    cases missing

/-- A byte behind a number becomes its low byte. -/
theorem numberAt?_succ {source : Source} {offset width value byte : Nat}
    (number : source.numberAt? offset width = some value)
    (behind : source.byteAt? (offset + width) = some byte) :
    source.numberAt? offset (width + 1) = some (value * 256 + byte) := by
  have inside := lt_size_of_byteAt? behind
  obtain ⟨last, isByte, joined⟩ := bytesAt_succ behind
  rw [numberAt?_eq_some_iff] at number ⊢
  refine ⟨by omega, ?_⟩
  rw [joined, Bytes.toNumber_append_singleton, number.2, isByte]

/-- A number loses its high bytes with the bytes before it. -/
theorem numberAt?_of_dropped {source : Source} {offset dropped width value : Nat}
    (number : source.numberAt? offset (dropped + width) = some value) :
    source.numberAt? (offset + dropped) width = some (value % 256 ^ width) := by
  rw [numberAt?_eq_some_iff] at number ⊢
  obtain ⟨fits, spelled⟩ := number
  refine ⟨by omega, ?_⟩
  have length : (source.bytesAt (offset + dropped) width).length = width := by
    rw [length_bytesAt]
    omega
  have below := Bytes.toNumber_lt (source.bytesAt (offset + dropped) width)
  rw [length] at below
  rw [← spelled, bytesAt_add, Bytes.toNumber_append, length, Nat.mul_add_mod_self_right,
    Nat.mod_eq_of_lt below]

/-- The number of a range that moves on by a byte. -/
theorem numberAt?_moveOn {source : Source} {offset width value byte : Nat}
    (number : source.numberAt? offset (1 + width) = some value)
    (behind : source.byteAt? (offset + (1 + width)) = some byte) :
    source.numberAt? (offset + 1) (width + 1) = some (value % 256 ^ width * 256 + byte) := by
  have place : offset + 1 + width = offset + (1 + width) := by omega
  exact numberAt?_succ (numberAt?_of_dropped number) (by rw [place]; exact behind)

/-- The bytes of a number. -/
theorem bytesAt_of_numberAt? {source : Source} {offset width value : Nat}
    (number : source.numberAt? offset width = some value) :
    source.bytesAt offset width = Bytes.ofNumber width value := by
  obtain ⟨fits, spelled⟩ := numberAt?_eq_some_iff.1 number
  have length : (source.bytesAt offset width).length = width := by
    rw [length_bytesAt]
    omega
  have same := Bytes.ofNumber_toNumber (source.bytesAt offset width)
  rw [length, spelled] at same
  exact same.symm

/-! ## What stands at an offset -/

section Stands

variable {source : Source} {offset : Nat} {field rest : Bytes}

theorem numberAt?_of_drop
    (stands : source.toBytes.drop offset = field ++ rest)
    (nonempty : field ≠ []) :
    source.numberAt? offset field.length = some (Bytes.toNumber field) := by
  have positive := List.length_pos_iff.2 nonempty
  have length := congrArg List.length stands
  rw [List.length_drop, List.length_append, ← size_eq_length] at length
  rw [numberAt?_eq_some_iff, bytesAt_eq_slice, Bytes.slice, stands, List.take_left]
  exact ⟨by omega, rfl⟩

theorem byteAt?_eq_head? (source : Source) (offset : Nat) :
    source.byteAt? offset = (source.toBytes.drop offset).head?.map UInt8.toNat := by
  rw [byteAt?, ← getElem?_toBytes, List.head?_drop]

theorem byteAt?_of_drop
    {byte : UInt8}
    (stands : source.toBytes.drop offset = field ++ byte :: rest) :
    source.byteAt? (offset + field.length) = some byte.toNat := by
  rw [byteAt?_eq_head?, ← List.drop_drop, stands, List.drop_left]
  rfl

theorem drop_of_drop (stands : source.toBytes.drop offset = field ++ rest) :
    source.toBytes.drop (offset + field.length) = rest := by
  rw [← List.drop_drop, stands, List.drop_left]

/-- A number that has been written is read where it stands. -/
theorem numberAt?_of_written
    {width number : Nat}
    (stands : source.toBytes.drop offset = Bytes.ofNumber width number ++ rest)
    (positive : 0 < width)
    (fits : number < 256 ^ width) :
    source.numberAt? offset width = some number ∧ source.toBytes.drop (offset + width) = rest := by
  have length := Bytes.length_ofNumber width number
  have read := numberAt?_of_drop stands (List.ne_nil_of_length_pos (by rw [length]; exact positive))
  have behind := drop_of_drop stands
  rw [length] at read behind
  rw [Bytes.toNumber_ofNumber_of_lt fits] at read
  exact ⟨read, behind⟩

end Stands

/-! ## Sources of the same bytes -/

section SameContent

variable {left right : Source} (same : left.content = right.content)

include same

theorem size_congr : left.size = right.size := by
  unfold size
  rw [same]

theorem bytesAt_congr (offset count : Nat) :
    left.bytesAt offset count = right.bytesAt offset count := by
  unfold bytesAt
  rw [same]

theorem numberAt?_congr (offset width : Nat) :
    left.numberAt? offset width = right.numberAt? offset width := by
  unfold numberAt?
  rw [size_congr same, bytesAt_congr same]

end SameContent

end Source

end MediaSplit

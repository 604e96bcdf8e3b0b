import MediaSplit.Id3.Tag
import MediaSplit.Proofs.Source

/-!
Contract: the tags that are found around a stream are those that were written.

Owns:
- that 7-bit digits spell the number they were made of;
- the sizes of the tags at both ends of a source that holds a tag, an untagged
  stream and a trailer, or such a stream alone.
-/

set_option autoImplicit false

namespace MediaSplit

/-- A range within the middle of some bytes. -/
theorem Source.bytesAt_of_middle
    {source : Source}
    {front middle back : Bytes}
    (holds : source.toBytes = front ++ middle ++ back)
    {offset count : Nat}
    (within : offset + count ≤ middle.length) :
    source.bytesAt (front.length + offset) count = middle.slice offset count := by
  rw [bytesAt_eq_slice, holds, List.append_assoc, Bytes.slice, ← List.drop_drop, List.drop_left,
    ← Bytes.slice, Bytes.slice_append _ within]

namespace Id3

/-! ## Sizes -/

theorem length_sevenBitDigits (count number : Nat) :
    (sevenBitDigits count number).length = count := by
  induction count generalizing number with
  | zero => rfl
  | succ count inductionHypothesis =>
      rw [sevenBitDigits, List.length_append, inductionHypothesis]
      rfl

theorem toNat_ofNat_mod (number : Nat) : (UInt8.ofNat (number % 128)).toNat = number % 128 := by
  rw [UInt8.toNat_ofNat']
  omega

theorem sevenBitDigits_lt {count number : Nat} :
    ∀ digit ∈ sevenBitDigits count number, digit < 0x80 := by
  induction count generalizing number with
  | zero => exact fun _ member => absurd member List.not_mem_nil
  | succ count inductionHypothesis =>
      intro digit member
      rcases List.mem_append.1 member with high | low
      · exact inductionHypothesis digit high
      · rw [List.mem_singleton.1 low, UInt8.lt_iff_toNat_lt, toNat_ofNat_mod]
        exact Nat.mod_lt _ (by decide)

theorem foldl_sevenBitDigits {count number : Nat} (fits : number < 128 ^ count) :
    (sevenBitDigits count number).foldl (fun value digit => value * 128 + digit.toNat) 0
      = number := by
  induction count generalizing number with
  | zero =>
      rw [Nat.pow_zero, Nat.lt_one_iff] at fits
      exact fits.symm
  | succ count inductionHypothesis =>
      have high : number / 128 < 128 ^ count := by
        rw [Nat.pow_succ] at fits
        omega
      rw [sevenBitDigits, List.foldl_append, inductionHypothesis high]
      simp only [List.foldl_cons, List.foldl_nil, toNat_ofNat_mod]
      omega

theorem sevenBitNumber?_sevenBitDigits {count number : Nat} (fits : number < 128 ^ count) :
    sevenBitNumber? (sevenBitDigits count number) = some number := by
  unfold sevenBitNumber?
  rw [if_pos (by simpa using @sevenBitDigits_lt count number), foldl_sevenBitDigits fits]

/-- Other first bytes are no header. -/
theorem describedSize?_of_take_ne
    {magic header : Bytes}
    (other : header.take 3 ≠ magic) :
    describedSize? magic header = none := by
  unfold describedSize?
  split
  next m0 m1 m2 _ _ _ _ _ _ _ =>
    rw [if_pos (.inl other)]
  next => rfl

theorem length_header (tag : Tag) : tag.header.length = headerSize := by
  rw [Tag.header, List.length_append, length_sevenBitDigits]
  rfl

theorem length_toBytes (tag : Tag) :
    tag.toBytes.length
      = headerSize + tag.body.length + if hasFooter tag.flags then headerSize else 0 := by
  rw [Tag.toBytes, List.length_append, List.length_append, length_header, tag.length_footer]
  rfl

theorem describedSize?_of_ne
    {magic : Bytes}
    {m0 m1 m2 major minor flags d0 d1 d2 d3 : UInt8}
    (isMagic : [m0, m1, m2] = magic)
    (major_ne : major ≠ 0xFF)
    (minor_ne : minor ≠ 0xFF) :
    describedSize? magic [m0, m1, m2, major, minor, flags, d0, d1, d2, d3]
      = (sevenBitNumber? [d0, d1, d2, d3]).map fun body =>
          headerSize + body + if hasFooter flags then headerSize else 0 := by
  refine if_neg ?_
  rintro (otherMagic | isMarked | isMarked)
  · exact otherMagic isMagic
  · exact major_ne isMarked
  · exact minor_ne isMarked

theorem describedSize?_header (tag : Tag) :
    describedSize? headerMagic tag.header = some tag.toBytes.length := by
  have spelled := sevenBitNumber?_sevenBitDigits tag.length_body_lt
  obtain ⟨d0, d1, d2, d3, digits⟩ :
      ∃ d0 d1 d2 d3, sevenBitDigits 4 tag.body.length = [d0, d1, d2, d3] := ⟨_, _, _, _, rfl⟩
  rw [digits] at spelled
  have described := @describedSize?_of_ne headerMagic _ _ _ _ _ tag.flags d0 d1 d2 d3 rfl
    tag.major_ne tag.minor_ne
  rw [spelled] at described
  rw [Tag.header, digits, length_toBytes]
  exact described

/-! ## Sources -/

section Sources

variable {source : Source} {front middle back : Bytes}

theorem leadingTagSize_of_tag
    {tag : Tag}
    (holds : source.toBytes = tag.toBytes ++ back) :
    leadingTagSize source = tag.toBytes.length := by
  have header : source.bytesAt 0 headerSize = tag.header := by
    rw [Source.bytesAt_eq_slice, holds, Bytes.slice, List.drop_zero, Tag.toBytes, List.append_assoc,
      List.append_assoc, ← length_header tag, List.take_left]
  rw [leadingTagSize, header, describedSize?_header]
  rfl

theorem leadingTagSize_of_untagged (untagged : IsUntagged source.toBytes) :
    leadingTagSize source = 0 := by
  have other : (source.bytesAt 0 headerSize).take 3 ≠ headerMagic := by
    rw [Source.take_bytesAt, Source.bytesAt_eq_slice]
    exact untagged.noHeader
  rw [leadingTagSize, describedSize?_of_take_ne other]
  rfl

/-- No tag is found behind an untagged stream, whatever stands before it. -/
theorem trailingTagSize_of_untagged
    (holds : source.toBytes = front ++ middle)
    (untagged : IsUntagged middle) :
    trailingTagSize source = 0 := by
  have long := untagged.long
  have size : source.size = front.length + middle.length := by
    rw [Source.size_eq_length, holds, List.length_append]
  rw [← List.append_nil (front ++ middle)] at holds
  have oldTag : oldTagSize? source = none := by
    have place : source.size - oldTagSize = front.length + (middle.length - 128) := by
      rw [size, oldTagSize]
      omega
    have other : source.bytesAt (source.size - oldTagSize) 3 ≠ oldMagic := by
      rw [place, Source.bytesAt_of_middle holds (by omega)]
      exact untagged.noOldTag
    exact if_neg fun found => other found.2
  have footer : footerTagSize? source = none := by
    have place : source.size - headerSize = front.length + (middle.length - 10) := by
      rw [size, headerSize]
      omega
    have other : (source.bytesAt (source.size - headerSize) headerSize).take 3 ≠ footerMagic := by
      rw [place, Source.take_bytesAt, Source.bytesAt_of_middle holds (by simp [headerSize]; omega)]
      exact untagged.noFooter
    unfold footerTagSize?
    rw [describedSize?_of_take_ne other]
    exact ite_self none
  rw [trailingTagSize, oldTag, footer]
  rfl

theorem trailingTagSize_of_trailer
    (holds : source.toBytes = front ++ middle ++ back)
    (untagged : IsUntagged middle)
    (isTrailer : IsTrailer back) :
    trailingTagSize source = back.length := by
  rcases isTrailer with rfl | ⟨fields, length, rfl⟩
  · rw [List.append_nil] at holds
    exact trailingTagSize_of_untagged holds untagged
  · have size : source.size = (front ++ middle).length + oldTagSize := by
      rw [Source.size_eq_length, holds, List.length_append, @List.length_append _ oldMagic,
        length]
      rfl
    have magic : source.bytesAt (source.size - oldTagSize) 3 = oldMagic := by
      rw [size, Nat.add_sub_cancel, Source.bytesAt_eq_slice, holds, Bytes.slice, List.drop_left]
      rfl
    have found : oldTagSize? source = some oldTagSize := if_pos ⟨by omega, magic⟩
    rw [trailingTagSize, found, List.length_append, length]
    rfl

end Sources

end Id3

end MediaSplit

import MediaSplit.Dts.Layout
import MediaSplit.Proofs.Bytes

/-!
Contract: stored layouts converted piece by piece.

Owns: that each conversion of a run of bytes is that of its pieces, where the
pieces are whole granules, and how many native bytes a run of stored ones makes.

Swapping keeps the number of bytes, so a whole number of padded blocks is one
before and after the bytes of its words are swapped.
-/

set_option autoImplicit false

namespace MediaSplit.Dts

/-! ## Swapped words -/

theorem swapBytes_append {front : Bytes} (back : Bytes) (whole : 2 ∣ front.length) :
    swapBytes (front ++ back) = swapBytes front ++ swapBytes back := by
  have nothingBehind : (Bytes.blocks 2 front).2 = [] := by
    have alone := Bytes.blocks_append [] Nat.two_pos whole
    rw [List.append_nil] at alone
    rw [alone, Bytes.blocks_nil Nat.two_pos]
  unfold swapBytes
  rw [Bytes.blocks_append back Nat.two_pos whole]
  simp only [List.flatMap_append, nothingBehind, List.append_nil, List.append_assoc]

theorem swapBytes_of_short {data : Bytes} (short : data.length < 2) : swapBytes data = data := by
  unfold swapBytes
  rw [Bytes.blocks_of_short short]
  rfl

theorem swapBytes_pair (first second : UInt8) : swapBytes [first, second] = [second, first] := by
  have block : Bytes.blocks 2 ([first, second] ++ []) = ([[first, second]], []) := by
    rw [Bytes.blocks_append_of_length [] Nat.two_pos rfl, Bytes.blocks_nil Nat.two_pos]
  rw [List.append_nil] at block
  unfold swapBytes
  rw [block]
  rfl

theorem length_swapBytes : ∀ data : Bytes, (swapBytes data).length = data.length
  | [] => congrArg _ (swapBytes_of_short Nat.two_pos)
  | [_] => congrArg _ (swapBytes_of_short Nat.one_lt_two)
  | first :: second :: rest => by
      have split : first :: second :: rest = [first, second] ++ rest := rfl
      rw [split, swapBytes_append rest ⟨1, rfl⟩, swapBytes_pair, List.length_append,
        List.length_append, length_swapBytes rest]
      rfl

/-! ## Padded words -/

theorem toNative_append {front : Bytes} (back : Bytes) (whole : paddedBlock ∣ front.length) :
    toNative (front ++ back) = toNative front ++ toNative back := by
  unfold toNative
  rw [Bytes.blocks_append back (by decide) whole, List.flatMap_append]

theorem length_nativeOfPadded (block : Bytes) : (nativeOfPadded block).length = nativeBlock :=
  Bytes.length_ofNumber _ _

theorem length_toNative (data : Bytes) :
    (toNative data).length = data.length / paddedBlock * nativeBlock := by
  have sizes : (Bytes.blocks paddedBlock data).1.map (fun block => (nativeOfPadded block).length)
      = (Bytes.blocks paddedBlock data).1.map fun _ => nativeBlock :=
    List.map_congr_left fun block _ => length_nativeOfPadded block
  rw [toNative, List.length_flatMap, sizes, List.map_const', List.sum_replicate_nat,
    Bytes.length_blocks data (by decide)]

/-! ## Whole layouts -/

namespace Layout

variable (layout : Layout)

theorem granule_pos : 0 < layout.granule := by
  unfold granule paddedBlock
  split
  · decide
  · split <;> decide

theorem dvd_of_granule_dvd
    {layout : Layout}
    {count : Nat}
    (whole : layout.granule ∣ count) :
    (layout.isSwapped = true → 2 ∣ count) ∧ (layout.isPadded = true → paddedBlock ∣ count) := by
  unfold granule at whole
  constructor
  · intro isSwapped
    rw [if_pos isSwapped] at whole
    split at whole
    · exact Nat.dvd_trans (by decide) whole
    · exact whole
  · intro isPadded
    rwa [if_pos isPadded] at whole

/-- The whole granules of a run of bytes that starts with some of them. -/
theorem take_granules_append
    {granule : Nat}
    {front : Bytes}
    (back : Bytes)
    (positive : 0 < granule)
    (whole : granule ∣ front.length) :
    (front ++ back).take ((front ++ back).length / granule * granule)
      = front ++ back.take (back.length / granule * granule) := by
  obtain ⟨count, length⟩ := whole
  have split : (front ++ back).length / granule * granule
      = front.length + back.length / granule * granule := by
    rw [List.length_append, length, Nat.mul_add_div positive, Nat.add_mul, Nat.mul_comm count]
  rw [split, List.take_length_add_append]

/-- Native bytes of whole granules with something behind them. -/
theorem decode_append
    (layout : Layout)
    {front : Bytes}
    (back : Bytes)
    (whole : layout.granule ∣ front.length) :
    layout.decode (front ++ back) = layout.decode front ++ layout.decode back := by
  obtain ⟨pairs, blocks⟩ := dvd_of_granule_dvd whole
  have usable := take_granules_append back layout.granule_pos whole
  have alone := take_granules_append [] layout.granule_pos whole
  simp only [List.append_nil, List.take_nil] at alone
  simp only [decode, usable, alone]
  generalize back.take (back.length / layout.granule * layout.granule) = behind
  cases isSwapped : layout.isSwapped with
  | false =>
      cases isPadded : layout.isPadded with
      | false => rfl
      | true => exact toNative_append behind (blocks isPadded)
  | true =>
      have swapped := swapBytes_append behind (pairs isSwapped)
      cases isPadded : layout.isPadded with
      | false => exact swapped
      | true =>
          show toNative (swapBytes (front ++ behind)) = _
          rw [swapped, toNative_append _ (by rw [length_swapBytes]; exact blocks isPadded)]
          rfl

theorem decode_nil (layout : Layout) : layout.decode [] = [] := by
  have none : layout.granule ∣ ([] : Bytes).length := Nat.dvd_zero _
  have doubled := layout.decode_append [] none
  exact List.self_eq_append_right.1 doubled

/-- The number of native bytes is told by the number of stored ones. -/
theorem length_decode (stored : Bytes) :
    (layout.decode stored).length = layout.decodedLength stored.length := by
  have usable := Nat.min_eq_left (Nat.div_mul_le_self stored.length layout.granule)
  unfold decode decodedLength
  dsimp only
  split
  · rw [length_toNative]
    split
    · rw [length_swapBytes, List.length_take, usable]
    · rw [List.length_take, usable]
  · split
    · rw [length_swapBytes, List.length_take, usable]
    · rw [List.length_take, usable]

theorem decodedLength_le (count : Nat) : layout.decodedLength count ≤ count := by
  have usable := Nat.div_mul_le_self count layout.granule
  unfold decodedLength paddedBlock nativeBlock
  dsimp only
  split
  · omega
  · exact usable

end Layout

end MediaSplit.Dts

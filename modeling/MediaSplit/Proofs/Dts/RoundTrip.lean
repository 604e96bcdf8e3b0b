import MediaSplit.Proofs.Dts.Layout
import Mathlib.Data.List.Induction

/-!
Contract: what is left of bytes that are stored in a layout and read back.

Owns:
- digits of a number in any base, most significant first, and that numbers and
  digits undo each other;
- `extendedSign`, a word whose two top bits repeat bit 13, and `signExtended`,
  a run of such words;
- the round trips: native bytes through padded words, padded words through
  native bytes, and native bytes through each `Layout`.

Eight words of 14 bits and fourteen bytes spell one number of 112 bits, so both
ways through a block go from digits in one base to digits in the other.
-/

set_option autoImplicit false

namespace MediaSplit.Dts

/-! ## Digits -/

/-- The number that digits spell, most significant first. -/
def ofDigits (base : Nat) (digits : List Nat) : Nat :=
  digits.foldl (fun value digit => value * base + digit) 0

/-- The low `count` digits of a number, most significant first. -/
def digitsOf (base count value : Nat) : List Nat :=
  (List.range count).map fun index => value / base ^ (count - 1 - index) % base

section Digits

variable {base : Nat}

theorem ofDigits_append_singleton (digits : List Nat) (digit : Nat) :
    ofDigits base (digits ++ [digit]) = ofDigits base digits * base + digit := by
  simp [ofDigits]

theorem digitsOf_succ (count value : Nat) :
    digitsOf base (count + 1) value = digitsOf base count (value / base) ++ [value % base] := by
  unfold digitsOf
  rw [List.range_succ, List.map_append, List.map_singleton]
  congr 1
  · apply List.map_congr_left
    intro index member
    have inside := List.mem_range.1 member
    rw [Nat.div_div_eq_div_mul, ← Nat.pow_succ', show count + 1 - 1 - index
      = (count - 1 - index).succ by omega]
  · simp

theorem ofDigits_digitsOf (count value : Nat) :
    ofDigits base (digitsOf base count value) = value % base ^ count := by
  induction count generalizing value with
  | zero => simp [digitsOf, ofDigits, Nat.mod_one]
  | succ count inductionHypothesis =>
      rw [digitsOf_succ, ofDigits_append_singleton, inductionHypothesis, Nat.pow_succ',
        Nat.mod_mul, Nat.mul_comm, Nat.add_comm]

theorem digitsOf_ofDigits
    {digits : List Nat}
    (small : ∀ digit ∈ digits, digit < base) :
    digitsOf base digits.length (ofDigits base digits) = digits := by
  induction digits using List.reverseRecOn with
  | nil => rfl
  | append_singleton digits digit inductionHypothesis =>
      have last := small digit (by simp)
      have positive : 0 < base := Nat.zero_lt_of_lt last
      rw [List.length_append, List.length_singleton, digitsOf_succ, ofDigits_append_singleton,
        Nat.mul_comm, Nat.mul_add_div positive, Nat.div_eq_of_lt last, Nat.add_zero,
        Nat.mul_add_mod, Nat.mod_eq_of_lt last,
        inductionHypothesis fun other member => small other (by simp [member])]

theorem ofDigits_lt
    {digits : List Nat}
    (positive : 0 < base)
    (small : ∀ digit ∈ digits, digit < base) :
    ofDigits base digits < base ^ digits.length := by
  have whole : ofDigits base _ = _ := ofDigits_digitsOf digits.length (ofDigits base digits)
  rw [digitsOf_ofDigits small] at whole
  rw [whole]
  exact Nat.mod_lt _ (Nat.pow_pos positive)

end Digits

/-! ## Signs of words -/

/-- The word with copies of bit 13 in its two top bits. -/
def extendedSign (word : Nat) : Nat :=
  2 ^ 14 * (if word.testBit 13 then 3 else 0) + word % 2 ^ 14

/-- The two top bits of the word repeat bit 13. -/
def IsSignExtended (word : Nat) : Prop :=
  word.testBit 15 = word.testBit 13 ∧ word.testBit 14 = word.testBit 13

theorem testBit_extendedSign (word bit : Nat) :
    (extendedSign word).testBit bit
      = if bit < 14 then word.testBit bit else decide (bit < 16) && word.testBit 13 := by
  have low : word % 2 ^ 14 < 2 ^ 14 := Nat.mod_lt _ (by decide)
  rw [extendedSign, Nat.testBit_two_pow_mul_add _ low, Nat.testBit_mod_two_pow]
  by_cases below : bit < 14
  · simp [below]
  · obtain ⟨above, rfl⟩ := Nat.exists_eq_add_of_le (Nat.le_of_not_lt below)
    rw [if_neg below, if_neg below, Nat.add_sub_cancel_left]
    match above with
    | 0 => cases word.testBit 13 <;> rfl
    | 1 => cases word.testBit 13 <;> rfl
    | above + 2 =>
        have beyond : ¬14 + (above + 2) < 16 := by omega
        cases word.testBit 13 <;> simp [beyond, Nat.testBit_succ]

theorem paddedWord_eq_extendedSign (word : Nat) :
    paddedWord (word % 2 ^ 14) = extendedSign word := by
  have sign : word.testBit 13 = true ↔ 2 ^ 13 ≤ word % 2 ^ 14 := by
    rw [Nat.testBit_eq_decide_div_mod_eq, decide_eq_true_iff]
    omega
  unfold paddedWord extendedSign
  by_cases negative : 2 ^ 13 ≤ word % 2 ^ 14
  · rw [if_pos negative, if_pos (sign.2 negative)]
    omega
  · rw [if_neg negative, if_neg (mt sign.1 negative)]
    omega

theorem extendedSign_lt (word : Nat) : extendedSign word < 2 ^ 16 := by
  unfold extendedSign
  split <;> omega

theorem extendedSign_eq_self_iff {word : Nat} (isWord : word < 2 ^ 16) :
    extendedSign word = word ↔ IsSignExtended word := by
  constructor
  · intro same
    have first := testBit_extendedSign word 15
    have second := testBit_extendedSign word 14
    rw [same] at first second
    exact ⟨first, second⟩
  · rintro ⟨first, second⟩
    apply Nat.eq_of_testBit_eq
    intro bit
    rw [testBit_extendedSign]
    by_cases low : bit < 14
    · rw [if_pos low]
    · rw [if_neg low]
      by_cases isTop : bit < 16
      · obtain rfl | rfl : bit = 14 ∨ bit = 15 := by omega
        · simpa using second.symm
        · simpa using first.symm
      · have small : word < 2 ^ bit :=
          Nat.lt_of_lt_of_le isWord (Nat.pow_le_pow_right Nat.two_pos (Nat.le_of_not_lt isTop))
        simp [isTop, Nat.testBit_lt_two_pow small]

/-- Every word of the data with copies of bit 13 in its two top bits; an odd
last byte is dropped. -/
def signExtended (data : Bytes) : Bytes :=
  (Bytes.blocks 2 data).1.flatMap fun word => Bytes.ofNumber 2 (extendedSign (Bytes.toNumber word))

theorem signExtended_append {front : Bytes} (back : Bytes) (whole : 2 ∣ front.length) :
    signExtended (front ++ back) = signExtended front ++ signExtended back := by
  unfold signExtended
  rw [Bytes.blocks_append back Nat.two_pos whole, List.flatMap_append]

theorem ofNumber_extendedSign_eq_self_iff {word : Bytes} (length : word.length = 2) :
    Bytes.ofNumber 2 (extendedSign (Bytes.toNumber word)) = word
      ↔ IsSignExtended (Bytes.toNumber word) := by
  have isWord := Bytes.toNumber_lt word
  rw [length] at isWord
  rw [← extendedSign_eq_self_iff isWord]
  constructor
  · intro same
    have number := congrArg Bytes.toNumber same
    rwa [Bytes.toNumber_ofNumber, Nat.mod_eq_of_lt (show _ < 256 ^ 2 from extendedSign_lt _)]
      at number
  · intro same
    rw [same]
    exact (Bytes.eq_ofNumber length rfl).symm

theorem signExtended_eq_self_iff {data : Bytes} (whole : 2 ∣ data.length) :
    signExtended data = data
      ↔ ∀ word ∈ (Bytes.blocks 2 data).1, IsSignExtended (Bytes.toNumber word) := by
  let extend (word : Bytes) := Bytes.ofNumber 2 (extendedSign (Bytes.toNumber word))
  have joined : (Bytes.blocks 2 data).1.flatten = data := by
    rw [Bytes.flatten_blocks data Nat.two_pos, Bytes.wholeBlocks_eq_self_iff.2 whole]
  have words : (Bytes.blocks 2 (signExtended data)).1 = (Bytes.blocks 2 data).1.map extend := by
    rw [signExtended, List.flatMap_def, Bytes.blocks_flatten Nat.two_pos (by simp)]
  have wordwise : signExtended data = data
      ↔ (Bytes.blocks 2 data).1.map extend = (Bytes.blocks 2 data).1.map id := by
    rw [List.map_id]
    constructor
    · intro same
      rw [← words, same]
    · intro same
      rw [signExtended, List.flatMap_def, same, joined]
  rw [wordwise, List.map_inj_left]
  exact forall₂_congr fun word member =>
    ofNumber_extendedSign_eq_self_iff (Bytes.length_of_mem_blocks member)

/-! ## Blocks -/

theorem payloadOfWords_eq (words : List Bytes) :
    payloadOfWords words
      = ofDigits (2 ^ 14) (words.map fun word => Bytes.toNumber word % 2 ^ 14) := by
  rw [payloadOfWords, ofDigits, List.foldl_map]

theorem paddedOfNative_eq (block : Bytes) :
    paddedOfNative block
      = ((digitsOf (2 ^ 14) 8 (Bytes.toNumber block)).map fun digit =>
          Bytes.ofNumber 2 (paddedWord digit)).flatten := by
  simp only [paddedOfNative, digitsOf, List.flatMap_def, List.map_map, Nat.pow_mul]
  rfl

theorem length_paddedOfNative (block : Bytes) : (paddedOfNative block).length = paddedBlock := by
  simp [paddedOfNative, paddedBlock, List.range_succ]

/-- The low bits of a padded word are what it pads. -/
theorem toNumber_paddedWord_mod {payload : Nat} (small : payload < 2 ^ 14) :
    Bytes.toNumber (Bytes.ofNumber 2 (paddedWord payload)) % 2 ^ 14 = payload := by
  rw [Bytes.toNumber_ofNumber, paddedWord]
  split <;> omega

theorem nativeOfPadded_paddedOfNative {block : Bytes} (length : block.length = nativeBlock) :
    nativeOfPadded (paddedOfNative block) = block := by
  have value := Bytes.toNumber_lt block
  rw [length] at value
  have digits : ∀ digit ∈ digitsOf (2 ^ 14) 8 (Bytes.toNumber block),
      Bytes.toNumber (Bytes.ofNumber 2 (paddedWord digit)) % 2 ^ 14 = digit := by
    intro digit member
    apply toNumber_paddedWord_mod
    obtain ⟨index, -, rfl⟩ := List.mem_map.1 member
    exact Nat.mod_lt _ (by decide)
  have payload : payloadOfWords (Bytes.blocks 2 (paddedOfNative block)).1
      = Bytes.toNumber block := by
    rw [paddedOfNative_eq, Bytes.blocks_flatten Nat.two_pos (by simp), payloadOfWords_eq]
    simp only [List.map_map, Function.comp_def]
    rw [List.map_congr_left digits, List.map_id', ofDigits_digitsOf]
    exact Nat.mod_eq_of_lt value
  rw [nativeOfPadded, payload, ← length, Bytes.ofNumber_toNumber]

theorem paddedOfNative_nativeOfPadded {block : Bytes} (length : block.length = paddedBlock) :
    paddedOfNative (nativeOfPadded block) = signExtended block := by
  let payloads := (Bytes.blocks 2 block).1.map fun word => Bytes.toNumber word % 2 ^ 14
  have count : payloads.length = 8 := by
    rw [List.length_map, Bytes.length_blocks _ Nat.two_pos, length]
    rfl
  have small : ∀ payload ∈ payloads, payload < 2 ^ 14 := by
    intro payload member
    obtain ⟨word, -, rfl⟩ := List.mem_map.1 member
    exact Nat.mod_lt _ (by decide)
  have fits : ofDigits (2 ^ 14) payloads < 256 ^ nativeBlock := by
    have below := ofDigits_lt (by decide) small
    rwa [count] at below
  have digits := digitsOf_ofDigits small
  rw [count] at digits
  rw [paddedOfNative_eq, nativeOfPadded, payloadOfWords_eq, Bytes.toNumber_ofNumber,
    Nat.mod_eq_of_lt fits, digits, List.map_map, signExtended, List.flatMap_def]
  simp only [Function.comp_def, paddedWord_eq_extendedSign]

/-! ## Runs of blocks -/

theorem blocks_toPadded (native : Bytes) :
    (Bytes.blocks paddedBlock (toPadded native)).1
      = (Bytes.blocks nativeBlock native).1.map paddedOfNative := by
  rw [toPadded, List.flatMap_def,
    Bytes.blocks_flatten (by decide) (by simp [length_paddedOfNative])]

theorem blocks_toNative (padded : Bytes) :
    (Bytes.blocks nativeBlock (toNative padded)).1
      = (Bytes.blocks paddedBlock padded).1.map nativeOfPadded := by
  rw [toNative, List.flatMap_def,
    Bytes.blocks_flatten (by decide) (by simp [length_nativeOfPadded])]

/-- Native bytes come back from padded words, up to the last whole block. -/
theorem toNative_toPadded (native : Bytes) :
    toNative (toPadded native) = Bytes.wholeBlocks nativeBlock native := by
  have back : ∀ block ∈ (Bytes.blocks nativeBlock native).1,
      nativeOfPadded (paddedOfNative block) = block :=
    fun _ member => nativeOfPadded_paddedOfNative (Bytes.length_of_mem_blocks member)
  rw [toNative, blocks_toPadded, List.flatMap_def, List.map_map]
  simp only [Function.comp_def]
  rw [List.map_congr_left back, List.map_id', Bytes.flatten_blocks _ (by decide)]

theorem flatMap_signExtended
    {blocks : List Bytes}
    (whole : ∀ block ∈ blocks, 2 ∣ block.length) :
    blocks.flatMap signExtended = signExtended blocks.flatten := by
  induction blocks with
  | nil => simp [signExtended, Bytes.blocks_nil Nat.two_pos]
  | cons block blocks inductionHypothesis =>
      rw [List.flatMap_cons, List.flatten_cons, signExtended_append _ (whole block (by simp)),
        inductionHypothesis fun other member => whole other (by simp [member])]

/-- Padded words come back from native bytes with their signs extended, up to
the last whole block. -/
theorem toPadded_toNative (padded : Bytes) :
    toPadded (toNative padded) = signExtended (Bytes.wholeBlocks paddedBlock padded) := by
  have length {block : Bytes} (member : block ∈ (Bytes.blocks paddedBlock padded).1) :
      block.length = paddedBlock :=
    Bytes.length_of_mem_blocks member
  have back : ∀ block ∈ (Bytes.blocks paddedBlock padded).1,
      paddedOfNative (nativeOfPadded block) = signExtended block :=
    fun _ member => paddedOfNative_nativeOfPadded (length member)
  have pairs : ∀ block ∈ (Bytes.blocks paddedBlock padded).1, 2 ∣ block.length := by
    intro block member
    rw [length member]
    decide
  rw [toPadded, blocks_toNative, List.flatMap_def, List.map_map]
  simp only [Function.comp_def]
  rw [List.map_congr_left back, ← List.flatMap_def, flatMap_signExtended pairs,
    Bytes.flatten_blocks _ (by decide)]

theorem dvd_length_toPadded (native : Bytes) : paddedBlock ∣ (toPadded native).length := by
  have joined := Bytes.flatten_blocks (toPadded native) (show 0 < paddedBlock by decide)
  rw [blocks_toPadded, ← List.flatMap_def] at joined
  exact Bytes.wholeBlocks_eq_self_iff.1 joined.symm

/-- Padded words come back unchanged where they are whole blocks of words whose
signs are extended, and nowhere else. -/
theorem toPadded_toNative_eq_self_iff {padded : Bytes} :
    toPadded (toNative padded) = padded
      ↔ paddedBlock ∣ padded.length
        ∧ ∀ word ∈ (Bytes.blocks 2 padded).1, IsSignExtended (Bytes.toNumber word) := by
  have pairs (whole : paddedBlock ∣ padded.length) : 2 ∣ padded.length :=
    Nat.dvd_trans (by decide) whole
  have alike (whole : paddedBlock ∣ padded.length) :
      toPadded (toNative padded) = signExtended padded := by
    rw [toPadded_toNative, Bytes.wholeBlocks_eq_self_iff.2 whole]
  constructor
  · intro same
    have whole : paddedBlock ∣ padded.length := by
      rw [← same]
      exact dvd_length_toPadded _
    rw [alike whole] at same
    exact ⟨whole, (signExtended_eq_self_iff (pairs whole)).1 same⟩
  · rintro ⟨whole, signs⟩
    rw [alike whole]
    exact (signExtended_eq_self_iff (pairs whole)).2 signs

/-! ## Swapped words -/

theorem swapBytes_swapBytes : ∀ data : Bytes, swapBytes (swapBytes data) = data
  | [] => by
      have short : ([] : Bytes).length < 2 := Nat.two_pos
      rw [swapBytes_of_short short, swapBytes_of_short short]
  | [byte] => by
      have short : [byte].length < 2 := Nat.one_lt_two
      rw [swapBytes_of_short short, swapBytes_of_short short]
  | first :: second :: rest => by
      have split : first :: second :: rest = [first, second] ++ rest := rfl
      rw [split, swapBytes_append rest ⟨1, rfl⟩, swapBytes_pair,
        swapBytes_append _ ⟨1, rfl⟩, swapBytes_pair, swapBytes_swapBytes rest]

theorem wholeBlocks_swapBytes (data : Bytes) :
    Bytes.wholeBlocks 2 (swapBytes data) = swapBytes (Bytes.wholeBlocks 2 data) := by
  have whole := Bytes.dvd_length_wholeBlocks 2 data
  have rest : (data.drop (data.length / 2 * 2)).length / 2 * 2 = 0 := by
    rw [List.length_drop]
    omega
  have split : data = Bytes.wholeBlocks 2 data ++ data.drop (data.length / 2 * 2) :=
    (List.take_append_drop _ data).symm
  have swapped : swapBytes data
      = swapBytes (Bytes.wholeBlocks 2 data) ++ swapBytes (data.drop (data.length / 2 * 2)) := by
    rw [← swapBytes_append _ whole, ← split]
  rw [← length_swapBytes] at whole rest
  rw [swapped, Bytes.wholeBlocks, Layout.take_granules_append _ Nat.two_pos whole, rest,
    List.take_zero, List.append_nil]

/-! ## Whole layouts -/

namespace Layout

/-- Native bytes are stored in multiples of this. -/
def nativeGranule (layout : Layout) : Nat :=
  if layout.isPadded then nativeBlock else if layout.isSwapped then 2 else 1

/-- Stored bytes read back are the native ones, up to the last whole granule. -/
theorem decode_encode (layout : Layout) (native : Bytes) :
    layout.decode (layout.encode native) = Bytes.wholeBlocks layout.nativeGranule native := by
  have padded : Bytes.wholeBlocks paddedBlock (toPadded native) = toPadded native :=
    Bytes.wholeBlocks_eq_self_iff.2 (dvd_length_toPadded native)
  have swapped : Bytes.wholeBlocks paddedBlock (swapBytes (toPadded native))
      = swapBytes (toPadded native) := by
    rw [Bytes.wholeBlocks_eq_self_iff, length_swapBytes]
    exact dvd_length_toPadded native
  match layout with
  | ⟨false, false⟩ => rfl
  | ⟨true, false⟩ =>
      show swapBytes (Bytes.wholeBlocks 2 (swapBytes native)) = Bytes.wholeBlocks 2 native
      rw [wholeBlocks_swapBytes, swapBytes_swapBytes]
  | ⟨false, true⟩ =>
      show toNative (Bytes.wholeBlocks paddedBlock (toPadded native)) = _
      rw [padded, toNative_toPadded]
      rfl
  | ⟨true, true⟩ =>
      show toNative (swapBytes (Bytes.wholeBlocks paddedBlock (swapBytes (toPadded native)))) = _
      rw [swapped, swapBytes_swapBytes, toNative_toPadded]
      rfl

end Layout

/-- What comes back from a stored layout and what comes back from native bytes:
native bytes up to their last whole block, and padded words with their two top
bits set to bit 13, so unchanged exactly if they are such words already. -/
theorem layouts_roundTrip :
    (∀ native, toNative (toPadded native) = Bytes.wholeBlocks nativeBlock native)
      ∧ (∀ padded,
          toPadded (toNative padded) = signExtended (Bytes.wholeBlocks paddedBlock padded)
            ∧ (toPadded (toNative padded) = padded
              ↔ paddedBlock ∣ padded.length
                ∧ ∀ word ∈ (Bytes.blocks 2 padded).1, IsSignExtended (Bytes.toNumber word)))
      ∧ ∀ (layout : Layout) (native : Bytes),
          layout.decode (layout.encode native)
            = Bytes.wholeBlocks layout.nativeGranule native :=
  ⟨toNative_toPadded, fun padded => ⟨toPadded_toNative padded, toPadded_toNative_eq_self_iff⟩,
    Layout.decode_encode⟩

end MediaSplit.Dts

import MediaSplit.Bytes.FirstSuffix

/-!
Contract: runs of bytes taken apart and put together.

Owns:
- the big-endian number of two runs joined, and that a number and a width
  determine the bytes;
- slices of two runs joined;
- `Bytes.DecidedBy`, a parse that looks at its leading bytes only;
- searches that start behind bytes at which nothing is accepted;
- the whole blocks of two runs joined, and that cutting into blocks and joining
  them undo each other.
-/

set_option autoImplicit false

namespace MediaSplit.Bytes

/-! ## Numbers -/

theorem toNumber_append (front back : Bytes) :
    toNumber (front ++ back) = toNumber front * 256 ^ back.length + toNumber back := by
  induction back generalizing front with
  | nil => simp [toNumber]
  | cons byte back inductionHypothesis =>
      have joined : front ++ byte :: back = front ++ [byte] ++ back := by simp
      have single : toNumber (byte :: back) = toNumber ([byte] ++ back) := rfl
      have alone : toNumber [byte] = byte.toNat := by simp [toNumber]
      rw [joined, single, inductionHypothesis, inductionHypothesis, toNumber_append_singleton,
        alone, List.length_cons, Nat.pow_succ, Nat.add_mul, Nat.mul_assoc,
        Nat.mul_comm 256 (256 ^ back.length)]
      omega

theorem toNumber_lt (bytes : Bytes) : toNumber bytes < 256 ^ bytes.length := by
  induction bytes with
  | nil => simp [toNumber]
  | cons byte rest inductionHypothesis =>
      have split := toNumber_append [byte] rest
      have alone : toNumber [byte] = byte.toNat := by simp [toNumber]
      have small : byte.toNat * 256 ^ rest.length ≤ 255 * 256 ^ rest.length :=
        Nat.mul_le_mul_right _ (by have := byte.toNat_lt; omega)
      rw [List.singleton_append, alone] at split
      rw [split, List.length_cons, Nat.pow_succ]
      omega

/-- Bytes are determined by their number and their count. -/
theorem ofNumber_toNumber (bytes : Bytes) : ofNumber bytes.length (toNumber bytes) = bytes := by
  suffices reversed : ∀ bytes : Bytes,
      ofNumber bytes.length (toNumber bytes.reverse) = bytes.reverse by
    have again := reversed bytes.reverse
    rwa [List.reverse_reverse, List.length_reverse] at again
  intro bytes
  induction bytes with
  | nil => rfl
  | cons byte rest inductionHypothesis =>
      have below := byte.toNat_lt
      rw [List.reverse_cons, toNumber_append_singleton, List.length_cons, ofNumber]
      have high : (toNumber rest.reverse * 256 + byte.toNat) / 256 = toNumber rest.reverse := by
        omega
      have low : UInt8.ofNat (toNumber rest.reverse * 256 + byte.toNat) = byte := by
        apply UInt8.toNat_inj.1
        rw [UInt8.toNat_ofNat']
        omega
      rw [high, low, inductionHypothesis]

theorem eq_ofNumber
    {bytes : Bytes}
    {width number : Nat}
    (length : bytes.length = width)
    (spells : toNumber bytes = number) :
    bytes = ofNumber width number := by
  rw [← length, ← spells, ofNumber_toNumber]

/-- A number that fits in so many bytes is written as it is. -/
theorem toNumber_ofNumber_of_lt {width number : Nat} (fits : number < 256 ^ width) :
    toNumber (ofNumber width number) = number := by
  rw [toNumber_ofNumber, Nat.mod_eq_of_lt fits]

/-- Leading bytes spell a number where they are the bytes it is written in. -/
theorem toNumber_take_eq_iff
    {bytes : Bytes}
    {width number : Nat}
    (fits : number < 256 ^ width)
    (enough : width ≤ bytes.length) :
    toNumber (bytes.take width) = number ↔ ofNumber width number <+: bytes := by
  have length : (bytes.take width).length = width := by
    rw [List.length_take, Nat.min_eq_left enough]
  constructor
  · intro spells
    rw [← eq_ofNumber length spells]
    exact List.take_prefix width bytes
  · rintro ⟨rest, rfl⟩
    rw [List.take_left' (length_ofNumber width number), toNumber_ofNumber_of_lt fits]

/-! ## Slices -/

theorem slice_append
    {bytes : Bytes}
    {offset count : Nat}
    (back : Bytes)
    (inside : offset + count ≤ bytes.length) :
    (bytes ++ back).slice offset count = bytes.slice offset count := by
  have enough : count ≤ (bytes.drop offset).length := by
    rw [List.length_drop]
    omega
  rw [slice, slice, List.drop_append_of_le_length (by omega),
    List.take_append_of_le_length enough]

/-! ## Parses of leading bytes -/

/-- A parse that refuses fewer than `count` bytes and looks at no others. -/
structure DecidedBy {α : Type} (count : Nat) (parse? : Bytes → Option α) : Prop where
  append :
    ∀ {front : Bytes} (back : Bytes), count ≤ front.length → parse? (front ++ back) = parse? front
  long : ∀ {data : Bytes} {value : α}, parse? data = some value → count ≤ data.length

theorem DecidedBy.none_of_short
    {α : Type}
    {count : Nat}
    {parse? : Bytes → Option α}
    (decided : DecidedBy count parse?)
    {data : Bytes}
    (short : data.length < count) :
    parse? data = none := by
  cases parsed : parse? data with
  | none => rfl
  | some value => exact absurd (decided.long parsed) (Nat.not_le.2 short)

section Leading

variable
  {α ε : Type}
  {count : Nat}
  {parse : Bytes → Except ε α}
  {ofLeading : Bytes → Except ε α}
  {refusal : Bytes → ε}

/-- A parse that no bytes behind the first `count` can change looks at these
alone. -/
theorem leads_of_append
    (sees : ∀ data, parse data
      = if hasAtLeast count data then ofLeading data else .error (refusal data))
    (append : ∀ {front : Bytes}, count ≤ front.length →
      ∀ back, ofLeading (front ++ back) = ofLeading front)
    (data : Bytes) :
    parse data
      = if hasAtLeast count data then ofLeading (data.take count) else .error (refusal data) := by
  rw [sees]
  split
  next enough =>
    have length := (hasAtLeast_iff _ _).1 enough
    have front : count ≤ (data.take count).length := by
      rw [List.length_take]
      exact Nat.le_min.2 ⟨Nat.le_refl _, length⟩
    have joined := append front (data.drop count)
    rwa [List.take_append_drop] at joined
  next => rfl

/-- A parse of leading bytes that are all there gives what they stand for. -/
theorem ofLeading_of_toOption
    (leads : ∀ data, parse data
      = if hasAtLeast count data then ofLeading (data.take count) else .error (refusal data))
    {data : Bytes}
    {value : α}
    (parsed : (parse data).toOption = some value) :
    count ≤ data.length ∧ ofLeading (data.take count) = .ok value := by
  rw [leads] at parsed
  split at parsed
  next enough =>
    refine ⟨(hasAtLeast_iff _ _).1 enough, ?_⟩
    cases outcome : ofLeading (data.take count) with
    | error error =>
        rw [outcome] at parsed
        cases parsed
    | ok other =>
        rw [outcome] at parsed
        cases parsed
        rfl
  next => cases parsed

/-- What is refused counts too: the outcome of a parse of leading bytes that are all
there stays the same whatever stands behind them. -/
theorem append_of_leading
    (leads : ∀ data, parse data
      = if hasAtLeast count data then ofLeading (data.take count) else .error (refusal data))
    {front : Bytes}
    (enough : count ≤ front.length)
    (back : Bytes) :
    parse (front ++ back) = parse front := by
  have enoughLater : count ≤ (front ++ back).length := by
    rw [List.length_append]
    exact Nat.le_add_right_of_le enough
  rw [leads, leads, if_pos ((hasAtLeast_iff _ _).2 enough),
    if_pos ((hasAtLeast_iff _ _).2 enoughLater), List.take_append_of_le_length enough]

theorem decidedBy_of_leading
    (leads : ∀ data, parse data
      = if hasAtLeast count data then ofLeading (data.take count) else .error (refusal data)) :
    DecidedBy count fun data => (parse data).toOption where
  append back enough := congrArg Except.toOption (append_of_leading leads enough back)
  long parsed := (ofLeading_of_toOption leads parsed).1

end Leading

/-! ## Searches -/

/-- A search may start behind bytes at which nothing is accepted. -/
theorem firstSuffix?_of_skipped
    {α : Type}
    {accepts : Bytes → Option α}
    {bytes : Bytes}
    {count : Nat}
    (skipped : ∀ place < count, accepts (bytes.drop place) = none) :
    firstSuffix? accepts bytes
      = (firstSuffix? accepts (bytes.drop count)).map fun found => (count + found.1, found.2) := by
  cases behind : firstSuffix? accepts (bytes.drop count) with
  | none =>
      rw [Option.map_none, firstSuffix?_eq_none_iff]
      rw [firstSuffix?_eq_none_iff] at behind
      intro place inside
      by_cases early : place < count
      · exact skipped place early
      · have refused := behind (place - count) (by rw [List.length_drop]; omega)
        rwa [List.drop_drop, Nat.add_sub_cancel' (by omega)] at refused
  | some found =>
      obtain ⟨place, answer⟩ := found
      rw [Option.map_some, firstSuffix?_eq_some_iff]
      rw [firstSuffix?_eq_some_iff, List.length_drop, List.drop_drop] at behind
      obtain ⟨inside, accepted, before⟩ := behind
      refine ⟨by omega, accepted, ?_⟩
      intro earlier isEarlier
      by_cases early : earlier < count
      · exact skipped earlier early
      · have refused := before (earlier - count) (by omega)
        rwa [List.drop_drop, Nat.add_sub_cancel' (by omega)] at refused

/-- A search ends at once where the first byte is accepted. -/
theorem firstSuffix?_of_accepted
    {α : Type}
    {accepts : Bytes → Option α}
    {bytes : Bytes}
    {answer : α}
    (nonempty : bytes ≠ [])
    (accepted : accepts bytes = some answer) :
    firstSuffix? accepts bytes = some (0, answer) := by
  rw [firstSuffix?_eq_some_iff]
  exact ⟨List.length_pos_iff.2 nonempty, accepted, fun _ absurd => nomatch absurd⟩

/-! ## Blocks -/

theorem blocks_of_short {size : Nat} {bytes : Bytes} (short : bytes.length < size) :
    blocks size bytes = ([], bytes) := by
  unfold blocks
  rw [blocksOnto, if_neg]
  · rfl
  · rintro ⟨-, fits⟩
    exact absurd ((hasAtLeast_iff _ _).1 fits) (Nat.not_le.2 short)

theorem blocks_nil {size : Nat} (positive : 0 < size) : blocks size [] = ([], []) :=
  blocks_of_short positive

/-- Blocks found before stand in front of all others. -/
theorem blocksOnto_eq (size : Nat) (found : List Bytes) (bytes : Bytes) :
    blocksOnto size found bytes
      = (found.reverse ++ (blocks size bytes).1, (blocks size bytes).2) := by
  unfold blocks
  induction amount : bytes.length using Nat.strongRecOn generalizing found bytes with
  | ind bound inductionHypothesis =>
      rw [blocksOnto.eq_def size found, blocksOnto.eq_def size []]
      by_cases fits : size ≠ 0 ∧ hasAtLeast size bytes = true
      · have enough := (hasAtLeast_iff _ _).1 fits.2
        have shorter : (bytes.drop size).length < bound := by
          rw [List.length_drop]
          omega
        rw [if_pos fits, if_pos fits, inductionHypothesis _ shorter (bytes.take size :: found) _ rfl,
          inductionHypothesis _ shorter [bytes.take size] _ rfl]
        simp
      · rw [if_neg fits, if_neg fits]
        simp

/-- The first block is cut off, and the others follow. -/
theorem blocks_append_of_length
    {size : Nat}
    {front : Bytes}
    (back : Bytes)
    (positive : 0 < size)
    (length : front.length = size) :
    blocks size (front ++ back) = (front :: (blocks size back).1, (blocks size back).2) := by
  have fits : size ≠ 0 ∧ hasAtLeast size (front ++ back) = true := by
    rw [hasAtLeast_iff, List.length_append]
    omega
  rw [blocks, blocksOnto, if_pos fits, blocksOnto_eq, List.take_left' length,
    List.drop_left' length]
  rfl

/-- Blocks of whole blocks with something behind them. -/
theorem blocks_append
    {size : Nat}
    {front : Bytes}
    (back : Bytes)
    (positive : 0 < size)
    (whole : size ∣ front.length) :
    blocks size (front ++ back)
      = ((blocks size front).1 ++ (blocks size back).1, (blocks size back).2) := by
  obtain ⟨count, length⟩ := whole
  induction count generalizing front with
  | zero =>
      obtain rfl : front = [] := List.length_eq_zero_iff.1 length
      rw [blocks_nil positive]
      rfl
  | succ count inductionHypothesis =>
      rw [Nat.mul_succ] at length
      have first : (front.take size).length = size := by
        rw [List.length_take]
        omega
      have rest : (front.drop size).length = size * count := by
        rw [List.length_drop]
        omega
      have split := List.take_append_drop size front
      rw [← split, List.append_assoc, blocks_append_of_length _ positive first,
        blocks_append_of_length _ positive first, inductionHypothesis rest]
      rfl

theorem length_of_mem_blocks
    {size : Nat}
    {bytes block : Bytes}
    (member : block ∈ (blocks size bytes).1) :
    block.length = size := by
  by_cases fits : size ≠ 0 ∧ hasAtLeast size bytes = true
  · have enough := (hasAtLeast_iff _ _).1 fits.2
    have shorter : (bytes.drop size).length < bytes.length := by
      rw [List.length_drop]
      omega
    have first : (bytes.take size).length = size := by
      rw [List.length_take, Nat.min_eq_left enough]
    have split := blocks_append_of_length (bytes.drop size) (Nat.pos_of_ne_zero fits.1) first
    rw [List.take_append_drop] at split
    rw [split] at member
    rcases List.mem_cons.1 member with rfl | later
    · exact first
    · exact length_of_mem_blocks later
  · rw [blocks, blocksOnto, if_neg fits] at member
    cases member
termination_by bytes.length

/-- Runs of one size are the blocks of all of them joined. -/
theorem blocks_flatten
    {size : Nat}
    {runs : List Bytes}
    (positive : 0 < size)
    (sized : ∀ run ∈ runs, run.length = size) :
    blocks size runs.flatten = (runs, []) := by
  induction runs with
  | nil => exact blocks_nil positive
  | cons run runs inductionHypothesis =>
      have later := inductionHypothesis fun other member => sized other (by simp [member])
      rw [List.flatten_cons, blocks_append_of_length _ positive (sized run (by simp)), later]

/-- As many whole blocks of `size` bytes as there are. -/
def wholeBlocks (size : Nat) (bytes : Bytes) : Bytes := bytes.take (bytes.length / size * size)

theorem dvd_length_wholeBlocks (size : Nat) (bytes : Bytes) :
    size ∣ (wholeBlocks size bytes).length := by
  rw [wholeBlocks, List.length_take, Nat.min_eq_left (Nat.div_mul_le_self _ _)]
  exact Nat.dvd_mul_left _ _

theorem wholeBlocks_eq_self_iff {size : Nat} {bytes : Bytes} :
    wholeBlocks size bytes = bytes ↔ size ∣ bytes.length := by
  constructor
  · intro same
    rw [← same]
    exact dvd_length_wholeBlocks size bytes
  · intro whole
    rw [wholeBlocks, Nat.div_mul_cancel whole, List.take_length]

/-- Blocks joined are the whole blocks of the bytes they were cut from. -/
theorem flatten_blocks {size : Nat} (bytes : Bytes) (positive : 0 < size) :
    (blocks size bytes).1.flatten = wholeBlocks size bytes := by
  by_cases short : bytes.length < size
  · simp [blocks_of_short short, wholeBlocks, Nat.div_eq_of_lt short]
  · have shorter : (bytes.drop size).length < bytes.length := by
      rw [List.length_drop]
      omega
    have first : (bytes.take size).length = size := by
      rw [List.length_take]
      omega
    have count : bytes.length / size * size
        = size + (bytes.drop size).length / size * size := by
      rw [List.length_drop, Nat.div_eq_sub_div positive (Nat.le_of_not_lt short),
        Nat.add_mul, Nat.one_mul, Nat.add_comm]
    have split := blocks_append_of_length (bytes.drop size) positive first
    rw [List.take_append_drop] at split
    rw [split, List.flatten_cons, flatten_blocks (bytes.drop size) positive, wholeBlocks,
      wholeBlocks, count, List.take_add]
termination_by bytes.length

theorem length_blocks {size : Nat} (bytes : Bytes) (positive : 0 < size) :
    (blocks size bytes).1.length = bytes.length / size := by
  have joined := congrArg List.length (flatten_blocks bytes positive)
  have sizes : (blocks size bytes).1.map List.length = (blocks size bytes).1.map fun _ => size :=
    List.map_congr_left fun _ member => length_of_mem_blocks member
  rw [List.length_flatten, sizes, List.map_const', List.sum_replicate_nat, wholeBlocks,
    List.length_take, Nat.min_eq_left (Nat.div_mul_le_self _ _)] at joined
  exact Nat.eq_of_mul_eq_mul_right positive joined

end MediaSplit.Bytes

import MediaSplit.Bytes

/-!
Contract: bytes seen as one list of bits, most significant bit first.

Owns:
- `Bits.ofNumber`, the fixed-width spelling of a number, and `Bits.toNumber`,
  the number a list of bits spells;
- `Bits.ofBytes`, the bits of a run of bytes, and `Bits.toBytes`, which packs
  bits into bytes and pads the last byte with zero bits, `Bits.padding`.

This is the order in which every header format of this library stores its
fields, so it is the view in which bit readers and writers are compared.
-/

set_option autoImplicit false

namespace MediaSplit.Bits

/-- The low `width` bits of a number, most significant first. -/
def ofNumber : (width : Nat) → Nat → List Bool
  | 0, _ => []
  | width + 1, value => value.testBit width :: ofNumber width value

/-- The number that a list of bits spells, most significant bit first. -/
def toNumber (bits : List Bool) : Nat :=
  bits.foldl (fun value bit => value * 2 + bit.toNat) 0

/-- The bits of a run of bytes. -/
def ofBytes (bytes : Bytes) : List Bool :=
  bytes.flatMap fun byte => ofNumber 8 byte.toNat

/-- Packs bits into bytes; a partial last byte is padded with zero bits. -/
def toBytes : List Bool → Bytes
  | b7 :: b6 :: b5 :: b4 :: b3 :: b2 :: b1 :: b0 :: rest =>
      UInt8.ofNat (toNumber [b7, b6, b5, b4, b3, b2, b1, b0]) :: toBytes rest
  | [] => []
  | partialByte =>
      [UInt8.ofNat (toNumber (partialByte ++ List.replicate (8 - partialByte.length) false))]

@[simp] theorem length_ofNumber (width value : Nat) :
    (ofNumber width value).length = width := by
  induction width with
  | zero => rfl
  | succ width ih => simp [ofNumber, ih]

@[simp] theorem length_ofBytes (bytes : Bytes) :
    (ofBytes bytes).length = 8 * bytes.length := by
  induction bytes with
  | nil => rfl
  | cons byte rest ih =>
    simp only [ofBytes, List.flatMap_cons, List.length_append, length_ofNumber,
      List.length_cons] at ih ⊢
    omega

theorem ofBytes_append (left right : Bytes) :
    ofBytes (left ++ right) = ofBytes left ++ ofBytes right := by
  simp [ofBytes]

theorem foldl_toNumber (start : Nat) (bits : List Bool) :
    bits.foldl (fun value bit => value * 2 + bit.toNat) start
      = start * 2 ^ bits.length + toNumber bits := by
  induction bits generalizing start with
  | nil => simp [toNumber]
  | cons bit rest ih =>
    simp only [toNumber, List.foldl_cons, List.length_cons] at ih ⊢
    rw [ih (start * 2 + bit.toNat), ih (0 * 2 + bit.toNat), Nat.pow_succ]
    simp only [Nat.zero_mul, Nat.zero_add, Nat.add_mul, Nat.mul_assoc, Nat.mul_comm 2]
    omega

theorem toNumber_append (left right : List Bool) :
    toNumber (left ++ right) = toNumber left * 2 ^ right.length + toNumber right := by
  rw [toNumber, List.foldl_append, foldl_toNumber]
  rfl

theorem toNumber_cons (bit : Bool) (rest : List Bool) :
    toNumber (bit :: rest) = bit.toNat * 2 ^ rest.length + toNumber rest := by
  have split := toNumber_append [bit] rest
  simpa [toNumber] using split

/-- A number of `bits.length` bits. -/
theorem toNumber_lt (bits : List Bool) : toNumber bits < 2 ^ bits.length := by
  induction bits with
  | nil => simp [toNumber]
  | cons bit rest ih =>
    rw [toNumber_cons, List.length_cons, Nat.pow_succ]
    cases bit <;> simp <;> omega

/-- Only the low bits are written. -/
@[simp] theorem toNumber_ofNumber (width value : Nat) :
    toNumber (ofNumber width value) = value % 2 ^ width := by
  induction width with
  | zero => simp [ofNumber, toNumber, Nat.mod_one]
  | succ width ih =>
    rw [ofNumber, toNumber_cons, length_ofNumber, ih, Nat.toNat_testBit, Nat.mod_pow_succ,
      Nat.mul_comm, Nat.add_comm]

@[simp] theorem ofNumber_zero (width : Nat) :
    ofNumber width 0 = List.replicate width false := by
  induction width with
  | zero => rfl
  | succ width ih => rw [ofNumber, Nat.zero_testBit, ih, List.replicate_succ]

@[simp] theorem toNumber_replicate_false (count : Nat) :
    toNumber (List.replicate count false) = 0 := by
  rw [← ofNumber_zero, toNumber_ofNumber, Nat.zero_mod]

theorem ofNumber_add (high low value : Nat) :
    ofNumber (high + low) value = ofNumber high (value / 2 ^ low) ++ ofNumber low value := by
  induction high with
  | zero => simp [ofNumber]
  | succ high ih =>
    rw [Nat.add_right_comm, ofNumber, ofNumber, ih, Nat.testBit_div_two_pow, List.cons_append]

theorem ofNumber_congr {width left right : Nat} (same : left % 2 ^ width = right % 2 ^ width) :
    ofNumber width left = ofNumber width right := by
  induction width with
  | zero => rfl
  | succ width ih =>
    have low : left % 2 ^ width = right % 2 ^ width := by
      have := congrArg (· % 2 ^ width) same
      simpa [Nat.pow_succ, Nat.mod_mul_right_mod] using this
    have bit : left.testBit width = right.testBit width := by
      have := congrArg (Nat.testBit · width) same
      simpa [Nat.testBit_mod_two_pow] using this
    rw [ofNumber, ofNumber, ih low, bit]

/-- Bits are determined by their number and their count. -/
@[simp] theorem ofNumber_toNumber (bits : List Bool) :
    ofNumber bits.length (toNumber bits) = bits := by
  induction bits with
  | nil => rfl
  | cons bit rest ih =>
    rw [List.length_cons, ofNumber, toNumber_cons]
    have below := toNumber_lt rest
    congr 1
    · rw [Nat.mul_comm, Nat.testBit_two_pow_mul_add _ below, if_neg (Nat.lt_irrefl _),
        Nat.sub_self]
      cases bit <;> rfl
    · rw [ofNumber_congr (Nat.mul_add_mod_self_right bit.toNat _ (toNumber rest)), ih]

/-- Eight bits make a byte. -/
theorem ofNumber_ofNat_toNumber {bits : List Bool} (eight : bits.length = 8) :
    ofNumber 8 (UInt8.ofNat (toNumber bits)).toNat = bits := by
  have below := toNumber_lt bits
  rw [eight] at below
  rw [UInt8.toNat_ofNat_of_lt' below, ← eight, ofNumber_toNumber]

theorem ofBytes_cons (byte : UInt8) (rest : Bytes) :
    ofBytes (byte :: rest) = ofNumber 8 byte.toNat ++ ofBytes rest := by
  simp [ofBytes]

theorem ofBytes_singleton (byte : UInt8) : ofBytes [byte] = ofNumber 8 byte.toNat := by
  simp [ofBytes]

theorem ofBytes_drop (count : Nat) (bytes : Bytes) :
    ofBytes (bytes.drop count) = (ofBytes bytes).drop (8 * count) := by
  induction count generalizing bytes with
  | zero => simp
  | succ count ih =>
    cases bytes with
    | nil => simp [ofBytes]
    | cons byte rest =>
      rw [List.drop_succ_cons, ih, ofBytes_cons, Nat.mul_succ, Nat.add_comm, ← List.drop_drop,
        List.drop_left' (length_ofNumber 8 _)]

/-- The zero bits that take `count` bits to a byte boundary. -/
def padding (count : Nat) : List Bool := List.replicate ((8 - count % 8) % 8) false

/-- Packing keeps all bits and pads with zero bits up to a whole byte. -/
theorem ofBytes_toBytes (bits : List Bool) :
    ofBytes (toBytes bits) = bits ++ padding bits.length := by
  unfold padding
  fun_induction toBytes bits with
  | case1 b7 b6 b5 b4 b3 b2 b1 b0 rest ih =>
    rw [ofBytes_cons, ofNumber_ofNat_toNumber rfl, ih]
    simp
    omega
  | case2 => rfl
  | case3 partialByte isShort isSome =>
    have below : partialByte.length < 8 := by
      match partialByte, isShort, isSome with
      | [], _, h => simp at h
      | [_], _, _ => simp
      | [_, _], _, _ => simp
      | [_, _, _], _, _ => simp
      | [_, _, _, _], _, _ => simp
      | [_, _, _, _, _], _, _ => simp
      | [_, _, _, _, _, _], _, _ => simp
      | [_, _, _, _, _, _, _], _, _ => simp
      | b7 :: b6 :: b5 :: b4 :: b3 :: b2 :: b1 :: b0 :: rest, h, _ =>
        exact absurd rfl (h b7 b6 b5 b4 b3 b2 b1 b0 rest)
    have above : 0 < partialByte.length := List.length_pos_iff.2 isSome
    rw [ofBytes_cons, ofNumber_ofNat_toNumber (by simp; omega)]
    simp [ofBytes, Nat.mod_eq_of_lt below]
    omega

/-- Whole bytes are their bits packed. -/
@[simp] theorem toBytes_ofBytes (bytes : Bytes) : toBytes (ofBytes bytes) = bytes := by
  induction bytes with
  | nil => rfl
  | cons byte rest ih =>
    rw [ofBytes_cons]
    simp only [ofNumber, List.cons_append, List.nil_append, toBytes, ih, List.cons.injEq, and_true]
    have spelled := toNumber_ofNumber 8 byte.toNat
    simp only [ofNumber] at spelled
    rw [spelled, Nat.mod_eq_of_lt byte.toNat_lt, UInt8.ofNat_toNat]

end MediaSplit.Bits

import MediaSplit.Bits.View

/-!
Contract: a big-endian bit packer, the counterpart of the bit cursor.

Owns:
- `BitWriter`, bytes with the number of bits written into them, and the loop that
  puts a number into the last byte, part by part;
- Exp-Golomb codes, single bits and byte alignment, all through that loop;
- `BitWriter.bits`, the bits written so far, and for each kind of write the fact
  that it appends the bits it is given.

Does **not** own: what is read back (`MediaSplit.Bits.Ahead`).

That the bytes hold exactly the bits written, with zero bits up to the next byte
boundary, is part of a writer. Each write proves it again for the next one.
-/

set_option autoImplicit false

namespace MediaSplit

namespace Bits

/-- Whether bytes hold `count` bits: these, and zero bits up to a byte boundary. -/
def Hold (data : Bytes) (count : Nat) : Prop :=
  ∃ bits, bits.length = count ∧ ofBytes data = bits ++ padding count

/-- Bytes that hold `count` bits have room for one more: where all are full, another
one is begun. -/
def withRoom (data : Bytes) (count : Nat) : Bytes :=
  if count % 8 = 0 then data ++ [0] else data

/-- Sets bits of the last byte. -/
def setInLast (data : Bytes) (bits : UInt8) : Bytes :=
  data.modify (data.length - 1) (· ||| bits)

/-- How many of `left` bits go into the byte in which `count` bits end. -/
def taken (count left : Nat) : Nat := min (8 - count % 8) left

/-- Puts the first of the `left` low bits of `value` behind `count` bits, as many as
the byte takes. -/
def put (data : Bytes) (count value left : Nat) : Bytes :=
  let part := (value >>> (left - taken count left)) &&& (2 ^ taken count left - 1)
  setInLast (withRoom data count)
    (UInt8.ofNat part <<< UInt8.ofNat (8 - count % 8 - taken count left))

/-! ## Into the last byte -/

theorem setInLast_append (front : Bytes) (last bits : UInt8) :
    setInLast (front ++ [last]) bits = front ++ [last ||| bits] := by
  unfold setInLast
  rw [List.length_append, List.length_singleton, Nat.add_sub_cancel]
  induction front with
  | nil => rfl
  | cons byte rest inductionHypothesis =>
      rw [List.cons_append, List.length_cons, List.modify_succ_cons, inductionHypothesis,
        List.cons_append]

/-- Bits behind `head` in a byte whose rest is zero. -/
theorem ofNumber_or_shiftLeft
    {byte : UInt8}
    {head : List Bool}
    {count room part : Nat}
    (holds : ofNumber 8 byte.toNat = head ++ List.replicate (count + room) false)
    (fits : part < 2 ^ count)
    (below : room < 8) :
    ofNumber 8 (byte ||| UInt8.ofNat part <<< UInt8.ofNat room).toNat
      = head ++ ofNumber count part ++ List.replicate room false := by
  have eight : head.length + (count + room) = 8 := by
    have lengths := congrArg List.length holds
    rw [length_ofNumber, List.length_append, List.length_replicate] at lengths
    exact lengths.symm
  have before : byte.toNat = 2 ^ (count + room) * toNumber head := by
    have spelled := congrArg toNumber holds
    rwa [toNumber_ofNumber, Nat.mod_eq_of_lt byte.toNat_lt, toNumber_append,
      toNumber_replicate_false, List.length_replicate, Nat.add_zero, Nat.mul_comm] at spelled
  have placed : part <<< room < 2 ^ (count + room) := by
    rw [Nat.shiftLeft_eq, Nat.pow_add]
    exact Nat.mul_lt_mul_of_pos_right fits (Nat.two_pow_pos room)
  have inByte : 2 ^ (count + room) ≤ 2 ^ 8 := Nat.pow_le_pow_right Nat.zero_lt_two (by omega)
  have small : part < 2 ^ 8 := by
    have : part ≤ part <<< room := by
      rw [Nat.shiftLeft_eq]
      exact Nat.le_mul_of_pos_right part (Nat.two_pow_pos room)
    omega
  have shifted : (UInt8.ofNat part <<< UInt8.ofNat room).toNat = part <<< room := by
    rw [UInt8.toNat_shiftLeft, UInt8.toNat_ofNat_of_lt' small,
      UInt8.toNat_ofNat_of_lt' (Nat.lt_trans below (by decide)), Nat.mod_eq_of_lt below]
    exact Nat.mod_eq_of_lt (Nat.lt_of_lt_of_le placed inByte)
  have after : (byte ||| UInt8.ofNat part <<< UInt8.ofNat room).toNat
      = toNumber (head ++ ofNumber count part ++ List.replicate room false) := by
    rw [UInt8.toNat_or, shifted, before, ← Nat.two_pow_add_eq_or_of_lt placed, toNumber_append,
      toNumber_append, toNumber_replicate_false, toNumber_ofNumber, Nat.mod_eq_of_lt fits,
      length_ofNumber, List.length_replicate, Nat.shiftLeft_eq, Nat.add_zero, Nat.add_mul,
      Nat.mul_assoc, ← Nat.pow_add, Nat.mul_comm (toNumber head)]
  have whole : (head ++ ofNumber count part ++ List.replicate room false).length = 8 := by
    rw [List.length_append, List.length_append, length_ofNumber, List.length_replicate]
    omega
  rw [after, ← whole, ofNumber_toNumber]

/-- Bytes with a zero bit at the end have a last byte, and the bits of it that are
free are zero. -/
theorem exists_last
    {data : Bytes}
    {bits : List Bool}
    {free : Nat}
    (holds : ofBytes data = bits ++ List.replicate free false)
    (positive : 0 < free)
    (inByte : free ≤ 8) :
    ∃ front last head, data = front ++ [last] ∧ bits = ofBytes front ++ head
      ∧ ofNumber 8 last.toNat = head ++ List.replicate free false := by
  rcases List.eq_nil_or_concat data with rfl | ⟨front, last, rfl⟩
  · have lengths := congrArg List.length holds
    rw [length_ofBytes, List.length_append, List.length_replicate, List.length_nil] at lengths
    omega
  · rw [List.concat_eq_append, ofBytes_append, ofBytes_singleton] at holds
    rcases List.append_eq_append_iff.1 holds with
      ⟨head, sameBits, sameByte⟩ | ⟨extra, sameFront, sameZeros⟩
    · exact ⟨front, last, head, List.concat_eq_append, sameBits, sameByte⟩
    · -- The byte is no longer than what is free, so nothing of the front is.
      have lengths := congrArg List.length sameZeros
      rw [List.length_append, length_ofNumber, List.length_replicate] at lengths
      have none : extra = [] := List.eq_nil_of_length_eq_zero (by omega)
      subst none
      rw [List.append_nil] at sameFront
      rw [List.nil_append] at sameZeros
      exact ⟨front, last, [], List.concat_eq_append,
        by rw [List.append_nil, sameFront], by rw [List.nil_append, sameZeros]⟩

theorem ofBytes_withRoom
    {data : Bytes}
    {bits : List Bool}
    (holds : ofBytes data = bits ++ padding bits.length) :
    ofBytes (withRoom data bits.length)
      = bits ++ List.replicate (8 - bits.length % 8) false := by
  unfold withRoom
  unfold padding at holds
  split
  next full =>
    rw [full] at holds ⊢
    rw [ofBytes_append, holds, List.append_assoc]
    rfl
  next part =>
    rw [holds, Nat.mod_eq_of_lt (a := 8 - bits.length % 8) (by omega)]

/-- One turn of the loop: the byte takes the first bits of the number, and no
other bit changes. -/
theorem ofBytes_put
    {data : Bytes}
    {bits : List Bool}
    {left : Nat}
    (holds : ofBytes data = bits ++ padding bits.length)
    (value : Nat)
    (positive : 0 < left) :
    ofBytes (put data bits.length value left)
      = bits ++ ofNumber (taken bits.length left) (value / 2 ^ (left - taken bits.length left))
        ++ padding (bits.length + taken bits.length left) := by
  have inByte : taken bits.length left ≤ 8 - bits.length % 8 := Nat.min_le_left _ _
  have some : 0 < taken bits.length left := Nat.lt_min.2 ⟨by omega, positive⟩
  have roomy := ofBytes_withRoom holds
  have free : 8 - bits.length % 8
      = taken bits.length left + (8 - bits.length % 8 - taken bits.length left) := by omega
  have rest : (8 - (bits.length + taken bits.length left) % 8) % 8
      = 8 - bits.length % 8 - taken bits.length left := by omega
  obtain ⟨front, last, head, sameData, rfl, sameByte⟩ := exists_last roomy (by omega) (by omega)
  rw [free] at sameByte
  rw [put, Nat.shiftRight_eq_div_pow, Nat.and_two_pow_sub_one_eq_mod, sameData, setInLast_append,
    ofBytes_append, ofBytes_singleton,
    ofNumber_or_shiftLeft sameByte (Nat.mod_lt _ (Nat.two_pow_pos _)) (by omega), padding, rest,
    ofNumber_congr (Nat.mod_mod _ _)]
  simp only [List.append_assoc]

theorem taken_le (count left : Nat) : taken count left ≤ left := Nat.min_le_right _ _

theorem hold_put
    {data : Bytes}
    {count : Nat}
    (holds : Hold data count)
    (value : Nat)
    {left : Nat}
    (positive : left ≠ 0) :
    Hold (put data count value left) (count + taken count left) := by
  obtain ⟨bits, rfl, whole⟩ := holds
  refine ⟨_, ?_, ofBytes_put whole value (Nat.pos_of_ne_zero positive)⟩
  rw [List.length_append, length_ofNumber]

theorem hold_nil : Hold [] 0 := ⟨[], rfl, rfl⟩

/-- Bits up to a byte boundary are already there. -/
theorem hold_boundary {data : Bytes} {count : Nat} (holds : Hold data count) :
    Hold data ((count + 7) / 8 * 8) := by
  obtain ⟨bits, rfl, whole⟩ := holds
  have boundary : (8 - (bits.length + 7) / 8 * 8 % 8) % 8 = 0 := by omega
  refine ⟨ofBytes data, ?_, by rw [padding, boundary]; exact (List.append_nil _).symm⟩
  rw [whole, List.length_append, padding, List.length_replicate]
  omega

end Bits

/-- A bit packer: the bytes begun so far, and how many bits have been written. -/
structure BitWriter where
  data : Bytes
  length : Nat
  /-- The bytes hold the bits written and nothing else. -/
  holds : Bits.Hold data length
  deriving DecidableEq, Repr

namespace BitWriter

/-- A writer that holds nothing. -/
def empty : BitWriter := ⟨[], 0, Bits.hold_nil⟩

instance : Inhabited BitWriter := ⟨empty⟩

/-- The bytes written so far; a partial last byte is padded with zero bits. -/
def toBytes (writer : BitWriter) : Bytes := writer.data

/-- Appends the low `left` bits of `value`, part by part as bytes take them. -/
def writeParts (writer : BitWriter) (value left : Nat) : BitWriter :=
  if positive : left ≠ 0 then
    writeParts
      ⟨Bits.put writer.data writer.length value left, _,
        Bits.hold_put writer.holds value positive⟩
      value (left - Bits.taken writer.length left)
  else writer
termination_by left
decreasing_by
  have := Nat.lt_min.2 ⟨show 0 < 8 - writer.length % 8 by omega, Nat.pos_of_ne_zero positive⟩
  unfold Bits.taken
  omega

/-- Appends the low `count` bits of `value`, never more than 32 of them. -/
def writeBits (writer : BitWriter) (value count : Nat) : BitWriter :=
  writer.writeParts value (min count 32)

/-- Appends one bit. -/
def writeBit (writer : BitWriter) (bit : Bool) : BitWriter :=
  writer.writeBits bit.toNat 1

/-- Appends a list of bits. -/
def append (writer : BitWriter) (more : List Bool) : BitWriter := more.foldl writeBit writer

/-- Appends the Exp-Golomb code of a 32-bit number: its successor in binary, after
one zero bit for each binary digit but the first. The successor of the greatest
number has 33 digits, one more than a field. -/
def writeUnsignedCode (writer : BitWriter) (value : Nat) : BitWriter :=
  let code := value + 1
  let width := code.log2 + 1
  let spaced := writer.writeBits 0 (width - 1)
  if 32 < width then (spaced.writeBit true).writeBits (code % 2 ^ 32) 32
  else spaced.writeBits (code % 2 ^ 32) width

/-- The place of an integer in the order `0, 1, -1, 2, -2, …`, as a 32-bit
number. The least 32-bit integer has no place below `2 ^ 32` and wraps to 0. -/
def codeOfSigned (value : Int) : Nat :=
  if 0 < value then (2 * value - 1).toNat % 2 ^ 32 else (-2 * value).toNat % 2 ^ 32

/-- Appends a signed Exp-Golomb code. -/
def writeSignedCode (writer : BitWriter) (value : Int) : BitWriter :=
  writer.writeUnsignedCode (codeOfSigned value)

/-- Pads with zero bits up to the next byte boundary. -/
def alignToByte (writer : BitWriter) : BitWriter :=
  ⟨writer.data, (writer.length + 7) / 8 * 8, Bits.hold_boundary writer.holds⟩

/-! ## The bits written -/

/-- The bits written so far, first bit first. -/
def bits (writer : BitWriter) : List Bool := (Bits.ofBytes writer.data).take writer.length

theorem ofBytes_data (writer : BitWriter) :
    Bits.ofBytes writer.data = writer.bits ++ Bits.padding writer.length := by
  obtain ⟨bits, same, whole⟩ := writer.holds
  rw [BitWriter.bits, whole, ← same, List.take_left' rfl]

@[simp] theorem length_bits (writer : BitWriter) : writer.bits.length = writer.length := by
  obtain ⟨bits, same, whole⟩ := writer.holds
  rw [BitWriter.bits, whole, ← same, List.take_left' rfl]

/-- The bytes are the bits packed. -/
theorem toBytes_eq (writer : BitWriter) : writer.toBytes = Bits.toBytes writer.bits := by
  have same : Bits.ofBytes writer.data = Bits.ofBytes (Bits.toBytes writer.bits) := by
    rw [ofBytes_data, Bits.ofBytes_toBytes, length_bits]
  rw [toBytes, ← Bits.toBytes_ofBytes writer.data, same, Bits.toBytes_ofBytes]

/-- A writer is what has been written. -/
theorem eq_of_bits {left right : BitWriter} (same : left.bits = right.bits) : left = right := by
  have sameLength := congrArg List.length same
  rw [length_bits, length_bits] at sameLength
  have sameData : left.toBytes = right.toBytes := by rw [toBytes_eq, toBytes_eq, same]
  cases left
  cases right
  cases sameLength
  cases sameData
  rfl

theorem bits_of_ofBytes
    {writer : BitWriter}
    {bits : List Bool}
    (whole : Bits.ofBytes writer.data = bits ++ Bits.padding writer.length)
    (same : bits.length = writer.length) :
    writer.bits = bits := by
  rw [BitWriter.bits, whole, ← same, List.take_left' rfl]

@[simp] theorem bits_empty : empty.bits = [] := rfl

/-- The loop appends all bits of the number, in whatever parts bytes take them. -/
theorem bits_writeParts (writer : BitWriter) (value left : Nat) :
    (writer.writeParts value left).bits = writer.bits ++ Bits.ofNumber left value := by
  fun_induction writeParts writer value left with
  | case1 writer left positive inductionHypothesis =>
      have put := Bits.ofBytes_put (length_bits writer ▸ ofBytes_data writer) value
        (Nat.pos_of_ne_zero positive)
      rw [length_bits] at put
      rw [inductionHypothesis, bits_of_ofBytes put (by simp), List.append_assoc,
        ← Bits.ofNumber_add, Nat.add_sub_cancel' (Bits.taken_le _ _)]
  | case2 writer left done =>
      rw [Decidable.not_not.1 done]
      exact (List.append_nil _).symm

theorem bits_writeBits (writer : BitWriter) (value count : Nat) :
    (writer.writeBits value count).bits
      = writer.bits ++ Bits.ofNumber (min count 32) value :=
  bits_writeParts writer value _

@[simp] theorem bits_writeBit (writer : BitWriter) (bit : Bool) :
    (writer.writeBit bit).bits = writer.bits ++ [bit] := by
  rw [writeBit, bits_writeBits]
  cases bit <;> rfl

@[simp] theorem bits_append (writer : BitWriter) (more : List Bool) :
    (writer.append more).bits = writer.bits ++ more := by
  induction more generalizing writer with
  | nil => exact (List.append_nil _).symm
  | cons bit rest inductionHypothesis =>
      rw [append, List.foldl_cons, ← append, inductionHypothesis, bits_writeBit, List.append_assoc]
      rfl

@[simp] theorem length_append (writer : BitWriter) (more : List Bool) :
    (writer.append more).length = writer.length + more.length := by
  rw [← length_bits, bits_append, List.length_append, length_bits]

@[simp] theorem append_nil (writer : BitWriter) : writer.append [] = writer := rfl

theorem append_append (writer : BitWriter) (first second : List Bool) :
    (writer.append first).append second = writer.append (first ++ second) :=
  List.foldl_append.symm

/-! ## Writes append -/

theorem writeBit_eq (writer : BitWriter) (bit : Bool) :
    writer.writeBit bit = writer.append [bit] := rfl

theorem writeBits_eq (writer : BitWriter) (value : Nat) {count : Nat} (fits : count ≤ 32) :
    writer.writeBits value count = writer.append (Bits.ofNumber count value) := by
  apply eq_of_bits
  rw [bits_writeBits, bits_append, Nat.min_eq_left fits]

/-- The Exp-Golomb code of `value`: its successor in binary, after one zero
bit for each binary digit but the first. -/
def unsignedCode (value : Nat) : List Bool :=
  let zeros := (value + 1).log2
  List.replicate zeros false ++ Bits.ofNumber (zeros + 1) (value + 1)

/-- A code is written whole, the one of 65 bits with its digits in two fields. -/
theorem writeUnsignedCode_eq (writer : BitWriter) {value : Nat} (fits : value < 2 ^ 32) :
    writer.writeUnsignedCode value = writer.append (unsignedCode value) := by
  have digits : (value + 1).log2 ≤ 32 := by
    have := (Nat.log2_lt (show value + 1 ≠ 0 by omega)).2 (show value + 1 < 2 ^ 33 by omega)
    omega
  unfold writeUnsignedCode unsignedCode
  simp only [Nat.add_sub_cancel]
  rw [writeBits_eq _ _ digits, Bits.ofNumber_zero]
  split
  next wide =>
    have full : (value + 1).log2 = 32 := by omega
    have least : 2 ^ (value + 1).log2 ≤ value + 1 := Nat.log2_self_le (Nat.succ_ne_zero value)
    have greatest : value = 2 ^ 32 - 1 := by
      rw [full] at least
      omega
    subst greatest
    rw [writeBit_eq, writeBits_eq _ _ (Nat.le_refl 32), append_append, append_append]
    exact congrArg _ (by decide +kernel)
  next narrow =>
    have below : value + 1 < 2 ^ ((value + 1).log2 + 1) := Nat.lt_log2_self
    have inField : 2 ^ ((value + 1).log2 + 1) ≤ 2 ^ 32 :=
      Nat.pow_le_pow_right Nat.zero_lt_two (Nat.le_of_not_lt narrow)
    rw [Nat.mod_eq_of_lt (Nat.lt_of_lt_of_le below inField),
      writeBits_eq _ _ (Nat.le_of_not_lt narrow), append_append]

theorem codeOfSigned_lt (value : Int) : codeOfSigned value < 2 ^ 32 := by
  unfold codeOfSigned
  split <;> exact Nat.mod_lt _ (Nat.two_pow_pos 32)

theorem writeSignedCode_eq (writer : BitWriter) (value : Int) :
    writer.writeSignedCode value = writer.append (unsignedCode (codeOfSigned value)) :=
  writeUnsignedCode_eq writer (codeOfSigned_lt value)

theorem alignToByte_eq (writer : BitWriter) :
    writer.alignToByte = writer.append (Bits.padding writer.length) := by
  apply eq_of_bits
  rw [bits_append, ← ofBytes_data]
  apply List.take_of_length_le
  have whole := congrArg List.length (ofBytes_data writer)
  rw [List.length_append, length_bits, Bits.padding, List.length_replicate] at whole
  show (Bits.ofBytes writer.data).length ≤ (writer.length + 7) / 8 * 8
  omega

end BitWriter

end MediaSplit

import MediaSplit.Bits.Reader
import MediaSplit.Bits.Writer

/-!
Contract: bit reads told by the list of bits ahead.

Owns: `BitReader.bitsAhead`, the bits that a reader has not consumed, and for
each read the fact that it takes what was written from the front of them.

Does **not** own: failures. A read of something that lies ahead whole cannot
fail, and that is all a round trip needs.
-/

set_option autoImplicit false

namespace MediaSplit.BitReader

/-- The bits that have not been read. -/
def bitsAhead (reader : BitReader) : List Bool :=
  (Bits.ofBytes reader.data).drop reader.position

@[simp] theorem length_bitsAhead (reader : BitReader) :
    reader.bitsAhead.length = reader.remainingBits := by
  simp [bitsAhead, remainingBits]

@[simp] theorem bitsAhead_ofBytes (data : Bytes) :
    (ofBytes data).bitsAhead = Bits.ofBytes data := rfl

@[simp] theorem bitsAhead_advance (reader : BitReader) (count : Nat) :
    (reader.advance count).bitsAhead = reader.bitsAhead.drop count := by
  simp [bitsAhead, advance]

theorem field_of_byte (byte : UInt8) (offset taken : Nat) (fits : offset + taken ≤ 8) :
    byte.toNat / 2 ^ (8 - offset - taken) % 2 ^ taken
      = Bits.toNumber (((Bits.ofNumber 8 byte.toNat).drop offset).take taken) := by
  have first := Bits.ofNumber_add offset (8 - offset) byte.toNat
  have second := Bits.ofNumber_add taken (8 - offset - taken) byte.toNat
  rw [show offset + (8 - offset) = 8 by omega] at first
  rw [show taken + (8 - offset - taken) = 8 - offset by omega] at second
  rw [first, List.drop_left' (by simp), second, List.take_left' (by simp), Bits.toNumber_ofNumber]

theorem gather_eq (data : Bytes) (offset count value : Nat) (offset_lt : offset < 8)
    (fits : offset + count ≤ 8 * data.length) :
    gather data offset count value
      = value * 2 ^ count + Bits.toNumber (((Bits.ofBytes data).drop offset).take count) := by
  induction data generalizing offset count value with
  | nil =>
    have : count = 0 := by simp at fits; omega
    simp [gather, this, Bits.toNumber]
  | cons byte rest ih =>
    rw [gather]
    split
    next zero => simp [zero, Bits.toNumber]
    next positive =>
      simp only [List.length_cons] at fits
      have inByte : (Bits.ofNumber 8 byte.toNat).length = 8 := Bits.length_ofNumber 8 _
      rw [ih 0 _ _ (by omega) (by omega), field_of_byte byte offset _ (by omega), Bits.ofBytes_cons,
        List.drop_append_of_le_length (by omega), List.drop_zero]
      rcases Nat.le_total (8 - offset) count with whole | part
      · have behind : ((Bits.ofNumber 8 byte.toNat).drop offset).length = 8 - offset := by simp
        have kept : ∀ wanted, 8 - offset ≤ wanted →
            ((Bits.ofNumber 8 byte.toNat).drop offset).take wanted
              = (Bits.ofNumber 8 byte.toNat).drop offset :=
          fun _ enough => List.take_of_length_le (by rw [behind]; exact enough)
        rw [Nat.min_eq_left whole, List.take_append, behind, Bits.toNumber_append, kept _ whole,
          kept _ (Nat.le_refl _)]
        have restLength : ((Bits.ofBytes rest).take (count - (8 - offset))).length
            = count - (8 - offset) := by simp; omega
        rw [restLength, Nat.add_mul, Nat.mul_assoc, ← Nat.pow_add, Nat.add_assoc,
          show 8 - offset + (count - (8 - offset)) = count by omega]
      · rw [Nat.min_eq_right part, Nat.sub_self, List.take_append_of_le_length (by simp; omega)]
        simp [Bits.toNumber]

/-- A field is the number that the next bits spell. -/
theorem fieldAhead_eq (reader : BitReader) (count : Nat) (fits : count ≤ reader.remainingBits) :
    reader.fieldAhead count = Bits.toNumber (reader.bitsAhead.take count) := by
  rcases Nat.eq_zero_or_pos count with rfl | positive
  · simp only [fieldAhead, List.take_zero]
    cases reader.data.drop (reader.position / 8) <;> simp [gather, Bits.toNumber]
  · simp only [remainingBits] at fits
    rw [fieldAhead,
      gather_eq _ _ _ _ (Nat.mod_lt _ (by decide)) (by simp only [List.length_drop]; omega),
      Bits.ofBytes_drop, List.drop_drop, Nat.div_add_mod, Nat.zero_mul, Nat.zero_add]
    rfl

theorem length_le_remainingBits {reader : BitReader} {bits rest : List Bool}
    (ahead : reader.bitsAhead = bits ++ rest) : bits.length ≤ reader.remainingBits := by
  rw [← length_bitsAhead, ahead, List.length_append]
  exact Nat.le_add_right _ _

theorem readBits_of_bitsAhead {reader : BitReader} {bits rest : List Bool}
    (ahead : reader.bitsAhead = bits ++ rest) (fits : bits.length ≤ 32) :
    (readBits bits.length).run reader
      = (.ok (Bits.toNumber bits), reader.advance bits.length) := by
  have enough := length_le_remainingBits ahead
  have field := fieldAhead_eq reader bits.length enough
  rw [ahead, List.take_left' rfl] at field
  simp only [readBits, ExceptT.run, field, if_neg (Nat.not_lt.2 fits),
    if_pos ((holds_iff _ _).2 enough)]

theorem skip_of_bitsAhead {reader : BitReader} {bits rest : List Bool}
    (ahead : reader.bitsAhead = bits ++ rest) :
    (skip bits.length).run reader = (.ok (), reader.advance bits.length) := by
  have enough := length_le_remainingBits ahead
  simp only [skip, ExceptT.run, if_pos ((holds_iff _ _).2 enough)]

theorem readFlag_of_bitsAhead {reader : BitReader} {bit : Bool} {rest : List Bool}
    (ahead : reader.bitsAhead = bit :: rest) :
    readFlag.run reader = (.ok bit, reader.advance 1) := by
  have whole : reader.bitsAhead = [bit] ++ rest := ahead
  have field : readBits 1 reader = _ := readBits_of_bitsAhead whole (by simp)
  simp only [readFlag, ExceptT.run, bind, ExceptT.bind, ExceptT.mk, StateT.bind, field]
  cases bit <;> rfl

theorem readZeroRun_of_bitsAhead {zeros allowed : Nat} {reader : BitReader} {rest : List Bool}
    (ahead : reader.bitsAhead = List.replicate zeros false ++ true :: rest)
    (fits : zeros ≤ allowed) :
    (readZeroRun allowed).run reader = (.ok zeros, reader.advance (zeros + 1)) := by
  induction zeros generalizing allowed reader with
  | zero =>
    have flag : readFlag reader = _ := readFlag_of_bitsAhead ahead
    cases allowed <;>
      simp only [readZeroRun, ExceptT.run, bind, ExceptT.bind, ExceptT.mk, StateT.bind, flag]
        <;> rfl
  | succ zeros ih =>
    match allowed, fits with
    | allowed + 1, fits =>
      have flag : readFlag reader = _ := readFlag_of_bitsAhead ahead
      have later : readZeroRun allowed (reader.advance 1) = _ :=
        ih (by rw [bitsAhead_advance, ahead]; rfl) (Nat.le_of_succ_le_succ fits)
      simp only [readZeroRun, ExceptT.run, bind, ExceptT.bind, ExceptT.mk, StateT.bind, flag]
      simp only [ExceptT.bindCont, Bool.false_eq_true, if_false, bind, StateT.bind, later]
      simp only [advance, pure, ExceptT.pure, ExceptT.mk, Nat.add_assoc, Nat.add_comm 1]
      rfl

/-- Reading gives back what was written, for every value whose code is not too
long. -/
theorem readUnsignedCode_of_bitsAhead {value : Nat} {reader : BitReader} {rest : List Bool}
    (ahead : reader.bitsAhead = BitWriter.unsignedCode value ++ rest)
    (fits : value < 2 ^ 32 - 1) :
    readUnsignedCode.run reader
      = (.ok value, reader.advance (BitWriter.unsignedCode value).length) := by
  have positive : value + 1 ≠ 0 := Nat.succ_ne_zero value
  have least : 2 ^ (value + 1).log2 ≤ value + 1 := Nat.log2_self_le positive
  have most : value + 1 < 2 ^ ((value + 1).log2 + 1) := Nat.lt_log2_self
  have short : (value + 1).log2 ≤ maxCodeZeros := by
    have := (Nat.log2_lt positive).2 (show value + 1 < 2 ^ 32 by omega)
    exact Nat.le_of_lt_succ this
  have spelled : BitWriter.unsignedCode value
      = List.replicate (value + 1).log2 false ++ true
          :: Bits.ofNumber (value + 1).log2 (value + 1) := by
    rw [BitWriter.unsignedCode, Bits.ofNumber, Nat.testBit_log2 positive]
  have run : readZeroRun maxCodeZeros reader = _ :=
    readZeroRun_of_bitsAhead (by rw [ahead, spelled, List.append_assoc]; rfl) short
  have behind : (reader.advance ((value + 1).log2 + 1)).bitsAhead
      = Bits.ofNumber (value + 1).log2 (value + 1) ++ rest := by
    rw [bitsAhead_advance, ahead, spelled, List.append_assoc, List.cons_append,
      ← List.singleton_append, ← List.append_assoc]
    exact List.drop_left' (by simp)
  have field := readBits_of_bitsAhead behind
    (by rw [Bits.length_ofNumber]; exact Nat.le_trans short (by decide))
  rw [Bits.length_ofNumber, Bits.toNumber_ofNumber] at field
  have low : (value + 1) % 2 ^ (value + 1).log2 = value + 1 - 2 ^ (value + 1).log2 := by
    rw [Nat.mod_eq_sub_mod least, Nat.mod_eq_of_lt (by rw [Nat.pow_succ] at most; omega)]
  have length : (BitWriter.unsignedCode value).length
      = (value + 1).log2 + 1 + (value + 1).log2 := by
    simp [BitWriter.unsignedCode]; omega
  have total : 2 ^ (value + 1).log2 - 1 + (value + 1 - 2 ^ (value + 1).log2) = value := by
    have := Nat.two_pow_pos (value + 1).log2
    omega
  simp only [readUnsignedCode, ExceptT.run, bind, ExceptT.bind, ExceptT.mk, StateT.bind, run,
    ExceptT.bindCont] at field ⊢
  rw [field, length]
  simp only [low, total, pure, ExceptT.pure, ExceptT.mk]
  rw [advance, advance, advance, Nat.add_assoc]
  rfl

theorem signedOfCode_codeOfSigned {value : Int} (above : -2 ^ 31 < value) (below : value < 2 ^ 31) :
    signedOfCode (BitWriter.codeOfSigned value) = value := by
  simp only [signedOfCode, BitWriter.codeOfSigned]
  split <;> split <;> omega

theorem codeOfSigned_lt {value : Int} (above : -2 ^ 31 < value) (below : value < 2 ^ 31) :
    BitWriter.codeOfSigned value < 2 ^ 32 - 1 := by
  simp only [BitWriter.codeOfSigned]
  split <;> omega

/-- Reading gives back what was written, for every 32-bit integer but the
least. -/
theorem readSignedCode_of_bitsAhead {value : Int} {reader : BitReader} {rest : List Bool}
    (ahead : reader.bitsAhead
      = BitWriter.unsignedCode (BitWriter.codeOfSigned value) ++ rest)
    (above : -2 ^ 31 < value)
    (below : value < 2 ^ 31) :
    readSignedCode.run reader
      = (.ok value,
          reader.advance (BitWriter.unsignedCode (BitWriter.codeOfSigned value)).length) := by
  have code : readUnsignedCode reader = _ :=
    readUnsignedCode_of_bitsAhead ahead (codeOfSigned_lt above below)
  simp only [readSignedCode, ExceptT.run, bind, ExceptT.bind, ExceptT.mk, StateT.bind, code,
    ExceptT.bindCont, pure, ExceptT.pure, signedOfCode_codeOfSigned above below]
  rfl

end MediaSplit.BitReader

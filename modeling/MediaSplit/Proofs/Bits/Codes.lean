import MediaSplit.Proofs.Bits.Requests

/-!
Contract: which values come back from an Exp-Golomb code.

Owns: `BitWriter.readAt`, one read at a place of what was written; and
`comesBack_codes`, what a code comes to for every number of 32 bits, wherever
it begins and whatever is written behind it.

All but two values come back. The greatest unsigned number has a code of 65
bits, which a writer writes and a reader gives up on; the least signed number
is written with the code of zero.
-/

set_option autoImplicit false

namespace MediaSplit

namespace BitWriter

/-- One read at bit `place` of the bytes written so far: the answer, and where the
reader then stands. -/
def readAt {α : Type} (writer : BitWriter) (place : Nat) (read : Bits.Parse α) :
    Except Bits.Error α × Nat :=
  let (answer, after) := read.run ⟨writer.toBytes, place⟩
  (answer, after.position)

/-- A code behind what was written lies ahead of a reader that stands there. -/
theorem bitsAhead_behind (writer : BitWriter) (code more : List Bool) :
    ∃ rest, (BitReader.mk ((writer.append code).append more).toBytes writer.length).bitsAhead
      = code ++ rest := by
  refine ⟨more ++ Bits.padding ((writer.append code).append more).length, ?_⟩
  rw [BitReader.bitsAhead, toBytes, ofBytes_data, bits_append, bits_append, List.append_assoc,
    List.append_assoc, List.drop_left' (length_bits writer)]

end BitWriter

namespace Bits

/-! ## Values that come back -/

theorem leadingZeros_replicate (zeros : Nat) (rest : List Bool) :
    leadingZeros (List.replicate zeros false ++ true :: rest) = zeros := by
  induction zeros with
  | zero => rfl
  | succ zeros inductionHypothesis =>
      rw [List.replicate_succ, List.cons_append, BitReader.leadingZeros_false, inductionHypothesis]

/-- The greatest number of 32 bits needs 32 zero bits, one more than a reader
takes. -/
theorem codeAhead_greatest (rest : List Bool) :
    codeAhead (BitWriter.unsignedCode (2 ^ 32 - 1) ++ rest) = (.error .codeTooLong, 32) := by
  have spelled : BitWriter.unsignedCode (2 ^ 32 - 1)
      = List.replicate 32 false ++ true :: List.replicate 32 false := by
    decide +kernel
  rw [spelled, List.append_assoc, List.cons_append, codeAhead, leadingZeros_replicate,
    if_pos (by decide)]

theorem codeOfSigned_least : BitWriter.codeOfSigned (-2 ^ 31) = BitWriter.codeOfSigned 0 := by
  decide

variable (writer : BitWriter) (more : List Bool)

theorem readAt_unsigned {value : Nat} (fits : value < 2 ^ 32 - 1) :
    ((writer.writeUnsignedCode value).append more).readAt writer.length
        BitReader.readUnsignedCode
      = (.ok value, (writer.writeUnsignedCode value).length) := by
  obtain ⟨rest, ahead⟩ := writer.bitsAhead_behind (BitWriter.unsignedCode value) more
  rw [writer.writeUnsignedCode_eq (Nat.lt_of_lt_of_le fits (Nat.sub_le _ _)), BitWriter.readAt,
    BitReader.readUnsignedCode_of_bitsAhead ahead fits, BitWriter.length_append]
  rfl

theorem readAt_greatest :
    ((writer.writeUnsignedCode (2 ^ 32 - 1)).append more).readAt writer.length
        BitReader.readUnsignedCode
      = (.error .codeTooLong, writer.length + 32) := by
  obtain ⟨rest, ahead⟩ := writer.bitsAhead_behind (BitWriter.unsignedCode (2 ^ 32 - 1)) more
  rw [writer.writeUnsignedCode_eq (by decide), BitWriter.readAt, ExceptT.run,
    BitReader.readUnsignedCode_eq, ahead, codeAhead_greatest]
  rfl

theorem readAt_signed {value : Int} (above : -2 ^ 31 < value) (below : value < 2 ^ 31) :
    ((writer.writeSignedCode value).append more).readAt writer.length BitReader.readSignedCode
      = (.ok value, (writer.writeSignedCode value).length) := by
  obtain ⟨rest, ahead⟩ := writer.bitsAhead_behind
    (BitWriter.unsignedCode (BitWriter.codeOfSigned value)) more
  rw [writer.writeSignedCode_eq, BitWriter.readAt,
    BitReader.readSignedCode_of_bitsAhead ahead above below, BitWriter.length_append]
  rfl

theorem readAt_least :
    ((writer.writeSignedCode (-2 ^ 31)).append more).readAt writer.length BitReader.readSignedCode
      = (.ok 0, writer.length + 1) := by
  have same : writer.writeSignedCode (-2 ^ 31) = writer.writeSignedCode 0 := by
    rw [BitWriter.writeSignedCode, codeOfSigned_least, ← BitWriter.writeSignedCode]
  rw [same, readAt_signed writer more (by decide) (by decide), writer.writeSignedCode_eq,
    BitWriter.length_append]
  rfl

/-- What codes come to that are written behind `writer` and before `more` and read
where they begin. -/
structure ComesBack : Prop where
  unsigned : ∀ value < 2 ^ 32 - 1,
    ((writer.writeUnsignedCode value).append more).readAt writer.length
        BitReader.readUnsignedCode
      = (.ok value, (writer.writeUnsignedCode value).length)
  greatest :
    ((writer.writeUnsignedCode (2 ^ 32 - 1)).append more).readAt writer.length
        BitReader.readUnsignedCode
      = (.error .codeTooLong, writer.length + 32)
  signed : ∀ value : Int, -2 ^ 31 < value → value < 2 ^ 31 →
    ((writer.writeSignedCode value).append more).readAt writer.length BitReader.readSignedCode
      = (.ok value, (writer.writeSignedCode value).length)
  least :
    ((writer.writeSignedCode (-2 ^ 31)).append more).readAt writer.length BitReader.readSignedCode
      = (.ok 0, writer.length + 1)

/-- Every number of 32 bits comes back from its code but two, the greatest unsigned
and the least signed one. -/
theorem comesBack_codes : ComesBack writer more where
  unsigned _ fits := readAt_unsigned writer more fits
  greatest := readAt_greatest writer more
  signed _ above below := readAt_signed writer more above below
  least := readAt_least writer more

/-- Neither the unsigned nor the signed numbers of 32 bits come back whole: one of
each does not. -/
theorem not_comesBack_greatest_least :
    (¬ ∀ (writer : BitWriter) (more : List Bool), ∀ value < 2 ^ 32,
        (((writer.writeUnsignedCode value).append more).readAt writer.length
          BitReader.readUnsignedCode).1 = .ok value)
      ∧ ¬ ∀ (writer : BitWriter) (more : List Bool) (value : Int), -2 ^ 31 ≤ value →
        value < 2 ^ 31 →
        (((writer.writeSignedCode value).append more).readAt writer.length
          BitReader.readSignedCode).1 = .ok value := by
  constructor
  · intro all
    have greatest := all .empty [] (2 ^ 32 - 1) (by decide)
    rw [readAt_greatest] at greatest
    cases greatest
  · intro all
    have least := all .empty [] (-2 ^ 31) (by decide) (by decide)
    rw [readAt_least] at least
    exact absurd (Except.ok.inj least) (by decide)

end Bits

end MediaSplit

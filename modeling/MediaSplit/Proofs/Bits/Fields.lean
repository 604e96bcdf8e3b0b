import MediaSplit.Bits.Ahead

/-!
Contract: what is written bit by bit is read back field by field.

Owns:
- `Bits.Field`, one thing that a bit writer is given and a bit reader can give
  back, with `write`, `read` and the value that is to come back;
- `Field.writeAll`, `Field.readAll` and `Field.records`, which keep the place
  after each field beside its value;
- `Field.readAll_toBytes`: reading what was written returns every value, and
  the reader stands after each field where the writer stood.

Does **not** own: values whose codes the reader refuses or the writer wraps. A
field is a value together with the proof that it is none of these.

The writer is followed by its bits, the reader by the bits ahead of it. The
padding of the last byte lies behind all fields and is never asked for.
-/

set_option autoImplicit false

namespace MediaSplit.Bits

/-- One thing that is written and read back. -/
inductive Field where
  | bit (bit : Bool)
  /-- The low `width` bits of a number. -/
  | fixed (value width : Nat) (fits : width ≤ 32)
  /-- An unsigned Exp-Golomb code. -/
  | unsigned (value : Nat) (fits : value < 2 ^ 32 - 1)
  /-- A signed Exp-Golomb code. -/
  | signed (value : Int) (above : -2 ^ 31 < value) (below : value < 2 ^ 31)
  /-- Zero bits up to the next byte boundary. -/
  | alignment
  deriving DecidableEq, Repr

/-- What reading a field gives. -/
inductive Value where
  | bit (bit : Bool)
  | number (value : Nat)
  | integer (value : Int)
  /-- The bits that were passed over. -/
  | passed (bits : List Bool)
  deriving DecidableEq, Repr

namespace Field

def write (writer : BitWriter) : Field → BitWriter
  | bit value => writer.writeBit value
  | fixed value width _ => writer.writeBits value width
  | unsigned value _ => writer.writeUnsignedCode value
  | signed value _ _ => writer.writeSignedCode value
  | alignment => writer.alignToByte

/-- Reads a field of this kind, whatever its value. -/
def read : Field → Parse Value
  | bit _ => Value.bit <$> BitReader.readFlag
  | fixed _ width _ => Value.number <$> BitReader.readBits width
  | unsigned _ _ => Value.number <$> BitReader.readUnsignedCode
  | signed _ _ _ => Value.integer <$> BitReader.readSignedCode
  | alignment => fun reader =>
      let aligned := reader.alignToByte
      (.ok (.passed (reader.bitsAhead.take (aligned.position - reader.position))), aligned)

/-- What is to come back of a field behind `before` bits. -/
def value (before : Nat) : Field → Value
  | bit value => .bit value
  | fixed value width _ => .number (value % 2 ^ width)
  | unsigned value _ => .number value
  | signed value _ _ => .integer value
  | alignment => .passed (padding before)

/-- Writes fields, one behind the other. -/
def writeAll (writer : BitWriter) (fields : List Field) : BitWriter := fields.foldl write writer

/-- Reads fields one behind the other: the answer to each read, and where the
reader stands after it. -/
def readAll (reader : BitReader) : List Field → List (Except Error Value × Nat)
  | [] => []
  | field :: rest =>
      let (answer, after) := field.read.run reader
      (answer, after.position) :: readAll after rest

/-- The value of each field that is written, and the length of the writer after
it. -/
def records (writer : BitWriter) : List Field → List (Value × Nat)
  | [] => []
  | field :: rest =>
      (field.value writer.length, (field.write writer).length) :: records (field.write writer) rest

/-! ## The bits of a field -/

/-- The bits of a field behind `before` bits. -/
def bits (before : Nat) : Field → List Bool
  | bit value => [value]
  | fixed value width _ => ofNumber width value
  | unsigned value _ => BitWriter.unsignedCode value
  | signed value _ _ => BitWriter.unsignedCode (BitWriter.codeOfSigned value)
  | alignment => padding before

theorem write_eq (writer : BitWriter) (field : Field) :
    field.write writer = writer.append (field.bits writer.length) := by
  cases field with
  | bit value => exact writer.writeBit_eq value
  | fixed value width fits => exact writer.writeBits_eq value fits
  | unsigned value fits =>
      exact writer.writeUnsignedCode_eq (Nat.lt_of_lt_of_le fits (Nat.sub_le _ _))
  | signed value above below => exact writer.writeSignedCode_eq value
  | alignment => exact writer.alignToByte_eq

theorem length_write (writer : BitWriter) (field : Field) :
    (field.write writer).length = writer.length + (field.bits writer.length).length := by
  rw [write_eq, BitWriter.length_append]

/-- The bits of fields, the first of which has `before` bits before it. -/
def allBits (before : Nat) : List Field → List Bool
  | [] => []
  | field :: rest => field.bits before ++ allBits (before + (field.bits before).length) rest

theorem bits_writeAll (writer : BitWriter) (fields : List Field) :
    (writeAll writer fields).bits = writer.bits ++ allBits writer.length fields := by
  induction fields generalizing writer with
  | nil => exact (List.append_nil _).symm
  | cons field rest inductionHypothesis =>
      have later := inductionHypothesis (field.write writer)
      rw [length_write, write_eq] at later
      rw [writeAll, List.foldl_cons, ← writeAll, write_eq, later, allBits, BitWriter.bits_append,
        List.append_assoc]

/-! ## One field -/

theorem run_map
    {α β : Type}
    {chain : Parse α}
    {start after : BitReader}
    {value : α}
    (make : α → β)
    (answered : chain.run start = (.ok value, after)) :
    (make <$> chain).run start = (.ok (make value), after) := by
  rw [ExceptT.run_map]
  exact congrArg (fun answer => (Except.map make answer.1, answer.2)) answered

variable {reader : BitReader}

theorem alignToByte_eq_advance (reader : BitReader) :
    reader.alignToByte = reader.advance (padding reader.position).length := by
  have boundary : (reader.position + 7) / 8 * 8
      = reader.position + (8 - reader.position % 8) % 8 := by
    omega
  unfold BitReader.alignToByte BitReader.advance padding
  rw [boundary, List.length_replicate]

/-- A field whose bits lie ahead is read whole, and nothing behind it. -/
theorem run_read
    {rest : List Bool}
    (field : Field)
    (ahead : reader.bitsAhead = field.bits reader.position ++ rest) :
    field.read.run reader
      = (.ok (field.value reader.position),
          reader.advance (field.bits reader.position).length) := by
  cases field with
  | bit value => exact run_map Value.bit (BitReader.readFlag_of_bitsAhead ahead)
  | fixed value width fits =>
      have answered := BitReader.readBits_of_bitsAhead ahead (by
        dsimp only [bits]
        rwa [length_ofNumber])
      dsimp only [bits] at answered ⊢
      rw [toNumber_ofNumber, length_ofNumber] at answered
      rw [length_ofNumber]
      exact run_map Value.number answered
  | unsigned value fits =>
      exact run_map Value.number (BitReader.readUnsignedCode_of_bitsAhead ahead fits)
  | signed value above below =>
      exact run_map Value.integer (BitReader.readSignedCode_of_bitsAhead ahead above below)
  | alignment =>
      have distance : reader.alignToByte.position - reader.position
          = (padding reader.position).length := by
        rw [alignToByte_eq_advance]
        exact Nat.add_sub_cancel_left _ _
      have passed : reader.bitsAhead.take (reader.alignToByte.position - reader.position)
          = padding reader.position := by
        rw [ahead, distance]
        exact List.take_left' rfl
      dsimp only [read, ExceptT.run, value, bits]
      rw [passed, alignToByte_eq_advance]

/-! ## All fields -/

/-- A reader and a writer that stand at the same place go on in step, whatever
lies behind the fields. -/
theorem readAll_of_bitsAhead
    {rest : List Bool}
    (writer : BitWriter)
    (fields : List Field)
    (together : reader.position = writer.length)
    (ahead : reader.bitsAhead = allBits writer.length fields ++ rest) :
    readAll reader fields
      = (records writer fields).map fun (value, place) => (.ok value, place) := by
  induction fields generalizing reader writer with
  | nil => rfl
  | cons field fields inductionHypothesis =>
      rw [allBits, List.append_assoc, ← together] at ahead
      have answered := run_read field ahead
      have stillTogether : (reader.advance (field.bits reader.position).length).position
          = (field.write writer).length := by
        rw [length_write, ← together]
        rfl
      have behind : (reader.advance (field.bits reader.position).length).bitsAhead
          = allBits (field.write writer).length fields ++ rest := by
        rw [BitReader.bitsAhead_advance, ahead, List.drop_left, length_write, ← together]
      rw [readAll, answered, records, List.map_cons, ← together, ← stillTogether]
      exact congrArg _ (inductionHypothesis (field.write writer) stillTogether behind)

/-- Reading the bytes that were written returns every value in order, and the
reader stands after each field where the writer stood. -/
theorem readAll_toBytes (fields : List Field) :
    readAll (BitReader.ofBytes (writeAll .empty fields).toBytes) fields
      = (records .empty fields).map fun (value, place) => (.ok value, place) := by
  apply readAll_of_bitsAhead .empty fields rfl
  · rw [BitReader.bitsAhead_ofBytes, BitWriter.toBytes, BitWriter.ofBytes_data, bits_writeAll]
    rfl

end Field

end MediaSplit.Bits

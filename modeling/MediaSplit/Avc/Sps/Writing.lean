import MediaSplit.Avc.Sps.Form

/-!
Contract: sequence parameter sets of AVC video, written with a bit writer.

Owns:
- `SpsForm.write`, which gives a bit writer the elements of a parameter set in
  their order;
- `SpsForm.write_eq`: a writer has then been given `SpsForm.bits` and nothing else,
  if there are codes for the elements.

Does **not** own: what follows the timing. Whoever writes a parameter set may go
on with the same writer.
-/

set_option autoImplicit false

namespace MediaSplit

namespace BitWriter

/-- Writes a flag, and behind it what it announces. -/
def writeAnnounced {α : Type} (write : α → BitWriter → BitWriter) (part : Option α)
    (writer : BitWriter) : BitWriter :=
  match part with
  | none => writer.writeBit false
  | some part => write part (writer.writeBit true)

/-- Writes parts one behind the other. -/
def writeEach {α : Type} (write : α → BitWriter → BitWriter) (parts : List α)
    (writer : BitWriter) : BitWriter :=
  parts.foldl (fun writer part => write part writer) writer

section Parts

variable {α : Type} {write : α → BitWriter → BitWriter} {bits : α → List Bool}

theorem writeAnnounced_eq
    {part : Option α}
    (appends : ∀ one ∈ part, ∀ writer, write one writer = writer.append (bits one))
    (writer : BitWriter) :
    writeAnnounced write part writer = writer.append (Avc.announcedBits (part.map bits)) := by
  cases part with
  | none => exact writer.writeBit_eq false
  | some part =>
      rw [writeAnnounced, appends part rfl, writeBit_eq, append_append]
      rfl

theorem writeEach_eq
    {parts : List α}
    (appends : ∀ one ∈ parts, ∀ writer, write one writer = writer.append (bits one))
    (writer : BitWriter) :
    writeEach write parts writer = writer.append (parts.flatMap bits) := by
  induction parts generalizing writer with
  | nil => rfl
  | cons part rest inductionHypothesis =>
      rw [List.forall_mem_cons] at appends
      rw [writeEach, List.foldl_cons, ← writeEach, inductionHypothesis appends.2, appends.1,
        append_append, List.flatMap_cons]

end Parts

end BitWriter

namespace Avc

/-- Writes signed codes one behind the other. -/
def writeSteps (steps : List Int) : BitWriter → BitWriter :=
  BitWriter.writeEach (fun step writer => writer.writeSignedCode step) steps

/-- Writes scaling lists, each of which may be absent. -/
def ScalingForm.write (form : ScalingForm) : BitWriter → BitWriter :=
  BitWriter.writeEach (BitWriter.writeAnnounced writeSteps) (form.small ++ form.large)

/-- Writes the colour elements. -/
def ChromaForm.write (form : ChromaForm) (writer : BitWriter) : BitWriter :=
  let writer := writer.writeUnsignedCode form.format
  let writer :=
    if form.format = Sps.fullChromaFormat then writer.writeBit form.hasPlanes else writer
  writer.writeUnsignedCode form.lumaDepth |>.writeUnsignedCode form.chromaDepth
    |>.writeBit form.isLossless |> BitWriter.writeAnnounced ScalingForm.write form.scaling

/-- Writes the elements about the order of pictures. -/
def OrderForm.write (form : OrderForm) (writer : BitWriter) : BitWriter :=
  match form with
  | counted size => writer.writeUnsignedCode 0 |>.writeUnsignedCode size
  | cyclic isFixed apart fieldsApart steps =>
      writer.writeUnsignedCode 1 |>.writeBit isFixed |>.writeSignedCode apart
        |>.writeSignedCode fieldsApart |>.writeUnsignedCode steps.length
        |> writeSteps steps
  | inOrder => writer.writeUnsignedCode 2

/-- Writes the crop. -/
def Crop.write (crop : Crop) (writer : BitWriter) : BitWriter :=
  writer.writeUnsignedCode crop.left |>.writeUnsignedCode crop.right
    |>.writeUnsignedCode crop.top |>.writeUnsignedCode crop.bottom

/-- Writes a pixel shape. -/
def ShapeForm.write (form : ShapeForm) (writer : BitWriter) : BitWriter :=
  match form with
  | coded code => writer.writeBits code 8
  | written width height =>
      writer.writeBits Sps.writtenShape 8 |>.writeBits width 16 |>.writeBits height 16

/-- Writes the four bits about the signal, and its colours. -/
def writeSignal (signal : Nat × Option Nat) (writer : BitWriter) : BitWriter :=
  writer.writeBits signal.1 4
    |> BitWriter.writeAnnounced (fun colours writer => writer.writeBits colours 24) signal.2

/-- Writes where colours are sampled, in each field. -/
def writePlaces (places : Nat × Nat) (writer : BitWriter) : BitWriter :=
  writer.writeUnsignedCode places.1 |>.writeUnsignedCode places.2

/-- Writes the units in a tick and those in a second. -/
def writeTiming (timing : Nat × Nat) (writer : BitWriter) : BitWriter :=
  writer.writeBits timing.1 32 |>.writeBits timing.2 32

/-- Writes what is said about the use of the pictures, as far as the timing. -/
def UsabilityForm.write (form : UsabilityForm) (writer : BitWriter) : BitWriter :=
  writer |> BitWriter.writeAnnounced ShapeForm.write form.shape
    |> BitWriter.writeAnnounced (fun mayCut writer => writer.writeBit mayCut) form.overscan
    |> BitWriter.writeAnnounced writeSignal form.signal
    |> BitWriter.writeAnnounced writePlaces form.chromaPlaces
    |> BitWriter.writeAnnounced writeTiming form.timing

/-- Writes whether macroblocks choose between frame and field. -/
def writeFieldChoice (fieldChoice : Option Bool) (writer : BitWriter) : BitWriter :=
  match fieldChoice with
  | none => writer.writeBit true
  | some choice => writer.writeBit false |>.writeBit choice

namespace SpsForm

/-- Writes the elements of a parameter set. -/
def write (form : SpsForm) (writer : BitWriter) : BitWriter :=
  let writer := writer.writeBits form.profile 8 |>.writeBits form.constraintFlags 8
    |>.writeBits form.level 8 |>.writeUnsignedCode form.id
  let writer :=
    match form.chroma with
    | none => writer
    | some chroma => chroma.write writer
  writer.writeUnsignedCode form.frameNumberSize |> form.order.write
    |>.writeUnsignedCode form.referenceFrames |>.writeBit form.mayHaveGaps
    |>.writeUnsignedCode form.columnField |>.writeUnsignedCode form.rowField
    |> writeFieldChoice form.fieldChoice |>.writeBit form.infersMotion
    |> BitWriter.writeAnnounced Crop.write form.crop
    |> BitWriter.writeAnnounced UsabilityForm.write form.usability

end SpsForm

/-! ## What the writer has been given -/

open BitWriter

theorem write_unsignedBits
    {value : Nat}
    (hasCode : HasCode value)
    (writer : BitWriter) :
    writer.writeUnsignedCode value = writer.append (unsignedBits value) :=
  writer.writeUnsignedCode_eq (Nat.lt_of_lt_of_le hasCode (Nat.sub_le _ _))

theorem write_signedBits (value : Int) (writer : BitWriter) :
    writer.writeSignedCode value = writer.append (signedBits value) :=
  writer.writeSignedCode_eq value

theorem writeSteps_eq (steps : List Int) (writer : BitWriter) :
    writeSteps steps writer = writer.append (steps.flatMap signedBits) :=
  writeEach_eq (fun step _ => write_signedBits step) writer

theorem ScalingForm.write_eq (form : ScalingForm) (writer : BitWriter) :
    form.write writer = writer.append form.bits :=
  writeEach_eq (fun _ _ => writeAnnounced_eq fun steps _ => writeSteps_eq steps) writer

theorem ChromaForm.write_eq
    {form : ChromaForm}
    (writable : form.IsWritable)
    (writer : BitWriter) :
    form.write writer = writer.append form.bits := by
  obtain ⟨format, luma, chroma, -⟩ := writable
  have scaling := writeAnnounced_eq fun (scaling : ScalingForm) (_ : scaling ∈ form.scaling) =>
    scaling.write_eq
  unfold write bits
  split <;>
    simp only [write_unsignedBits format, write_unsignedBits luma, write_unsignedBits chroma,
      writeBit_eq, scaling, append_append, List.append_assoc, List.nil_append]

theorem OrderForm.write_eq
    {form : OrderForm}
    (writable : form.IsWritable)
    (writer : BitWriter) :
    form.write writer = writer.append form.bits := by
  have small : ∀ value, value ≤ 255 → HasCode value := fun value fits =>
    Nat.lt_of_le_of_lt fits (by decide)
  cases form with
  | counted size =>
      rw [write, write_unsignedBits (small 0 (by decide)), write_unsignedBits writable,
        append_append, bits]
  | cyclic isFixed apart fieldsApart steps =>
      obtain ⟨-, -, -, short⟩ := writable
      simp only [write, bits, write_unsignedBits (small 1 (by decide)),
        write_unsignedBits (small _ short), writeSteps_eq, write_signedBits, writeBit_eq,
        append_append, List.append_assoc]
  | inOrder => exact write_unsignedBits (small 2 (by decide)) writer

theorem Crop.write_eq {crop : Crop} (writable : crop.IsWritable) (writer : BitWriter) :
    crop.write writer = writer.append crop.bits := by
  obtain ⟨left, right, top, bottom⟩ := writable
  simp only [write, bits, write_unsignedBits left, write_unsignedBits right,
    write_unsignedBits top, write_unsignedBits bottom, append_append, List.append_assoc]

theorem ShapeForm.write_eq (form : ShapeForm) (writer : BitWriter) :
    form.write writer = writer.append form.bits := by
  cases form with
  | coded code => exact writeBits_eq writer code (by decide)
  | written width height =>
      simp only [write, bits, writeBits_eq _ _ (show 8 ≤ 32 by decide),
        writeBits_eq _ _ (show 16 ≤ 32 by decide), append_append, List.append_assoc]

theorem writeSignal_eq (signal : Nat × Option Nat) (writer : BitWriter) :
    writeSignal signal writer
      = writer.append
        (Bits.ofNumber 4 signal.1 ++ announcedBits (signal.2.map (Bits.ofNumber 24))) := by
  have colours := writeAnnounced_eq fun (colours : Nat) (_ : colours ∈ signal.2) writer =>
    writeBits_eq writer colours (show 24 ≤ 32 by decide)
  rw [writeSignal, colours, writeBits_eq _ _ (by decide), append_append]

theorem writePlaces_eq
    {places : Nat × Nat}
    (writable : HasCode places.1 ∧ HasCode places.2)
    (writer : BitWriter) :
    writePlaces places writer
      = writer.append (unsignedBits places.1 ++ unsignedBits places.2) := by
  rw [writePlaces, write_unsignedBits writable.1, write_unsignedBits writable.2, append_append]

theorem writeTiming_eq (timing : Nat × Nat) (writer : BitWriter) :
    writeTiming timing writer
      = writer.append (Bits.ofNumber 32 timing.1 ++ Bits.ofNumber 32 timing.2) := by
  rw [writeTiming, writeBits_eq _ _ (by decide), writeBits_eq _ _ (by decide), append_append]

theorem UsabilityForm.write_eq
    {form : UsabilityForm}
    (writable : form.IsWritable)
    (writer : BitWriter) :
    form.write writer = writer.append form.bits := by
  obtain ⟨-, places, -⟩ := writable
  have shape := writeAnnounced_eq fun (shape : ShapeForm) (_ : shape ∈ form.shape) =>
    shape.write_eq
  have overscan := writeAnnounced_eq fun (mayCut : Bool) (_ : mayCut ∈ form.overscan) writer =>
    writeBit_eq writer mayCut
  have signal := writeAnnounced_eq fun signal (_ : signal ∈ form.signal) => writeSignal_eq signal
  have chromaPlaces := writeAnnounced_eq fun one among => writePlaces_eq (places one among)
  have timing := writeAnnounced_eq fun timing (_ : timing ∈ form.timing) => writeTiming_eq timing
  simp only [write, bits, shape, overscan, signal, chromaPlaces, timing, append_append,
    List.append_assoc]

theorem writeFieldChoice_eq (fieldChoice : Option Bool) (writer : BitWriter) :
    writeFieldChoice fieldChoice writer = writer.append (fieldChoiceBits fieldChoice) := by
  cases fieldChoice with
  | none => exact writer.writeBit_eq true
  | some choice => exact append_append writer [false] [choice]

/-- A writer is given the elements in their order and nothing else. -/
theorem SpsForm.write_eq
    {form : SpsForm}
    (writable : form.IsWritable)
    (writer : BitWriter) :
    form.write writer = writer.append form.bits := by
  obtain ⟨-, -, -, id, frameNumbers, references, columns, rows, -, chromaWritable, order,
    cropWritable, usabilityWritable⟩ := writable
  have eight := fun writer value => writeBits_eq writer value (show 8 ≤ 32 by decide)
  have crop := writeAnnounced_eq fun one among => Crop.write_eq (cropWritable one among)
  have usability := writeAnnounced_eq fun one among =>
    UsabilityForm.write_eq (usabilityWritable one among)
  have codes := fun {value} (hasCode : HasCode value) => write_unsignedBits hasCode
  unfold write bits codedBits
  cases hasChroma : form.chroma with
  | none =>
      simp only [eight, codes id, codes frameNumbers, codes references, codes columns, codes rows,
        writeBit_eq, OrderForm.write_eq order, writeFieldChoice_eq, crop, usability, append_append,
        List.append_assoc, Option.map_none, Option.getD_none, List.nil_append]
  | some chroma =>
      have coloured := ChromaForm.write_eq (chromaWritable chroma hasChroma)
      simp only [eight, codes id, codes frameNumbers, codes references, codes columns, codes rows,
        writeBit_eq, coloured, OrderForm.write_eq order, writeFieldChoice_eq, crop, usability,
        append_append, List.append_assoc, Option.map_some, Option.getD_some]

end Avc

end MediaSplit

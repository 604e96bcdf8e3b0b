import MediaSplit.Avc.Sps.Form
import MediaSplit.Chain

/-!
Contract: what is written of a parameter set is read back.

Owns:
- `Sps.Reads`, a chain that takes certain bits from the front of what lies ahead
  and gives a certain value, with the laws for chains of chains;
- for each part of a parameter set, that its chain reads the part as it is
  written;
- `Sps.reads_read`: so does the chain for the whole.

Does **not** own: bits that no writable parameter set is written in.

What lies behind the bits is never looked at, so the laws hold whatever follows.
-/

set_option autoImplicit false

namespace MediaSplit.Avc.Sps

open BitReader

/-- A chain that takes these bits, whatever lies behind them, and gives this
value. -/
def Reads {α : Type} (chain : Parse α) (bits : List Bool) (value : α) : Prop :=
  ∀ (reader : BitReader) (rest : List Bool), reader.bitsAhead = bits ++ rest →
    chain.run reader = (.ok value, reader.advance bits.length)

section Laws

variable {α β : Type} {chain : Parse α} {next : α → Parse β} {bits more : List Bool}
  {value : α} {result : β}

theorem reads_pure (value : α) : Reads (pure value) [] value := fun _ _ _ => rfl

theorem Reads.bind (first : Reads chain bits value) (second : Reads (next value) more result) :
    Reads (chain >>= next) (bits ++ more) result := by
  intro reader rest ahead
  rw [List.append_assoc] at ahead
  have begun : chain reader = _ := first reader (more ++ rest) ahead
  have behind : (reader.advance bits.length).bitsAhead = more ++ rest := by
    rw [bitsAhead_advance, ahead, List.drop_left]
  rw [ExceptT.run, Chain.run_bind, begun]
  dsimp only
  have finished : next value (reader.advance bits.length) = _ := second _ rest behind
  rw [finished, List.length_append, advance, advance, advance, Nat.add_assoc]

/-- A chain whose last step reads nothing. -/
theorem Reads.bind_pure (first : Reads chain bits value) (make : α → β) :
    Reads (chain >>= fun value => pure (make value)) bits (make value) := by
  rw [← List.append_nil bits]
  exact first.bind (reads_pure (make value))

/-- A chain whose first step reads nothing. -/
theorem Reads.bind_nil (nothing : Reads chain [] value)
    (second : Reads (next value) more result) : Reads (chain >>= next) more result :=
  nothing.bind second

theorem reads_note {number : Number} (fits : number.Fits) :
    Reads (Reading.note number) [] () := by
  intro reader rest _
  show (if number.Fits then (pure () : Parse Unit) else throw .overflow) reader = _
  rw [if_pos fits]
  rfl

theorem reads_noteAll {numbers : List Number} (fit : ∀ number ∈ numbers, number.Fits) :
    Reads (noteAll numbers) [] () := by
  induction numbers with
  | nil => exact reads_pure ()
  | cons number rest inductionHypothesis =>
      obtain ⟨first, others⟩ := List.forall_mem_cons.1 fit
      exact (reads_note first).bind (inductionHypothesis others)

theorem reads_element
    {read : Bits.Parse α}
    (reads : ∀ (reader : BitReader) (rest : List Bool), reader.bitsAhead = bits ++ rest →
      read.run reader = (.ok value, reader.advance bits.length)) :
    Reads (Reading.element read) bits value := by
  intro reader rest ahead
  have answered : read reader = _ := reads reader rest ahead
  have adapted : (Reading.element read : Parse α) reader
      = ((read reader).1.mapError Error.bits, (read reader).2) := rfl
  rw [ExceptT.run, adapted, answered]
  rfl

/-- A chain that names what it has read. -/
theorem Reads.noted {name : α → Number} (first : Reads chain bits value)
    (fits : (name value).Fits) :
    Reads (chain >>= fun value => Reading.note (name value) >>= fun _ => pure value) bits
      value := by
  rw [← List.append_nil bits]
  exact first.bind ((reads_note fits).bind_pure fun _ => value)

end Laws

/-! ## Single elements -/

theorem reads_fixed_toNumber (bits : List Bool) (fits : bits.length ≤ 32) :
    Reads (fixed bits.length) bits (Bits.toNumber bits) := by
  have below : Bits.toNumber bits < 2 ^ 32 :=
    Nat.lt_of_lt_of_le (Bits.toNumber_lt bits) (Nat.pow_le_pow_right (by decide) fits)
  exact (reads_element fun _ _ ahead => readBits_of_bitsAhead ahead fits).noted below

theorem reads_fixed {count value : Nat} (fits : count ≤ 32) (below : value < 2 ^ count) :
    Reads (fixed count) (Bits.ofNumber count value) value := by
  have reads := reads_fixed_toNumber (Bits.ofNumber count value)
    (by rwa [Bits.length_ofNumber])
  rwa [Bits.length_ofNumber, Bits.toNumber_ofNumber, Nat.mod_eq_of_lt below] at reads

theorem reads_flag (bit : Bool) : Reads flag [bit] bit := by
  have number : Reads (fixed 1) [bit] (Bits.toNumber [bit]) :=
    reads_fixed_toNumber [bit] (Nat.le_add_left 1 31)
  have answered := number.bind_pure fun value => value == 1
  have isBit : (Bits.toNumber [bit] == 1) = bit := by cases bit <;> rfl
  rwa [isBit] at answered

theorem reads_unsigned {value : Nat} (hasCode : HasCode value) :
    Reads unsigned (unsignedBits value) value :=
  (reads_element fun _ _ ahead => readUnsignedCode_of_bitsAhead ahead hasCode).noted
    (Nat.lt_trans hasCode (by decide))

theorem reads_signed {value : Int} (hasCode : HasSignedCode value) :
    Reads signed (signedBits value) value :=
  (reads_element fun _ _ ahead =>
    readSignedCode_of_bitsAhead ahead hasCode.1 hasCode.2).noted
      ⟨Int.le_of_lt hasCode.1, hasCode.2⟩

theorem reads_pass (bits : List Bool) : Reads (pass bits.length) bits () :=
  reads_element fun _ _ ahead => skip_of_bitsAhead ahead

theorem reads_pass_ofNumber (count value : Nat) :
    Reads (pass count) (Bits.ofNumber count value) () := by
  have reads := reads_pass (Bits.ofNumber count value)
  rwa [Bits.length_ofNumber] at reads

theorem reads_passOneIf {stands : Prop} [Decidable stands] {bits : List Bool}
    (one : stands → bits.length = 1) (none : ¬ stands → bits = []) :
    Reads (passOneIf stands) bits () := by
  unfold passOneIf
  split
  next isThere =>
      rw [← one isThere]
      exact reads_pass bits
  next isAbsent =>
      rw [none isAbsent]
      exact reads_pure ()

theorem reads_announced
    {α γ : Type}
    {read : Parse α}
    {part : Option γ}
    {bitsOf : γ → List Bool}
    (valueOf : γ → α)
    (reads : ∀ form ∈ part, Reads read (bitsOf form) (valueOf form)) :
    Reads (announced read) (announcedBits (part.map bitsOf)) (part.map valueOf) := by
  cases part with
  | none => exact (reads_flag false).bind (reads_pure _)
  | some form =>
      have answered := reads form rfl
      exact (reads_flag true).bind (answered.bind_pure some)

theorem reads_repeated
    {α γ : Type}
    {read : Parse α}
    {parts : List γ}
    {bitsOf : γ → List Bool}
    (valueOf : γ → α)
    (reads : ∀ part ∈ parts, Reads read (bitsOf part) (valueOf part)) :
    Reads (repeated read parts.length) (parts.flatMap bitsOf) () := by
  induction parts with
  | nil => exact reads_pure ()
  | cons part rest inductionHypothesis =>
      obtain ⟨first, others⟩ := List.forall_mem_cons.1 reads
      exact first.bind (inductionHypothesis others)

/-! ## Colours -/

theorem nextScale_eq {last step : Int} (positive : 1 ≤ last) (isByte : last ≤ 255)
    (above : -128 ≤ step) (below : step ≤ 127) : nextScale last step = (last + step) % 256 := by
  rw [nextScale, Int.tmod_eq_emod_of_nonneg (by omega), Int.add_emod_right]

theorem reads_passScales_zero (count : Nat) (last : Int) :
    Reads (passScales count last 0) [] () := by
  induction count with
  | zero => exact reads_pure ()
  | succ count inductionHypothesis => exact inductionHypothesis

theorem reads_readScale {last step : Int} (positive : 1 ≤ last) (isByte : last ≤ 255)
    (above : -128 ≤ step) (below : step ≤ 127) :
    Reads (readScale last) (signedBits step) (nextScale last step) := by
  have hasCode : HasSignedCode step := ⟨by omega, by omega⟩
  have sum : (Number.scaleSum last step).Fits := ⟨⟨by omega, by omega⟩, by omega, by omega⟩
  have scale : (Number.signed (nextScale last step)).Fits := by
    rw [nextScale_eq positive isByte above below]
    exact ⟨by omega, by omega⟩
  have both := List.forall_mem_cons.2 ⟨sum, List.forall_mem_singleton.2 scale⟩
  rw [← List.append_nil (signedBits step)]
  exact (reads_signed hasCode).bind
    ((reads_noteAll both).bind_pure fun _ => nextScale last step)

/-- The steps of a list are read to the one that leads to zero, and no further. -/
theorem reads_passScales {count : Nat} {last next : Int} {steps : ScalingSteps}
    (positive : 1 ≤ last) (isByte : last ≤ 255) (goesOn : next ≠ 0)
    (complete : AreScalingSteps count last steps) :
    Reads (passScales count last next) (steps.flatMap signedBits) () := by
  induction count generalizing last next steps with
  | zero =>
      cases (complete : steps = [])
      exact reads_pure ()
  | succ count inductionHypothesis =>
      cases steps with
      | nil => exact absurd complete id
      | cons step rest =>
          obtain ⟨above, below, onward⟩ := complete
          have scale := nextScale_eq positive isByte above below
          rw [passScales, if_neg goesOn]
          refine (reads_readScale positive isByte above below).bind ?_
          rw [scale]
          by_cases isZero : (last + step) % 256 = 0
          · rw [if_pos isZero] at onward
            rw [isZero, if_pos rfl, onward]
            exact reads_passScales_zero count last
          · rw [if_neg isZero] at onward
            rw [if_neg isZero]
            exact inductionHypothesis (by omega) (by omega) isZero onward

theorem reads_scalingList {count : Nat} {list : Option ScalingSteps}
    (complete : ∀ steps ∈ list, AreScalingSteps count firstScale steps) :
    Reads (announced (passScales count firstScale firstScale))
      (announcedBits (list.map (·.flatMap signedBits))) (list.map fun _ => ()) :=
  reads_announced _ fun steps present =>
    reads_passScales (by decide) (by decide) (by decide) (complete steps present)

theorem reads_passScalingLists {form : ScalingForm}
    (smallComplete : ∀ list ∈ form.small, ∀ steps ∈ list, AreScalingSteps 16 firstScale steps)
    (largeComplete : ∀ list ∈ form.large, ∀ steps ∈ list, AreScalingSteps 64 firstScale steps) :
    Reads (passScalingLists form.small.length form.large.length) form.bits () := by
  rw [ScalingForm.bits, List.flatMap_append]
  exact (reads_repeated _ fun list member => reads_scalingList (smallComplete list member)).bind
    (reads_repeated _ fun list member => reads_scalingList (largeComplete list member))

theorem reads_readChroma {form : ChromaForm} (writable : form.IsWritable) :
    Reads readChroma form.bits form.format := by
  obtain ⟨format, luma, chroma, scaling⟩ := writable
  have lists : ∀ scaling ∈ form.scaling,
      Reads (passScalingLists 6 (if form.format = fullChromaFormat then 6 else 2)) scaling.bits
        () := by
    intro lists present
    obtain ⟨small, large, smallComplete, largeComplete⟩ := scaling lists present
    rw [← large, ← small]
    exact reads_passScalingLists smallComplete largeComplete
  simp only [ChromaForm.bits, List.append_assoc]
  refine (reads_unsigned format).bind (.bind (reads_passOneIf ?_ ?_) ?_)
  · exact fun isFull => by rw [if_pos isFull]; rfl
  · exact fun notFull => if_neg notFull
  refine (reads_unsigned luma).bind ((reads_unsigned chroma).bind ?_)
  exact (reads_pass [form.isLossless]).bind
    ((reads_announced _ lists).bind_pure fun _ => form.format)

/-- Colour elements are read for the profiles that have them. -/
theorem contains_chromaProfiles (profile : Nat) :
    chromaProfiles.contains profile = profilesWithChroma.contains profile := by
  have reordered : chromaProfiles.Perm profilesWithChroma := by decide
  rw [Bool.eq_iff_iff, List.contains_iff_mem, List.contains_iff_mem]
  exact reordered.mem_iff

theorem reads_readSampling {profile : Nat} {chroma : Option ChromaForm}
    (byProfile : chroma.isSome = profilesWithChroma.contains profile)
    (writable : ∀ form ∈ chroma, form.IsWritable) :
    Reads (readSampling profile) ((chroma.map ChromaForm.bits).getD [])
      ((chroma.map ChromaForm.format).getD defaultChromaFormat) := by
  unfold readSampling
  rw [contains_chromaProfiles, ← byProfile]
  cases chroma with
  | none => exact reads_pure _
  | some form => exact reads_readChroma (writable form rfl)

/-! ## The order of pictures -/

theorem reads_passCycle {steps : List Int} (haveCodes : ∀ step ∈ steps, HasSignedCode step)
    (fits : steps.length ≤ maxOrderCycle) :
    Reads (passCycle steps.length) (steps.flatMap signedBits) () := by
  rw [passCycle, if_neg (Nat.not_lt.2 fits)]
  exact reads_repeated id fun step member => reads_signed (haveCodes step member)

theorem reads_passPictureOrder {form : OrderForm} (writable : form.IsWritable) :
    Reads passPictureOrder form.bits () := by
  cases form with
  | counted size =>
      exact (reads_unsigned (by decide)).bind
        ((reads_unsigned writable).bind_pure fun _ => ())
  | cyclic isFixed apart fieldsApart steps =>
      obtain ⟨hasCode, fieldsHaveCode, haveCodes, fits⟩ := writable
      have cycleHasCode : HasCode steps.length := Nat.lt_of_le_of_lt fits (by decide)
      simp only [OrderForm.bits, List.append_assoc]
      refine (reads_unsigned (by decide)).bind ?_
      refine (reads_pass [isFixed]).bind ((reads_signed hasCode).bind ?_)
      exact (reads_signed fieldsHaveCode).bind
        ((reads_unsigned cycleHasCode).bind (reads_passCycle haveCodes fits))
  | inOrder =>
      rw [← List.append_nil (OrderForm.bits .inOrder)]
      exact (reads_unsigned (show HasCode 2 by decide)).bind (reads_pure ())

/-! ## Crop and use of the pictures -/

theorem reads_readCount {field : Nat} (hasCode : HasCode field) :
    Reads readCount (unsignedBits field) (clamped (field + 1)) := by
  have fits : (Number.unsigned (clamped (field + 1))).Fits := clamped_lt _
  rw [← List.append_nil (unsignedBits field)]
  exact (reads_unsigned hasCode).bind
    ((reads_note fits).bind_pure fun _ => clamped (field + 1))

theorem reads_readFramesOnly (fieldChoice : Option Bool) :
    Reads readFramesOnly (fieldChoiceBits fieldChoice) fieldChoice.isNone := by
  cases fieldChoice with
  | none =>
      have none : Reads (passOneIf ((!true) = true)) [] () :=
        reads_passOneIf (fun stands => nomatch stands) fun _ => rfl
      exact (reads_flag true).bind (none.bind_pure fun _ => true)
  | some choice =>
      have one : Reads (passOneIf ((!false) = true)) [choice] () :=
        reads_passOneIf (fun _ => rfl) fun absent => absurd rfl absent
      exact (reads_flag false).bind (one.bind_pure fun _ => false)

theorem reads_readCrop {crop : Crop} (writable : crop.IsWritable) :
    Reads readCrop crop.bits crop := by
  obtain ⟨left, right, top, bottom⟩ := writable
  simp only [Crop.bits, List.append_assoc]
  refine (reads_unsigned left).bind ((reads_unsigned right).bind ((reads_unsigned top).bind ?_))
  exact (reads_unsigned bottom).bind_pure fun bottom =>
    Crop.mk crop.left crop.right crop.top bottom

/-- Width and height of a pixel as they are read, zeros where a code is
reserved. -/
def shapeRead : ShapeForm → Nat × Nat
  | .coded code => pixelShapes.getD code (0, 0)
  | .written width height => (width, height)

theorem reads_readPixelShape {form : ShapeForm} (writable : form.IsWritable) :
    Reads readPixelShape form.bits (shapeRead form) := by
  cases form with
  | coded code =>
      have isCode : code < writtenShape := writable
      rw [← List.append_nil (ShapeForm.bits (.coded code))]
      refine (reads_fixed (by decide) (Nat.lt_trans isCode (by decide))).bind ?_
      rw [if_neg (Nat.ne_of_lt isCode)]
      exact reads_pure _
  | written width height =>
      simp only [ShapeForm.bits, List.append_assoc]
      refine (reads_fixed (by decide) (by decide)).bind ?_
      rw [if_pos rfl]
      refine (reads_fixed (by decide) writable.1).bind ?_
      exact (reads_fixed (by decide) writable.2).bind_pure fun height => (width, height)

theorem meaningful_some (first second : Nat) :
    meaningful (some (first, second))
      = if first = 0 ∨ second = 0 then none else some (first, second) := by
  by_cases isZero : first = 0 ∨ second = 0
  · rw [if_pos isZero]
    rcases isZero with rfl | rfl <;> simp [meaningful]
  · rw [if_neg isZero]
    obtain ⟨notFirst, notSecond⟩ := not_or.1 isZero
    simp [meaningful, notFirst, notSecond]

theorem size?_of_reserved {code : Nat} (isReserved : pixelShapes.length ≤ code) :
    (ShapeForm.coded code).size? = none := by
  obtain ⟨more, rfl⟩ := Nat.exists_eq_add_of_le' (show 17 ≤ code from isReserved)
  rfl

/-- The shapes of the table are those of the standard. -/
theorem meaningful_shapeRead (shape : Option ShapeForm) :
    meaningful (shape.map shapeRead) = shape.bind ShapeForm.size? := by
  cases shape with
  | none => rfl
  | some form =>
      cases form with
      | written width height => exact meaningful_some width height
      | coded code =>
          rcases Nat.lt_or_ge code pixelShapes.length with isListed | isReserved
          · revert code
            decide
          · have isDefault : shapeRead (.coded code) = (0, 0) := by
              show pixelShapes.getD code (0, 0) = _
              rw [List.getD_eq_getElem?_getD, List.getElem?_eq_none isReserved]
              rfl
            show meaningful (some (shapeRead (.coded code))) = (ShapeForm.coded code).size?
            rw [isDefault, size?_of_reserved isReserved]
            rfl

theorem meaningful_timing (form : UsabilityForm) : meaningful form.timing = form.timing? := by
  unfold meaningful UsabilityForm.timing?
  congr 1
  funext ⟨tick, second⟩
  grind

theorem reads_passSignal (signal : Nat × Option Nat) :
    Reads passSignal
      (Bits.ofNumber 4 signal.1 ++ announcedBits (signal.2.map (Bits.ofNumber 24))) () := by
  have colours : Reads (announced (pass 24))
      (announcedBits (signal.2.map (Bits.ofNumber 24))) (signal.2.map fun _ => ()) :=
    reads_announced _ fun value _ => reads_pass_ofNumber 24 value
  exact (reads_pass_ofNumber 4 signal.1).bind (colours.bind_pure fun _ => ())

theorem reads_readUsability {form : UsabilityForm} (writable : form.IsWritable) :
    Reads readUsability form.bits form.usability := by
  obtain ⟨shape, places, timing⟩ := writable
  simp only [UsabilityForm.bits, List.append_assoc]
  refine (reads_announced _ fun form present => reads_readPixelShape (shape form present)).bind ?_
  refine (reads_announced (fun _ => ()) fun mayCut _ => reads_pass [mayCut]).bind ?_
  refine (reads_announced (fun _ => ()) fun signal _ => reads_passSignal signal).bind ?_
  refine (reads_announced id fun pair present => ?_).bind ?_
  · obtain ⟨top, bottom⟩ := places pair present
    exact (reads_unsigned top).bind
      ((reads_unsigned bottom).bind_pure fun bottom => (pair.1, bottom))
  have told : Reads (announced do return (← fixed 32, ← fixed 32))
      (announcedBits (form.timing.map fun pair =>
        Bits.ofNumber 32 pair.1 ++ Bits.ofNumber 32 pair.2)) (form.timing.map id) := by
    apply reads_announced
    intro pair present
    obtain ⟨tick, second⟩ := timing pair present
    exact (reads_fixed (by decide) tick).bind
      ((reads_fixed (by decide) second).bind_pure fun second => (pair.1, second))
  have tells : Usability.mk (meaningful (form.shape.map shapeRead))
      (meaningful (form.timing.map id)) = form.usability := by
    rw [meaningful_shapeRead, Option.map_id, id, meaningful_timing]
    rfl
  rw [← tells]
  exact told.bind_pure _

/-! ## The whole -/

/-- What is read of a parameter set before the crop. -/
def codedPart (form : SpsForm) : Sps :=
  { profile := form.profile
    constraintFlags := form.constraintFlags
    level := form.level
    chromaFormat := form.chromaFormat
    columns := clamped (form.columnField + 1)
    rows := clamped (form.rowField + 1)
    isFramesOnly := form.fieldChoice.isNone
    crop := none
    usability := ⟨none, none⟩ }

/-- What is read of a parameter set. -/
def ofForm (form : SpsForm) : Sps :=
  { codedPart form with
    crop := form.crop
    usability := (form.usability.map UsabilityForm.usability).getD ⟨none, none⟩ }

theorem reads_readCoded {form : SpsForm} (writable : form.IsWritable) :
    Reads readCoded form.codedBits (codedPart form) := by
  obtain ⟨profile, flags, level, id, frameNumber, references, columns, rows, byProfile, chroma,
    order, -, -⟩ := writable
  simp only [SpsForm.codedBits, List.append_assoc]
  refine (reads_fixed (by decide) profile).bind ((reads_fixed (by decide) flags).bind ?_)
  refine (reads_fixed (by decide) level).bind ((reads_unsigned id).bind ?_)
  refine (reads_readSampling byProfile chroma).bind ((reads_unsigned frameNumber).bind ?_)
  refine (reads_passPictureOrder order).bind ((reads_unsigned references).bind ?_)
  refine (reads_pass [form.mayHaveGaps]).bind ((reads_readCount columns).bind ?_)
  refine (reads_readCount rows).bind ?_
  refine (reads_readFramesOnly form.fieldChoice).bind ?_
  exact (reads_pass [form.infersMotion]).bind_pure fun _ => codedPart form

/-- A parameter set is read as it is written, whatever follows the timing, as long
as the numbers of its crop have the bits of their type. -/
theorem reads_read {form : SpsForm} (writable : form.IsWritable)
    (cropFits : ∀ number ∈ (ofForm form).cropNumbers, number.Fits) :
    Reads read form.bits (ofForm form) := by
  obtain ⟨-, -, -, -, -, -, -, -, -, -, -, crop, usability⟩ := id writable
  simp only [SpsForm.bits, List.append_assoc]
  refine (reads_readCoded writable).bind
    (.bind_nil (reads_noteAll (fits_codedNumbers _)) ?_)
  have cropRead := reads_announced id fun written present =>
    reads_readCrop (crop written present)
  rw [Option.map_id] at cropRead
  refine cropRead.bind (.bind_nil (reads_noteAll cropFits) ?_)
  have usabilityRead := reads_announced _ fun written present =>
    reads_readUsability (usability written present)
  exact usabilityRead.bind_pure _

end MediaSplit.Avc.Sps

import MediaSplit.Avc.Sps.Form
import MediaSplit.Chain

/-!
Contract: the numbers that are computed while a parameter set is parsed.

Owns:
- `Sps.Noted`, a reading of parameter sets that keeps every number it computes, and
  `Sps.numbers`, what it has kept behind some data;
- `Sps.IsStopped`, that a chain is stopped by the first number that does not fit
  into its type, and by nothing else;
- `Sps.Follows`, that this reading comes to the same as the one that runs, and
  what it keeps is accounted for, with a law for each way in which chains are put
  together and a lemma for each part of a parameter set;
- that every number has the 32 bits of its type, but for sums of a scale and for
  products of a crop, and when these do not.

Does **not** own: numbers of a bit reader that are wider than 32 bits.

A number is kept as it would be without bounds, also the one that stops the
chain.
-/

set_option autoImplicit false

namespace MediaSplit

namespace Chain

/-! ## What bit reads give -/

/-- The value of a bit read, where it has one. -/
def Yields {α : Type} (read : Bits.Parse α) (yields : α → Prop) : Prop :=
  ∀ reader, Ensures read reader (fun _ _ => True) fun value _ => yields value

theorem yields_readBits {count : Nat} (fits : count ≤ 32) :
    Yields (BitReader.readBits count) (· < 2 ^ count) := by
  intro reader
  unfold Ensures BitReader.readBits
  rw [if_neg (Nat.not_lt.2 fits)]
  by_cases enough : reader.holds count = true
  · rw [if_pos enough]
    exact reader.fieldAhead_lt ((BitReader.holds_iff _ _).1 enough)
  · rw [if_neg enough]
    trivial

theorem yields_readZeroRun (allowed : Nat) :
    Yields (BitReader.readZeroRun allowed) (· ≤ allowed) := by
  have flag : Yields BitReader.readFlag fun _ => True := by
    intro reader
    apply (yields_readBits (show 1 ≤ 32 by decide) reader).bind
    exact fun _ _ _ => .pure trivial
  induction allowed with
  | zero =>
      intro reader
      apply (flag reader).bind
      rintro (_ | _) after -
      · exact .throw trivial
      · exact .pure (Nat.le_refl 0)
  | succ allowed inductionHypothesis =>
      intro reader
      apply (flag reader).bind
      rintro (_ | _) after -
      · apply (inductionHypothesis after).bind
        exact fun zeros _ fewer => .pure (Nat.succ_le_succ fewer)
      · exact .pure (Nat.zero_le _)

theorem yields_readUnsignedCode :
    Yields BitReader.readUnsignedCode (· < 2 ^ 32 - 1) := by
  intro reader
  apply (yields_readZeroRun BitReader.maxCodeZeros reader).bind
  intro zeros after few
  have fits : zeros ≤ 31 := few
  apply (yields_readBits (Nat.le_trans fits (by decide)) after).bind
  intro offset _ below
  have most : 2 ^ zeros ≤ 2 ^ 31 := Nat.pow_le_pow_right (by decide) fits
  refine .pure ?_
  show 2 ^ zeros - 1 + offset < 2 ^ 32 - 1
  omega

theorem yields_readSignedCode :
    Yields BitReader.readSignedCode fun value => -2 ^ 31 < value ∧ value < 2 ^ 31 := by
  intro reader
  apply (yields_readUnsignedCode reader).bind
  intro code _ below
  refine .pure ?_
  unfold BitReader.signedOfCode
  split <;> omega

end Chain

namespace Avc.Sps

/-! ## A reading that keeps numbers -/

/-- A chain of element reads that keeps the numbers it computes. -/
abbrev Noted : Type → Type := ExceptT Error (StateM (BitReader × List Number))

instance : Reading Noted where
  element read := fun (reader, numbers) =>
    ((read reader).1.mapError Error.bits, (read reader).2, numbers)
  refuse := throw
  note number := fun (reader, numbers) =>
    (if number.Fits then .ok () else .error .overflow, reader, numbers ++ [number])

/-- The numbers that are computed while `data` is parsed. -/
def numbers (data : Bytes) : List Number :=
  ((read : Noted Sps) (BitReader.ofBytes data, [])).2.2

/-- What is known of a number that is computed. -/
def Number.IsAccounted : Number → Prop
  | scaleSum last step => (-255 ≤ last ∧ last ≤ 255) ∧ HasSignedCode step
  | cropProduct unit count => (unit = 1 ∨ unit = 2 ∨ unit = 4) ∧ count < 2 ^ 32
  | other => other.Fits

/-- All numbers that were computed fit, up to the last one if the outcome is that a
number does not. -/
inductive IsStopped {α : Type} (outcome : Except Error α) : List Number → Prop
  | elsewhere {numbers : List Number}
      (notByNumber : outcome ≠ .error .overflow)
      (fit : ∀ number ∈ numbers, number.Fits) : IsStopped outcome numbers
  | byLast {numbers : List Number} {last : Number}
      (byNumber : outcome = .error .overflow)
      (fit : ∀ number ∈ numbers, number.Fits)
      (leaves : ¬ last.Fits) : IsStopped outcome (numbers ++ [last])

/-! ## Following the reading that runs -/

/-- The chain that keeps numbers comes to what the other one comes to, and adds
numbers that are accounted for. It is stopped by none but the last of them. -/
def Follows {α : Type} (noted : Noted α) (plain : Parse α) (yields : α → Prop) : Prop :=
  ∀ reader numbers, ∃ more,
    noted (reader, numbers) = ((plain reader).1, (plain reader).2, numbers ++ more)
      ∧ (∀ number ∈ more, number.IsAccounted)
      ∧ IsStopped (plain reader).1 more
      ∧ ∀ value, (plain reader).1 = .ok value → yields value

section Laws

variable {α β : Type} {noted : Noted α} {plain : Parse α} {yields : α → Prop}

/-- A chain that computes nothing is not stopped by a number. -/
theorem isStopped_nil {outcome : Except Error α} (notByNumber : outcome ≠ .error .overflow) :
    IsStopped outcome [] := .elsewhere notByNumber (List.forall_mem_nil _)

theorem follows_pure {value : α} (holds : yields value) :
    Follows (pure value) (pure value) yields := by
  intro reader numbers
  refine ⟨[], ?_, List.forall_mem_nil _, isStopped_nil (nomatch ·), ?_⟩
  · rw [List.append_nil]
    rfl
  · rintro _ ⟨rfl⟩
    exact holds

theorem Follows.bind
    {next : α → Noted β}
    {plainNext : α → Parse β}
    {result : β → Prop}
    (first : Follows noted plain yields)
    (second : ∀ value, yields value → Follows (next value) (plainNext value) result) :
    Follows (noted >>= next) (plain >>= plainNext) result := by
  intro reader numbers
  obtain ⟨more, same, accounted, stopped, holds⟩ := first reader numbers
  rw [Chain.run_bind, Chain.run_bind, same]
  rcases answer : plain reader with ⟨error | value, after⟩
  · rw [answer] at stopped
    refine ⟨more, rfl, accounted, ?_, fun _ isOk => nomatch isOk⟩
    cases stopped with
    | elsewhere notByNumber fit =>
        refine .elsewhere (fun byNumber => notByNumber ?_) fit
        exact congrArg _ (Except.error.inj byNumber)
    | byLast byNumber fit leaves =>
        exact .byLast (congrArg _ (Except.error.inj byNumber)) fit leaves
  · dsimp only
    rw [answer] at stopped holds
    have fit : ∀ number ∈ more, number.Fits := by
      cases stopped with
      | elsewhere _ fit => exact fit
      | byLast byNumber _ _ => cases byNumber
    obtain ⟨others, same', accounted', stopped', holds'⟩ :=
      second value (holds value rfl) after (numbers ++ more)
    refine ⟨more ++ others, ?_, ?_, ?_, holds'⟩
    · rw [same', List.append_assoc]
    · exact List.forall_mem_append.2 ⟨accounted, accounted'⟩
    · cases stopped' with
      | elsewhere notByNumber fit' =>
          exact .elsewhere notByNumber (List.forall_mem_append.2 ⟨fit, fit'⟩)
      | byLast byNumber fit' leaves =>
          rw [← List.append_assoc]
          exact .byLast byNumber (List.forall_mem_append.2 ⟨fit, fit'⟩) leaves

theorem follows_note (number : Number) (accounted : number.IsAccounted) :
    Follows (Reading.note number) (Reading.note number) fun _ => True := by
  intro reader numbers
  have noted : (Reading.note number : Noted Unit) (reader, numbers)
      = (if number.Fits then .ok () else .error .overflow, reader, numbers ++ [number]) := rfl
  have plain : (Reading.note number : Parse Unit) reader
      = (if number.Fits then .ok () else .error .overflow, reader) := by
    show (if number.Fits then (pure () : Parse Unit) else throw .overflow) reader = _
    split <;> rfl
  refine ⟨[number], ?_, List.forall_mem_singleton.2 accounted, ?_, fun _ _ => trivial⟩
  · rw [noted, plain]
  · rw [plain]
    by_cases fits : number.Fits
    · rw [if_pos fits]
      exact .elsewhere (nomatch ·) (List.forall_mem_singleton.2 fits)
    · rw [if_neg fits]
      exact .byLast rfl (List.forall_mem_nil _) fits

theorem follows_noteAll {numbers : List Number}
    (accounted : ∀ number ∈ numbers, number.IsAccounted) :
    Follows (noteAll numbers) (noteAll numbers) fun _ => True := by
  induction numbers with
  | nil => exact follows_pure trivial
  | cons number rest inductionHypothesis =>
      obtain ⟨first, others⟩ := List.forall_mem_cons.1 accounted
      exact (follows_note number first).bind fun _ _ => inductionHypothesis others

theorem follows_refuse {error : Error} (notByNumber : error ≠ .overflow) :
    Follows (Reading.refuse error) (Reading.refuse error) yields := by
  intro reader numbers
  refine ⟨[], ?_, List.forall_mem_nil _, ?_, fun _ isOk => nomatch isOk⟩
  · rw [List.append_nil]
    rfl
  · exact isStopped_nil fun isNumber => notByNumber (Except.error.inj isNumber)

theorem follows_element {read : Bits.Parse α} (yield : Chain.Yields read yields) :
    Follows (Reading.element read) (Reading.element read) yields := by
  intro reader numbers
  have adapted : ((Reading.element read : Parse α) reader).1
      = (read reader).1.mapError Error.bits :=
    rfl
  refine ⟨[], ?_, List.forall_mem_nil _, isStopped_nil ?_, ?_⟩
  · rw [List.append_nil]
    rfl
  · rw [adapted]
    cases (read reader).1 <;> exact nofun
  · intro value isValue
    have given := yield reader
    unfold Chain.Ensures at given
    rw [adapted] at isValue
    rcases answer : read reader with ⟨error | found, after⟩
    · rw [answer] at isValue
      cases isValue
    · rw [answer] at given isValue
      cases isValue
      exact given

end Laws

/-! ## Single elements -/

theorem follows_fixed {count : Nat} (fits : count ≤ 32) :
    Follows (fixed count) (fixed count) (· < 2 ^ count) := by
  apply (follows_element (Chain.yields_readBits fits)).bind
  intro value below
  have bounded : value < 2 ^ 32 :=
    Nat.lt_of_lt_of_le below (Nat.pow_le_pow_right (by decide) fits)
  exact (follows_note (.unsigned value) bounded).bind fun _ _ => follows_pure below

theorem follows_flag : Follows flag flag fun _ => True :=
  (follows_fixed (by decide)).bind fun _ _ => follows_pure trivial

theorem follows_unsigned : Follows unsigned unsigned HasCode := by
  apply (follows_element Chain.yields_readUnsignedCode).bind
  intro value below
  have bounded : value < 2 ^ 32 := Nat.lt_trans below (by decide)
  exact (follows_note (.unsigned value) bounded).bind fun _ _ => follows_pure below

theorem follows_signed : Follows signed signed HasSignedCode := by
  apply (follows_element Chain.yields_readSignedCode).bind
  intro value between
  have bounded : (Number.signed value).Fits := ⟨Int.le_of_lt between.1, between.2⟩
  exact (follows_note (.signed value) bounded).bind fun _ _ => follows_pure between

theorem follows_pass (count : Nat) : Follows (pass count) (pass count) fun _ => True := by
  apply follows_element
  intro reader
  unfold Chain.Ensures BitReader.skip
  split <;> trivial

theorem follows_passOneIf (stands : Prop) [Decidable stands] :
    Follows (passOneIf stands) (passOneIf stands) fun _ => True := by
  unfold passOneIf
  split
  · exact follows_pass 1
  · exact follows_pure trivial

section Parts

variable {α : Type} {noted : Noted α} {plain : Parse α} {yields : α → Prop}

theorem follows_announced (follows : Follows noted plain yields) :
    Follows (announced noted) (announced plain) fun _ => True := by
  apply follows_flag.bind
  rintro (_ | _) -
  · exact follows_pure trivial
  · exact follows.bind fun _ _ => follows_pure trivial

theorem follows_repeated (follows : Follows noted plain yields) (count : Nat) :
    Follows (repeated noted count) (repeated plain count) fun _ => True := by
  induction count with
  | zero => exact follows_pure trivial
  | succ count inductionHypothesis => exact follows.bind fun _ _ => inductionHypothesis

end Parts

/-! ## Colours -/

theorem nextScale_between (last step : Int) :
    -255 ≤ nextScale last step ∧ nextScale last step ≤ 255 := by
  have above := Int.tmod_lt_of_pos (last + step + 256) (show 0 < 256 by decide)
  have below := Int.lt_tmod_of_pos (last + step + 256) (show 0 < 256 by decide)
  unfold nextScale
  omega

theorem follows_readScale {last : Int} (between : -255 ≤ last ∧ last ≤ 255) :
    Follows (readScale last) (readScale last) fun scale => -255 ≤ scale ∧ scale ≤ 255 := by
  apply follows_signed.bind
  intro step hasCode
  have next := nextScale_between last step
  have sum : (Number.scaleSum last step).IsAccounted := ⟨between, hasCode⟩
  have scale : (Number.signed (nextScale last step)).IsAccounted := ⟨by omega, by omega⟩
  have both := List.forall_mem_cons.2 ⟨sum, List.forall_mem_singleton.2 scale⟩
  exact (follows_noteAll both).bind fun _ _ => follows_pure next

/-- The last scale is at most a byte, of either sign, all through a list. -/
theorem follows_passScales
    (count : Nat)
    {last : Int}
    (next : Int)
    (between : -255 ≤ last ∧ last ≤ 255) :
    Follows (passScales count last next) (passScales count last next) fun _ => True := by
  induction count generalizing last next with
  | zero => exact follows_pure trivial
  | succ count inductionHypothesis =>
      unfold passScales
      split
      · exact inductionHypothesis 0 between
      · apply (follows_readScale between).bind
        intro scale scaleBetween
        apply inductionHypothesis
        split
        · exact between
        · exact scaleBetween

theorem follows_passScalingLists (small large : Nat) :
    Follows (passScalingLists small large) (passScalingLists small large) fun _ => True := by
  have list := fun count =>
    follows_announced (follows_passScales count firstScale
      (show -255 ≤ firstScale ∧ firstScale ≤ 255 by decide))
  exact (follows_repeated (list 16) small).bind fun _ _ => follows_repeated (list 64) large

theorem follows_readChroma : Follows readChroma readChroma fun _ => True := by
  apply follows_unsigned.bind
  intro format _
  apply (follows_passOneIf _).bind
  intro _ _
  apply follows_unsigned.bind
  intro _ _
  apply follows_unsigned.bind
  intro _ _
  apply (follows_pass 1).bind
  intro _ _
  apply (follows_announced (follows_passScalingLists 6 _)).bind
  exact fun _ _ => follows_pure trivial

theorem follows_readSampling (profile : Nat) :
    Follows (readSampling profile) (readSampling profile) fun _ => True := by
  unfold readSampling
  split
  · exact follows_readChroma
  · exact follows_pure trivial

/-! ## The order of pictures -/

theorem follows_passCycle (steps : Nat) :
    Follows (passCycle steps) (passCycle steps) fun _ => True := by
  unfold passCycle
  split
  · exact follows_refuse (nomatch ·)
  · exact follows_repeated follows_signed steps

theorem follows_passPictureOrder : Follows passPictureOrder passPictureOrder fun _ => True := by
  apply follows_unsigned.bind
  intro kind _
  match kind with
  | 0 => exact follows_unsigned.bind fun _ _ => follows_pure trivial
  | 1 =>
      apply (follows_pass 1).bind
      intro _ _
      apply follows_signed.bind
      intro _ _
      apply follows_signed.bind
      intro _ _
      exact follows_unsigned.bind fun steps _ => follows_passCycle steps
  | _ + 2 => exact follows_pure trivial

/-! ## Picture size -/

theorem isAccounted_codedNumbers (sps : Sps) :
    ∀ number ∈ sps.codedNumbers, number.IsAccounted := by
  intro number member
  have fits := sps.fits_codedNumbers number member
  simp only [codedNumbers, List.mem_cons, List.not_mem_nil, or_false] at member
  rcases member with rfl | rfl | rfl | rfl <;> exact fits

theorem isAccounted_cropNumbers (sps : Sps) :
    ∀ number ∈ sps.cropNumbers, number.IsAccounted := by
  have across := sps.cropUnit_cases
  have down : sps.cropUnit * sps.fieldFactor = 1 ∨ sps.cropUnit * sps.fieldFactor = 2
      ∨ sps.cropUnit * sps.fieldFactor = 4 := by
    rcases sps.cropUnit_cases with unit | unit <;> rcases sps.fieldFactor_cases with factor | factor
      <;> simp [unit, factor]
  intro number member
  rcases fits_or_cropProduct_of_mem member with ⟨_, rfl, fits⟩ | ⟨crop, -, rfl | rfl⟩
  · exact fits
  · exact ⟨by omega, clamped_lt _⟩
  · exact ⟨down, clamped_lt _⟩

theorem follows_readCount : Follows readCount readCount fun _ => True := by
  apply follows_unsigned.bind
  intro field _
  exact (follows_note (.unsigned (clamped (field + 1))) (clamped_lt _)).bind
    fun _ _ => follows_pure trivial

theorem follows_readFramesOnly : Follows readFramesOnly readFramesOnly fun _ => True := by
  apply follows_flag.bind
  intro isFramesOnly _
  exact (follows_passOneIf _).bind fun _ _ => follows_pure trivial

theorem follows_readCrop : Follows readCrop readCrop fun _ => True := by
  apply follows_unsigned.bind
  intro left _
  apply follows_unsigned.bind
  intro right _
  apply follows_unsigned.bind
  intro top _
  exact follows_unsigned.bind fun bottom _ => follows_pure trivial

/-! ## Use of the pictures -/

theorem follows_readPixelShape : Follows readPixelShape readPixelShape fun _ => True := by
  apply (follows_fixed (by decide)).bind
  intro code _
  split
  · apply (follows_fixed (by decide)).bind
    intro across _
    exact (follows_fixed (by decide)).bind fun _ _ => follows_pure trivial
  · exact follows_pure trivial

theorem follows_passSignal : Follows passSignal passSignal fun _ => True := by
  apply (follows_pass 4).bind
  intro _ _
  exact (follows_announced (follows_pass 24)).bind fun _ _ => follows_pure trivial

/-- Two elements of one kind. -/
theorem follows_two
    {noted : Noted Nat}
    {plain : Parse Nat}
    {yields : Nat → Prop}
    (follows : Follows noted plain yields) :
    Follows (do return (← noted, ← noted)) (do return (← plain, ← plain)) fun _ => True :=
  follows.bind fun _ _ => follows.bind fun _ _ => follows_pure trivial

theorem follows_readUsability : Follows readUsability readUsability fun _ => True := by
  apply (follows_announced follows_readPixelShape).bind
  intro shape _
  apply (follows_announced (follows_pass 1)).bind
  intro _ _
  apply (follows_announced follows_passSignal).bind
  intro _ _
  apply (follows_announced (follows_two follows_unsigned)).bind
  intro _ _
  apply (follows_announced (follows_two (follows_fixed (by decide)))).bind
  exact fun _ _ => follows_pure trivial

/-! ## The whole -/

theorem follows_readCoded : Follows readCoded readCoded fun _ => True := by
  apply (follows_fixed (by decide)).bind
  intro profile _
  apply (follows_fixed (by decide)).bind
  intro flags _
  apply (follows_fixed (by decide)).bind
  intro level _
  apply follows_unsigned.bind
  intro _ _
  apply (follows_readSampling profile).bind
  intro sampling _
  apply follows_unsigned.bind
  intro _ _
  apply follows_passPictureOrder.bind
  intro _ _
  apply follows_unsigned.bind
  intro _ _
  apply (follows_pass 1).bind
  intro _ _
  apply follows_readCount.bind
  intro columns _
  apply follows_readCount.bind
  intro rows _
  apply follows_readFramesOnly.bind
  intro isFramesOnly _
  exact (follows_pass 1).bind fun _ _ => follows_pure trivial

theorem follows_read : Follows read read fun _ => True := by
  apply follows_readCoded.bind
  intro coded _
  apply (follows_noteAll (isAccounted_codedNumbers coded)).bind
  intro _ _
  apply (follows_announced follows_readCrop).bind
  intro crop _
  apply (follows_noteAll (isAccounted_cropNumbers _)).bind
  intro _ _
  exact (follows_announced follows_readUsability).bind fun _ _ => follows_pure trivial

/-- A sum of a scale leaves the signed numbers only by a step that is next to one
of their ends. -/
theorem fits_scaleSum_iff {last step : Int} (accounted : (Number.scaleSum last step).IsAccounted) :
    (Number.scaleSum last step).Fits ↔ -2 ^ 31 - last ≤ step ∧ step < 2 ^ 31 - 256 - last := by
  obtain ⟨⟨_, _⟩, _, _⟩ := accounted
  unfold Number.Fits
  constructor
  · omega
  · omega

/-- A chain that is stopped by a number has computed one that does not fit, and
nothing behind it. -/
theorem IsStopped.overflow_iff
    {α : Type}
    {outcome : Except Error α}
    {numbers : List Number}
    (stopped : IsStopped outcome numbers) :
    (outcome = .error .overflow ↔ ∃ number ∈ numbers, ¬ number.Fits)
      ∧ ∀ number ∈ numbers.dropLast, number.Fits := by
  cases stopped with
  | elsewhere notByNumber fit =>
      refine ⟨iff_of_false notByNumber ?_, fun number member =>
        fit number (List.dropLast_subset _ member)⟩
      rintro ⟨number, member, leaves⟩
      exact leaves (fit number member)
  | @byLast before last byNumber fit leaves =>
      rw [List.dropLast_concat]
      exact ⟨iff_of_true byNumber
        ⟨last, List.mem_append_right _ (List.mem_singleton_self last), leaves⟩, fit⟩

/-- A parse of any bytes is stopped by none of its numbers or by the last, and keeping
them changes nothing. -/
theorem isStopped_parse (data : Bytes) :
    ((read : Noted Sps) (BitReader.ofBytes data, [])).1 = parse data
      ∧ (∀ number ∈ numbers data, number.IsAccounted)
      ∧ IsStopped (parse data) (numbers data) := by
  obtain ⟨more, same, accounted, stopped, -⟩ := follows_read (BitReader.ofBytes data) []
  have kept : numbers data = more := by rw [numbers, same, List.nil_append]
  have isParse : ((read : Parse Sps) (BitReader.ofBytes data)).1 = parse data := rfl
  rw [isParse] at stopped same
  rw [kept]
  exact ⟨by rw [same], accounted, stopped⟩

/-- **The numbers of a parse** are those of the parse that runs, which comes to an
overflow exactly if one of them leaves its type, and then at once. Each has the
bits of its type, unless it is the sum of a scale and a step next to the ends of the
signed numbers, or the product of a crop that is too large for unsigned ones. -/
theorem fits_or_leaves_of_parse (data : Bytes) :
    ((read : Noted Sps) (BitReader.ofBytes data, [])).1 = parse data
      ∧ (parse data = .error .overflow ↔ ∃ number ∈ numbers data, ¬ number.Fits)
      ∧ (∀ number ∈ (numbers data).dropLast, number.Fits)
      ∧ ∀ number ∈ numbers data,
          number.Fits
            ∨ (∃ last step, number = .scaleSum last step ∧ (-255 ≤ last ∧ last ≤ 255)
                ∧ (step < -2 ^ 31 - last ∨ 2 ^ 31 - 256 - last ≤ step))
            ∨ (∃ unit count, number = .cropProduct unit count ∧ (unit = 1 ∨ unit = 2 ∨ unit = 4)
                ∧ 2 ^ 32 ≤ unit * count) := by
  obtain ⟨same, accounted, stopped⟩ := isStopped_parse data
  obtain ⟨overflows, before⟩ := stopped.overflow_iff
  refine ⟨same, overflows, before, ?_⟩
  intro number member
  have known := accounted number member
  cases number with
  | unsigned value => exact .inl known
  | signed value => exact .inl known
  | scaleSum last step =>
      by_cases fits : (Number.scaleSum last step).Fits
      · exact .inl fits
      · rw [fits_scaleSum_iff known] at fits
        exact .inr (.inl ⟨last, step, rfl, known.1, by omega⟩)
  | cropProduct unit count =>
      rcases Nat.lt_or_ge (unit * count) (2 ^ 32) with fits | leaves
      · exact .inl fits
      · exact .inr (.inr ⟨unit, count, rfl, known.1, leaves⟩)

/-- A parameter set whose crop takes `2 ^ 31` units of two pixels from the left. -/
def hugeCrop : Bytes :=
  [66, 0, 30, 220, 7, 128, 34, 112, 0, 0, 0, 16, 0, 0, 0, 61]

/-- A parameter set whose first scaling list begins with the greatest step. -/
def hugeStep : Bytes :=
  [100, 0, 30, 173, 128, 0, 0, 0, 255, 255, 255, 254, 30, 2, 208, 15, 0, 68, 200]

theorem scaleSum_mem_numbers_hugeStep :
    Number.scaleSum 8 (2 ^ 31 - 1) ∈ numbers hugeStep := by
  decide +kernel

/-- The sum of that step leaves the signed numbers, and is one that may. -/
theorem fits_or_leaves_hugeStep :
    ∃ number ∈ numbers hugeStep, ¬ number.Fits
      ∧ parse hugeStep = .error .overflow
      ∧ ∃ last step, number = .scaleSum last step ∧ (-255 ≤ last ∧ last ≤ 255)
          ∧ (step < -2 ^ 31 - last ∨ 2 ^ 31 - 256 - last ≤ step) := by
  have sum := scaleSum_mem_numbers_hugeStep
  have leaves : ¬ (Number.scaleSum 8 (2 ^ 31 - 1)).Fits := by decide
  obtain ⟨-, overflows, -, accounted⟩ := fits_or_leaves_of_parse hugeStep
  have isStopped := overflows.2 ⟨_, sum, leaves⟩
  rcases accounted _ sum with fits | isSum | ⟨_, _, isProduct, -⟩
  · exact absurd fits leaves
  · exact ⟨_, sum, leaves, isStopped, isSum⟩
  · cases isProduct

/-- A number leaves its type in the course of each of these parses, and ends it. -/
theorem not_fit_hugeCrop_hugeStep :
    ((¬ ∀ number ∈ numbers hugeCrop, number.Fits) ∧ parse hugeCrop = .error .overflow)
      ∧ (¬ ∀ number ∈ numbers hugeStep, number.Fits) ∧ parse hugeStep = .error .overflow := by
  have leaves : ∀ {data number}, number ∈ numbers data → ¬ number.Fits →
      (¬ ∀ number ∈ numbers data, number.Fits) ∧ parse data = .error .overflow := by
    intro data number member unfit
    obtain ⟨-, -, stopped⟩ := isStopped_parse data
    exact ⟨fun fit => unfit (fit number member), stopped.overflow_iff.1.2 ⟨number, member, unfit⟩⟩
  have product : Number.cropProduct 2 (2 ^ 31) ∈ numbers hugeCrop := by decide +kernel
  exact ⟨leaves product (by decide), leaves scaleSum_mem_numbers_hugeStep (by decide)⟩

end Avc.Sps

end MediaSplit

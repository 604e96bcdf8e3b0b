import MediaSplit.Avc.Sps
import MediaSplit.Bits.Writer

/-!
Contract: sequence parameter sets of AVC video as they are written.

Owns:
- `SpsForm`, every element of a parameter set up to the timing, with
  `SpsForm.bits`, the order in which they are written;
- `SpsForm.width` and `SpsForm.height`, the size of the pictures by ITU-T H.264,
  and the shape of a pixel and the timing that the elements tell.

Does **not** own: reading a parameter set (`MediaSplit.Avc.Sps`), and writing
one with a bit writer (`MediaSplit.Avc.Sps.Writing`).

What is optional in the written order is an `Option` here, so its flag cannot
disagree with it. `SpsForm.IsWritable` holds the rest: the profile decides
whether colour elements are written, field widths bound the fixed fields, codes
reach as far as the standard's, and scaling lists stop where the order says.
-/

set_option autoImplicit false

namespace MediaSplit.Avc

/-- A flag, and behind it what it announces. -/
def announcedBits (part : Option (List Bool)) : List Bool :=
  match part with
  | none => [false]
  | some bits => true :: bits

/-- An unsigned code. -/
def unsignedBits (value : Nat) : List Bool := BitWriter.unsignedCode value

/-- A signed code. -/
def signedBits (value : Int) : List Bool :=
  BitWriter.unsignedCode (BitWriter.codeOfSigned value)

/-- Whether there is an unsigned code for a value. -/
def HasCode (value : Nat) : Prop := value < 2 ^ 32 - 1

instance (value : Nat) : Decidable (HasCode value) := Nat.decLt _ _

/-- Whether there is a signed code for a value. -/
def HasSignedCode (value : Int) : Prop := -2 ^ 31 < value ∧ value < 2 ^ 31

instance (value : Int) : Decidable (HasSignedCode value) := instDecidableAnd

/-- The steps of a scaling list, up to the one that leads to zero. -/
abbrev ScalingSteps := List Int

/-- Whether steps are exactly those of a list of `count` scales behind `last`.
They lead from scale to scale, and none is written once a scale is zero. -/
def AreScalingSteps : (count : Nat) → (last : Int) → ScalingSteps → Prop
  | 0, _, steps => steps = []
  | _ + 1, _, [] => False
  | count + 1, last, step :: rest =>
      -128 ≤ step ∧ step ≤ 127
        ∧ if (last + step) % 256 = 0 then rest = []
          else AreScalingSteps count ((last + step) % 256) rest

instance decidableAreScalingSteps :
    (count : Nat) → (last : Int) → (steps : ScalingSteps) →
      Decidable (AreScalingSteps count last steps)
  | 0, _, steps => inferInstanceAs (Decidable (steps = []))
  | _ + 1, _, [] => inferInstanceAs (Decidable False)
  | count + 1, last, step :: rest =>
      have := decidableAreScalingSteps count ((last + step) % 256) rest
      inferInstanceAs (Decidable
        (-128 ≤ step ∧ step ≤ 127
          ∧ if (last + step) % 256 = 0 then rest = []
            else AreScalingSteps count ((last + step) % 256) rest))

/-- Scaling lists, each of which may be absent. -/
structure ScalingForm where
  /-- Lists of sixteen scales. -/
  small : List (Option ScalingSteps)
  /-- Lists of sixty-four scales. -/
  large : List (Option ScalingSteps)
  deriving DecidableEq, Repr, Inhabited

/-- Profiles whose parameter sets have colour elements. -/
def profilesWithChroma : List Nat := [44, 83, 86, 100, 110, 118, 122, 128, 134, 135, 138, 139, 244]

/-- The colour elements. -/
structure ChromaForm where
  format : Nat
  /-- Whether colours have planes of their own; written in full sampling
  only. -/
  hasPlanes : Bool
  lumaDepth : Nat
  chromaDepth : Nat
  isLossless : Bool
  scaling : Option ScalingForm
  deriving DecidableEq, Repr, Inhabited

/-- How the order of pictures is told. -/
inductive OrderForm where
  /-- By a counter in each picture. -/
  | counted (size : Nat)
  /-- By steps of a cycle. -/
  | cyclic (isFixed : Bool) (apart fieldsApart : Int) (steps : List Int)
  /-- Pictures come in order. -/
  | inOrder
  deriving DecidableEq, Repr, Inhabited

/-- The shape of a pixel. -/
inductive ShapeForm where
  /-- By its code. -/
  | coded (code : Nat)
  /-- Written out. -/
  | written (width height : Nat)
  deriving DecidableEq, Repr, Inhabited

/-- What is said about the use of the pictures, as far as the timing. -/
structure UsabilityForm where
  shape : Option ShapeForm
  /-- Whether the edges may be cut off. -/
  overscan : Option Bool
  /-- Four bits about the signal, and three bytes about its colours. -/
  signal : Option (Nat × Option Nat)
  /-- Where colours are sampled, in each field. -/
  chromaPlaces : Option (Nat × Nat)
  /-- Units in a tick, and units in a second. -/
  timing : Option (Nat × Nat)
  deriving DecidableEq, Repr, Inhabited

/-- A parameter set with all its elements. -/
structure SpsForm where
  profile : Nat
  constraintFlags : Nat
  level : Nat
  id : Nat
  chroma : Option ChromaForm
  frameNumberSize : Nat
  order : OrderForm
  referenceFrames : Nat
  mayHaveGaps : Bool
  /-- Macroblocks in a row, less one. -/
  columnField : Nat
  /-- Rows of macroblocks, or pairs of rows, less one. -/
  rowField : Nat
  /-- Whether macroblocks choose between frame and field; nothing where no
  picture is a field. -/
  fieldChoice : Option Bool
  infersMotion : Bool
  crop : Option Crop
  usability : Option UsabilityForm
  deriving DecidableEq, Repr, Inhabited

/-- Scaling lists as written. -/
def ScalingForm.bits (form : ScalingForm) : List Bool :=
  (form.small ++ form.large).flatMap fun list =>
    announcedBits (list.map (·.flatMap signedBits))

namespace ChromaForm

/-- The colour elements as written. -/
def bits (form : ChromaForm) : List Bool :=
  unsignedBits form.format
    ++ (if form.format = Sps.fullChromaFormat then [form.hasPlanes] else [])
    ++ unsignedBits form.lumaDepth ++ unsignedBits form.chromaDepth ++ [form.isLossless]
    ++ announcedBits (form.scaling.map ScalingForm.bits)

/-- There are codes for the elements, and as many scaling lists as the sampling
calls for, each complete. -/
def IsWritable (form : ChromaForm) : Prop :=
  HasCode form.format ∧ HasCode form.lumaDepth ∧ HasCode form.chromaDepth
    ∧ ∀ scaling ∈ form.scaling,
      scaling.small.length = 6
        ∧ scaling.large.length = (if form.format = Sps.fullChromaFormat then 6 else 2)
        ∧ (∀ list ∈ scaling.small, ∀ steps ∈ list, AreScalingSteps 16 Sps.firstScale steps)
        ∧ ∀ list ∈ scaling.large, ∀ steps ∈ list, AreScalingSteps 64 Sps.firstScale steps

instance (form : ChromaForm) : Decidable form.IsWritable := by
  unfold IsWritable
  infer_instance

end ChromaForm

namespace OrderForm

/-- The elements about the order of pictures as written. -/
def bits : OrderForm → List Bool
  | counted size => unsignedBits 0 ++ unsignedBits size
  | cyclic isFixed apart fieldsApart steps =>
      unsignedBits 1 ++ [isFixed] ++ signedBits apart ++ signedBits fieldsApart
        ++ unsignedBits steps.length ++ steps.flatMap signedBits
  | inOrder => unsignedBits 2

/-- There are codes for the elements, and a cycle is not too long. -/
def IsWritable : OrderForm → Prop
  | counted size => HasCode size
  | cyclic _ apart fieldsApart steps =>
      HasSignedCode apart ∧ HasSignedCode fieldsApart ∧ (∀ step ∈ steps, HasSignedCode step)
        ∧ steps.length ≤ 255
  | inOrder => True

instance (form : OrderForm) : Decidable form.IsWritable := by
  cases form <;> unfold IsWritable <;> infer_instance

end OrderForm

namespace ShapeForm

/-- A pixel shape as written. -/
def bits : ShapeForm → List Bool
  | coded code => Bits.ofNumber 8 code
  | written width height =>
      Bits.ofNumber 8 Sps.writtenShape ++ Bits.ofNumber 16 width ++ Bits.ofNumber 16 height

/-- Width and height of a pixel, as the standard numbers the shapes. Nothing is
told by the code 0, by a reserved code and by a shape without an extent. -/
def size? : ShapeForm → Option (Nat × Nat)
  | coded 1 => some (1, 1)
  | coded 2 => some (12, 11)
  | coded 3 => some (10, 11)
  | coded 4 => some (16, 11)
  | coded 5 => some (40, 33)
  | coded 6 => some (24, 11)
  | coded 7 => some (20, 11)
  | coded 8 => some (32, 11)
  | coded 9 => some (80, 33)
  | coded 10 => some (18, 11)
  | coded 11 => some (15, 11)
  | coded 12 => some (64, 33)
  | coded 13 => some (160, 99)
  | coded 14 => some (4, 3)
  | coded 15 => some (3, 2)
  | coded 16 => some (2, 1)
  | coded _ => none
  | written width height => if width = 0 ∨ height = 0 then none else some (width, height)

/-- A code is not the one for a shape that is written out. -/
def IsWritable : ShapeForm → Prop
  | coded code => code < Sps.writtenShape
  | written width height => width < 2 ^ 16 ∧ height < 2 ^ 16

instance (form : ShapeForm) : Decidable form.IsWritable := by
  cases form <;> unfold IsWritable <;> infer_instance

end ShapeForm

namespace UsabilityForm

/-- What is said about the use of the pictures, as written. -/
def bits (form : UsabilityForm) : List Bool :=
  announcedBits (form.shape.map ShapeForm.bits)
    ++ announcedBits (form.overscan.map fun mayCut => [mayCut])
    ++ announcedBits (form.signal.map fun (signal, colours) =>
        Bits.ofNumber 4 signal ++ announcedBits (colours.map (Bits.ofNumber 24)))
    ++ announcedBits (form.chromaPlaces.map fun (top, bottom) =>
        unsignedBits top ++ unsignedBits bottom)
    ++ announcedBits (form.timing.map fun (tick, second) =>
        Bits.ofNumber 32 tick ++ Bits.ofNumber 32 second)

/-- The timing that is told; nothing where one part is zero. -/
def timing? (form : UsabilityForm) : Option (Nat × Nat) :=
  form.timing.filter fun (tick, second) => tick ≠ 0 ∧ second ≠ 0

/-- The shape and the timing, where they mean something. -/
def usability (form : UsabilityForm) : Usability :=
  ⟨form.shape.bind ShapeForm.size?, form.timing?⟩

/-- There are codes for the elements, and fixed fields fit their widths. -/
def IsWritable (form : UsabilityForm) : Prop :=
  (∀ shape ∈ form.shape, shape.IsWritable)
    ∧ (∀ places ∈ form.chromaPlaces, HasCode places.1 ∧ HasCode places.2)
    ∧ ∀ timing ∈ form.timing, timing.1 < 2 ^ 32 ∧ timing.2 < 2 ^ 32

instance (form : UsabilityForm) : Decidable form.IsWritable := by
  unfold IsWritable
  infer_instance

end UsabilityForm

namespace Crop

/-- The crop as written. -/
def bits (crop : Crop) : List Bool :=
  unsignedBits crop.left ++ unsignedBits crop.right ++ unsignedBits crop.top
    ++ unsignedBits crop.bottom

/-- There are codes for the elements. -/
def IsWritable (crop : Crop) : Prop :=
  HasCode crop.left ∧ HasCode crop.right ∧ HasCode crop.top ∧ HasCode crop.bottom

instance (crop : Crop) : Decidable crop.IsWritable := by
  unfold IsWritable
  infer_instance

end Crop

/-- Whether no picture is a field, and otherwise whether macroblocks choose. -/
def fieldChoiceBits : Option Bool → List Bool
  | none => [true]
  | some choice => [false, choice]

namespace SpsForm

/-- The elements as far as the coded size, as written. -/
def codedBits (form : SpsForm) : List Bool :=
  Bits.ofNumber 8 form.profile ++ Bits.ofNumber 8 form.constraintFlags
    ++ Bits.ofNumber 8 form.level ++ unsignedBits form.id
    ++ (form.chroma.map ChromaForm.bits).getD []
    ++ unsignedBits form.frameNumberSize ++ form.order.bits
    ++ unsignedBits form.referenceFrames ++ [form.mayHaveGaps]
    ++ unsignedBits form.columnField ++ unsignedBits form.rowField
    ++ fieldChoiceBits form.fieldChoice ++ [form.infersMotion]

/-- The elements in the order in which they are written. -/
def bits (form : SpsForm) : List Bool :=
  form.codedBits ++ announcedBits (form.crop.map Crop.bits)
    ++ announcedBits (form.usability.map UsabilityForm.bits)

/-- There are codes for the elements. The profile has a byte, as have the flags
and the level; it decides whether colour elements are written; and every part is
writable. -/
def IsWritable (form : SpsForm) : Prop :=
  form.profile < 2 ^ 8 ∧ form.constraintFlags < 2 ^ 8 ∧ form.level < 2 ^ 8
    ∧ HasCode form.id ∧ HasCode form.frameNumberSize ∧ HasCode form.referenceFrames
    ∧ HasCode form.columnField ∧ HasCode form.rowField
    ∧ form.chroma.isSome = profilesWithChroma.contains form.profile
    ∧ (∀ chroma ∈ form.chroma, chroma.IsWritable)
    ∧ form.order.IsWritable
    ∧ (∀ crop ∈ form.crop, crop.IsWritable)
    ∧ ∀ usability ∈ form.usability, usability.IsWritable

instance (form : SpsForm) : Decidable form.IsWritable := by
  unfold IsWritable
  infer_instance

/-! ## What the elements tell -/

/-- How colour is sampled: 0 without colour, 1 for every fourth pixel, 2 for every
other one, 3 for each. -/
def chromaFormat (form : SpsForm) : Nat := (form.chroma.map ChromaForm.format).getD 1

/-- Rows of pixels for each row of a frame. -/
def fieldFactor (form : SpsForm) : Nat := if form.fieldChoice.isNone then 1 else 2

/-- Pixels of a coded row. -/
def codedWidth (form : SpsForm) : Nat := 16 * (form.columnField + 1)

/-- Coded rows of pixels. -/
def codedHeight (form : SpsForm) : Nat := 16 * (form.rowField + 1) * form.fieldFactor

/-- Pixels of a row that a unit of the crop stands for. -/
def cropUnitAcross (form : SpsForm) : Nat :=
  if form.chromaFormat = 1 ∨ form.chromaFormat = 2 then 2 else 1

/-- Rows of pixels that a unit of the crop stands for. -/
def cropUnitDown (form : SpsForm) : Nat :=
  (if form.chromaFormat = 1 then 2 else 1) * form.fieldFactor

/-- Units that are cropped from the left and from the right. -/
def unitsAcross (form : SpsForm) : Nat :=
  match form.crop with
  | none => 0
  | some crop => crop.left + crop.right

/-- Units that are cropped from the top and from the bottom. -/
def unitsDown (form : SpsForm) : Nat :=
  match form.crop with
  | none => 0
  | some crop => crop.top + crop.bottom

/-- Pixels of a row that is left by the crop. -/
def width (form : SpsForm) : Nat := form.codedWidth - form.cropUnitAcross * form.unitsAcross

/-- Rows of pixels that are left by the crop. -/
def height (form : SpsForm) : Nat := form.codedHeight - form.cropUnitDown * form.unitsDown

/-- The coded size and what is cropped from it have 32 bits. -/
def FitsWords (form : SpsForm) : Prop :=
  form.codedWidth < 2 ^ 32 ∧ form.codedHeight < 2 ^ 32
    ∧ form.cropUnitAcross * form.unitsAcross < 2 ^ 32
    ∧ form.cropUnitDown * form.unitsDown < 2 ^ 32

instance (form : SpsForm) : Decidable form.FitsWords := by
  unfold FitsWords
  infer_instance

/-- Width and height of a pixel. -/
def pixelShape? (form : SpsForm) : Option (Nat × Nat) :=
  form.usability.bind fun usability => usability.shape.bind ShapeForm.size?

/-- Units in a tick, and units in a second. -/
def timing? (form : SpsForm) : Option (Nat × Nat) := form.usability.bind UsabilityForm.timing?

end SpsForm

end MediaSplit.Avc

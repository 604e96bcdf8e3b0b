import MediaSplit.Bits.Reader
import MediaSplit.Fault
import MediaSplit.Track

/-!
Contract: sequence parameter sets of AVC video.

Owns: `Avc.Sps`, the elements of a parameter set that describe a track, as
written; `Sps.parse`, which reads them from an unescaped unit behind its type
byte; and the picture size, the frame rate and the displayed size that follow
from them.

Sizes are counted in macroblocks of sixteen pixels, rows of field pictures
twice. All numbers have 32 bits. Sizes and sums of a crop stop at the greatest
number, and a crop beyond the picture leaves nothing of it; its products and the
sums of scales have no such bound.

The chain of reads is written for any monad that can read elements. It names
the numbers that it computes where they come up. `Parse`, the monad that runs,
stops at the first one that its type cannot hold; another one may also keep
them.
-/

set_option autoImplicit false

namespace MediaSplit.Avc

/-- Why a parameter set is refused. -/
inductive Error where
  | bits (error : Bits.Error)
  /-- A picture order cycle has more steps than allowed. -/
  | orderCycleTooLong
  /-- A number that is computed on the way leaves its type. -/
  | overflow
  deriving DecidableEq, Repr, Inhabited

/-- The refusal as a fault of a reader. -/
def Error.toFault : Error → Fault
  | .bits error => .bits error
  | .orderCycleTooLong =>
      .malformedHeader "num_ref_frames_in_pic_order_cnt_cycle out of range"
  | .overflow => .overflow

/-- How many units a crop takes from each side. -/
structure Crop where
  left : Nat
  right : Nat
  top : Nat
  bottom : Nat
  deriving DecidableEq, Repr, Inhabited

/-- What a parameter set says about the use of the pictures. -/
structure Usability where
  /-- Width and height of a pixel. -/
  pixelShape : Option (Nat × Nat)
  /-- Units in a tick, and units in a second. -/
  timing : Option (Nat × Nat)
  deriving DecidableEq, Repr, Inhabited

/-- What a sequence parameter set says. -/
structure Sps where
  profile : Nat
  constraintFlags : Nat
  level : Nat
  /-- How colour is sampled; 0 without colour. -/
  chromaFormat : Nat
  /-- Macroblocks in a row. -/
  columns : Nat
  /-- Rows of macroblocks, or pairs of rows. -/
  rows : Nat
  /-- Whether no picture is a field. -/
  isFramesOnly : Bool
  crop : Option Crop
  usability : Usability
  deriving DecidableEq, Repr, Inhabited

namespace Sps

/-! ## Numbers of 32 bits -/

/-- The greatest 32-bit number where `value` is greater. -/
def clamped (value : Nat) : Nat := min value (2 ^ 32 - 1)

theorem clamped_lt (value : Nat) : clamped value < 2 ^ 32 :=
  Nat.lt_of_le_of_lt (Nat.min_le_right _ _) (by decide)

theorem clamped_of_lt {value : Nat} (fits : value < 2 ^ 32) : clamped value = value :=
  Nat.min_eq_left (Nat.le_sub_one_of_lt fits)

/-- A number that is computed while a parameter set is read. -/
inductive Number where
  /-- An unsigned number: an element, a count of macroblocks or of pixels. -/
  | unsigned (value : Nat)
  /-- A signed number: an element or a scale. -/
  | signed (value : Int)
  /-- The sum of a scale, a step and a byte's range, as signed numbers. -/
  | scaleSum (last step : Int)
  /-- The product of the pixels in a unit of a crop and the units, as unsigned
  numbers. -/
  | cropProduct (unit count : Nat)
  deriving DecidableEq, Repr, Inhabited

/-- The number, and those it is computed from, have the bits of their type. -/
def Number.Fits : Number → Prop
  | unsigned value => value < 2 ^ 32
  | signed value => -2 ^ 31 ≤ value ∧ value < 2 ^ 31
  | scaleSum last step =>
      (-2 ^ 31 ≤ last + step ∧ last + step < 2 ^ 31)
        ∧ -2 ^ 31 ≤ last + step + 256 ∧ last + step + 256 < 2 ^ 31
  | cropProduct unit count => unit * count < 2 ^ 32

instance (number : Number) : Decidable number.Fits := by
  cases number <;> unfold Number.Fits <;> infer_instance

/-! ## Picture size -/

/-- Pixels of a coded row. -/
def codedWidth (sps : Sps) : Nat := clamped (16 * sps.columns)

/-- Rows of pixels for each row of a frame. -/
def fieldFactor (sps : Sps) : Nat := if sps.isFramesOnly then 1 else 2

/-- Coded rows of pixels. -/
def codedHeight (sps : Sps) : Nat := clamped (clamped (16 * sps.rows) * sps.fieldFactor)

/-- Pixels that a unit of a crop stands for, in each direction of a frame. -/
def cropUnit (sps : Sps) : Nat := if sps.chromaFormat = 0 then 1 else 2

/-- Pixels of a row that is left by the crop. -/
def width (sps : Sps) : Nat :=
  match sps.crop with
  | none => sps.codedWidth
  | some crop => sps.codedWidth - sps.cropUnit * clamped (crop.left + crop.right)

/-- Rows of pixels that are left by the crop. -/
def height (sps : Sps) : Nat :=
  match sps.crop with
  | none => sps.codedHeight
  | some crop =>
      sps.codedHeight - sps.cropUnit * sps.fieldFactor * clamped (crop.top + crop.bottom)

theorem fieldFactor_cases (sps : Sps) : sps.fieldFactor = 1 ∨ sps.fieldFactor = 2 := by
  unfold fieldFactor
  split
  · exact .inl rfl
  · exact .inr rfl

theorem fieldFactor_pos (sps : Sps) : 0 < sps.fieldFactor := by
  have := sps.fieldFactor_cases
  omega

theorem cropUnit_cases (sps : Sps) : sps.cropUnit = 1 ∨ sps.cropUnit = 2 := by
  unfold cropUnit
  split
  · exact .inl rfl
  · exact .inr rfl

theorem cropUnit_pos (sps : Sps) : 0 < sps.cropUnit := by
  have := sps.cropUnit_cases
  omega

/-- A crop takes pixels away and adds none. -/
theorem width_le (sps : Sps) : sps.width ≤ sps.codedWidth := by
  unfold width
  split
  · exact Nat.le_refl _
  · exact Nat.sub_le _ _

theorem height_le (sps : Sps) : sps.height ≤ sps.codedHeight := by
  unfold height
  split
  · exact Nat.le_refl _
  · exact Nat.sub_le _ _

/-- The numbers that give the coded size. -/
def codedNumbers (sps : Sps) : List Number :=
  [.unsigned sps.codedWidth, .unsigned (clamped (16 * sps.rows)), .unsigned sps.fieldFactor,
    .unsigned sps.codedHeight]

/-- The numbers that give the size which a crop leaves. -/
def cropNumbers (sps : Sps) : List Number :=
  match sps.crop with
  | none => []
  | some crop =>
      let across := clamped (crop.left + crop.right)
      let down := clamped (crop.top + crop.bottom)
      [.unsigned sps.cropUnit, .unsigned (sps.cropUnit * sps.fieldFactor), .unsigned across,
        .cropProduct sps.cropUnit across, .unsigned sps.width, .unsigned down,
        .cropProduct (sps.cropUnit * sps.fieldFactor) down, .unsigned sps.height]

theorem fits_codedNumbers (sps : Sps) : ∀ number ∈ sps.codedNumbers, number.Fits := by
  have factor : sps.fieldFactor < 2 ^ 32 := by
    have := sps.fieldFactor_cases
    omega
  simp only [codedNumbers, List.forall_mem_cons]
  exact ⟨clamped_lt _, clamped_lt _, factor, clamped_lt _, List.forall_mem_nil _⟩

/-- Of the numbers of a crop only the two products may leave their type. -/
theorem fits_or_cropProduct_of_mem {sps : Sps} {number : Number}
    (member : number ∈ sps.cropNumbers) :
    (∃ value, number = .unsigned value ∧ value < 2 ^ 32) ∨ ∃ crop ∈ sps.crop,
      number = .cropProduct sps.cropUnit (clamped (crop.left + crop.right))
        ∨ number = .cropProduct (sps.cropUnit * sps.fieldFactor)
          (clamped (crop.top + crop.bottom)) := by
  have width : sps.width < 2 ^ 32 := Nat.lt_of_le_of_lt sps.width_le (clamped_lt _)
  have height : sps.height < 2 ^ 32 := Nat.lt_of_le_of_lt sps.height_le (clamped_lt _)
  have unit : sps.cropUnit ≤ 2 := by
    have := sps.cropUnit_cases
    omega
  have factor : sps.fieldFactor ≤ 2 := by
    have := sps.fieldFactor_cases
    omega
  have both : sps.cropUnit * sps.fieldFactor ≤ 2 * 2 := Nat.mul_le_mul unit factor
  unfold cropNumbers at member
  split at member
  next => cases member
  next crop isCrop =>
    simp only [List.mem_cons, List.not_mem_nil, or_false] at member
    rcases member with rfl | rfl | rfl | rfl | rfl | rfl | rfl | rfl
    · exact .inl ⟨_, rfl, by omega⟩
    · exact .inl ⟨_, rfl, by omega⟩
    · exact .inl ⟨_, rfl, clamped_lt _⟩
    · exact .inr ⟨crop, isCrop, .inl rfl⟩
    · exact .inl ⟨_, rfl, width⟩
    · exact .inl ⟨_, rfl, clamped_lt _⟩
    · exact .inr ⟨crop, isCrop, .inr rfl⟩
    · exact .inl ⟨_, rfl, height⟩

/-! ## Reading -/

/-- What a monad gives to those who read parameter sets in it. -/
class Reading (m : Type → Type) where
  /-- An element as it stands. -/
  element {α : Type} (read : Bits.Parse α) : m α
  /-- Gives the parameter set up. -/
  refuse {α : Type} (error : Error) : m α
  /-- Names a number that is computed. -/
  note (number : Number) : m Unit

/-- A chain of element reads. -/
abbrev Parse : Type → Type := ExceptT Error (StateM BitReader)

instance : Reading Parse where
  element := ExceptT.adapt Error.bits
  refuse := throw
  note number := if number.Fits then pure () else throw .overflow

section Reading

open Reading

variable {m : Type → Type} [Monad m] [Reading m]

/-- Names numbers that are computed, one after the other. -/
def noteAll : List Number → m Unit
  | [] => return ()
  | number :: rest => do
      note number
      noteAll rest

/-- A field of `count` bits. -/
def fixed (count : Nat) : m Nat := do
  let value ← element (BitReader.readBits count)
  note (.unsigned value)
  return value

/-- A flag. -/
def flag : m Bool := return (← fixed 1) == 1

/-- An unsigned code. -/
def unsigned : m Nat := do
  let value ← element BitReader.readUnsignedCode
  note (.unsigned value)
  return value

/-- A signed code. -/
def signed : m Int := do
  let value ← element BitReader.readSignedCode
  note (.signed value)
  return value

/-- Bits that say nothing about the track. -/
def pass (count : Nat) : m Unit := element (BitReader.skip count)

/-- A bit that says nothing about the track and stands under a condition. -/
def passOneIf (stands : Prop) [Decidable stands] : m Unit :=
  if stands then pass 1 else return ()

/-- What follows where a flag announces it. -/
def announced {α : Type} (read : m α) : m (Option α) := do
  if ← flag then return some (← read) else return none

/-- Reads that are done `count` times, without their results. -/
def repeated {α : Type} (read : m α) : (count : Nat) → m Unit
  | 0 => return ()
  | count + 1 => do
      let _ ← read
      repeated read count

/-- The colour sampling of a profile that does not write it. -/
def defaultChromaFormat : Nat := 1

/-- Full colour sampling, which has planes of its own. -/
def fullChromaFormat : Nat := 3

/-- Profiles that write their colour sampling. -/
def chromaProfiles : List Nat := [100, 110, 122, 244, 44, 83, 86, 118, 128, 138, 139, 134, 135]

/-- The scale that follows `last` by a step. -/
def nextScale (last step : Int) : Int := Int.tmod (last + step + 256) 256

/-- The scale that follows `last` by a written step. -/
def readScale (last : Int) : m Int := do
  let step ← signed
  noteAll [.scaleSum last step, .signed (nextScale last step)]
  return nextScale last step

/-- Passes over `count` scales. Steps are written until a scale is zero, from
which on the last one is repeated. -/
def passScales : (count : Nat) → (last next : Int) → m Unit
  | 0, _, _ => return ()
  | count + 1, last, next => do
      if next = 0 then passScales count last 0
      else
        let scale ← readScale last
        passScales count (if scale = 0 then last else scale) scale

/-- The scale that every list starts from. -/
def firstScale : Int := 8

/-- Passes over lists that may each be absent: small ones and large ones. -/
def passScalingLists (small large : Nat) : m Unit := do
  repeated (announced (passScales 16 firstScale firstScale)) small
  repeated (announced (passScales 64 firstScale firstScale)) large

/-- Reads the colour elements, and gives the sampling. -/
def readChroma : m Nat := do
  let format ← unsigned
  passOneIf (format = fullChromaFormat)
  let _ ← unsigned
  let _ ← unsigned
  pass 1
  let _ ← announced (passScalingLists 6 (if format = fullChromaFormat then 6 else 2))
  return format

/-- Reads the colour sampling, where the profile writes it. -/
def readSampling (profile : Nat) : m Nat :=
  if chromaProfiles.contains profile then readChroma else return defaultChromaFormat

/-- The greatest number of steps in a picture order cycle. -/
def maxOrderCycle : Nat := 255

/-- Passes over the steps of a picture order cycle. -/
def passCycle (steps : Nat) : m Unit :=
  if maxOrderCycle < steps then refuse .orderCycleTooLong else repeated signed steps

/-- Passes over the elements about the order of pictures. -/
def passPictureOrder : m Unit := do
  match ← unsigned with
  | 0 =>
      let _ ← unsigned
  | 1 =>
      pass 1
      let _ ← signed
      let _ ← signed
      passCycle (← unsigned)
  | _ => return ()

/-- Reads a count that is written less one. -/
def readCount : m Nat := do
  let count := clamped ((← unsigned) + 1)
  note (.unsigned count)
  return count

/-- Reads whether no picture is a field. Otherwise a choice between frame and field
follows. -/
def readFramesOnly : m Bool := do
  let isFramesOnly ← flag
  passOneIf (!isFramesOnly)
  return isFramesOnly

/-- Reads how much is cropped. -/
def readCrop : m Crop := do
  return ⟨← unsigned, ← unsigned, ← unsigned, ← unsigned⟩

/-- Pixel shapes by their code; the code behind the last one is reserved. -/
def pixelShapes : List (Nat × Nat) :=
  [(0, 0), (1, 1), (12, 11), (10, 11), (16, 11), (40, 33), (24, 11), (20, 11), (32, 11), (80, 33),
    (18, 11), (15, 11), (64, 33), (160, 99), (4, 3), (3, 2), (2, 1)]

/-- The code of a pixel shape that is written out. -/
def writtenShape : Nat := 255

/-- Reads a pixel shape. -/
def readPixelShape : m (Nat × Nat) := do
  let code ← fixed 8
  if code = writtenShape then return (← fixed 16, ← fixed 16)
  else return pixelShapes.getD code (0, 0)

/-- A pair of numbers that mean nothing if one of them is zero. -/
def meaningful (pair : Option (Nat × Nat)) : Option (Nat × Nat) :=
  pair.filter fun (first, second) => first != 0 && second != 0

/-- Passes over the elements about the signal. -/
def passSignal : m Unit := do
  pass 4
  let _ ← announced (pass 24)

/-- Reads what is said about the use of the pictures, as far as the timing. -/
def readUsability : m Usability := do
  let pixelShape ← announced readPixelShape
  let _ ← announced (pass 1)
  let _ ← announced passSignal
  let _ ← announced do return (← unsigned, ← unsigned)
  let timing ← announced do return (← fixed 32, ← fixed 32)
  return ⟨meaningful pixelShape, meaningful timing⟩

/-- Reads a parameter set as far as the coded size. -/
def readCoded : m Sps := do
  let profile ← fixed 8
  let constraintFlags ← fixed 8
  let level ← fixed 8
  let _ ← unsigned
  let chromaFormat ← readSampling profile
  let _ ← unsigned
  passPictureOrder
  let _ ← unsigned
  pass 1
  let columns ← readCount
  let rows ← readCount
  let isFramesOnly ← readFramesOnly
  pass 1
  return ⟨profile, constraintFlags, level, chromaFormat, columns, rows, isFramesOnly, none,
    ⟨none, none⟩⟩

/-- Reads a parameter set. -/
def read : m Sps := do
  let coded : Sps ← readCoded
  noteAll coded.codedNumbers
  let crop ← announced readCrop
  let cropped := { coded with crop }
  noteAll cropped.cropNumbers
  let usability ← announced readUsability
  return { cropped with usability := usability.getD ⟨none, none⟩ }

end Reading

/-- Parses the parameter set of an unescaped unit, given behind the type
byte. -/
def parse (data : Bytes) : Except Error Sps := ((read : Parse Sps) (BitReader.ofBytes data)).1

/-! ## Display -/

/-- Frames per second; a frame lasts two ticks. -/
def frameRate (sps : Sps) : Option Float :=
  sps.usability.timing.map fun (tick, second) =>
    Float.ofNat second / (2.0 * Float.ofNat tick)

/-- Width over height of the displayed picture, where pixels have a shape. -/
def aspectRatio (sps : Sps) : Option Float :=
  if sps.width = 0 ∨ sps.height = 0 then none
  else sps.usability.pixelShape.map fun (across, down) =>
    Float.ofNat sps.width / Float.ofNat sps.height * Float.ofNat across / Float.ofNat down

/-- A length in pixels, to the nearest one. -/
def wholePixels (length : Float) : Nat := length.round.toUInt32.toNat

/-- Width and height of the displayed picture: wide pixels stretch its rows,
narrow ones its columns. -/
def displaySize (sps : Sps) : Nat × Nat :=
  match sps.aspectRatio with
  | none => (sps.width, sps.height)
  | some aspect =>
      if aspect > Float.ofNat sps.width / Float.ofNat sps.height then
        (wholePixels (Float.ofNat sps.height * aspect), sps.height)
      else (sps.width, wholePixels (Float.ofNat sps.width / aspect))

/-- The parameters of a track with this parameter set. -/
def params (sps : Sps) : CodecParams :=
  let (displayWidth, displayHeight) := sps.displaySize
  .video ⟨0, sps.width, sps.height, displayWidth, displayHeight, sps.frameRate, sps.aspectRatio⟩

end Sps

end MediaSplit.Avc

import MediaSplit.Power

/-!
Contract: runs of bytes as every parser of this library sees them.

Owns:
- `Bytes`, the plain list of octets, with big-endian numbers read from it and
  written to it;
- the test a parser makes before it looks ahead, `Bytes.hasAtLeast`;
- `Bytes.dropUpTo`, which drops and counts at once;
- `Bytes.blocks`, the whole blocks of a run of bytes;
- `Bytes.firstSuffix?`, the search for the first suffix that passes a test, and
  `Bytes.firstAmong?`, the search among those that another search leads to.

Does **not** own: positions in a file (`MediaSplit.Source`) and single bits
(`MediaSplit.Bits`).

A list makes "the rest of the input" a tail, so parsers recurse on their data
and a search over all suffixes is a structural recursion.
-/

set_option autoImplicit false

namespace MediaSplit

/-- A run of octets, first byte first. -/
abbrev Bytes := List UInt8

namespace Bytes

/-- The number spelled by the bytes, most significant byte first. -/
def toNumber (bytes : Bytes) : Nat :=
  bytes.foldl (fun value byte => value * 256 + byte.toNat) 0

/-- The low `width` bytes of a number, most significant byte first. -/
def ofNumber : (width : Nat) → Nat → Bytes
  | 0, _ => []
  | width + 1, value => ofNumber width (value / 256) ++ [UInt8.ofNat value]

/-- The bytes behind their length, which takes `width` bytes and loses its
high bits where it needs more. -/
def withLength (width : Nat) (bytes : Bytes) : Bytes := ofNumber width bytes.length ++ bytes

/-- Whether `count` bytes are there, looking no further than the last of them. -/
def hasAtLeast : (count : Nat) → Bytes → Bool
  | 0, _ => true
  | _ + 1, [] => false
  | count + 1, _ :: rest => hasAtLeast count rest

/-- The `count` bytes from `offset` on, fewer where the input ends. -/
def slice (bytes : Bytes) (offset count : Nat) : Bytes :=
  (bytes.drop offset).take count

/-- Drops up to `count` bytes and adds the number dropped to `dropped`. -/
def dropCounting : (count dropped : Nat) → Bytes → Nat × Bytes
  | 0, dropped, bytes => (dropped, bytes)
  | _ + 1, dropped, [] => (dropped, [])
  | count + 1, dropped, _ :: rest => dropCounting count (dropped + 1) rest

/-- Drops `count` bytes, or all of them, and says how many were dropped. -/
def dropUpTo (count : Nat) (bytes : Bytes) : Nat × Bytes :=
  dropCounting count 0 bytes

/-- The number at `offset`, `width` bytes long, where they are all present. -/
def numberAt? (bytes : Bytes) (offset width : Nat) : Option Nat :=
  let field := bytes.slice offset width
  if field.length = width then some (toNumber field) else none

/-- The first suffix that `accepts` answers, with `offset` added to its place. -/
def firstSuffixFrom? {α : Type} (accepts : Bytes → Option α) (offset : Nat) :
    Bytes → Option (Nat × α)
  | [] => none
  | byte :: rest =>
      match accepts (byte :: rest) with
      | some answer => some (offset, answer)
      | none => firstSuffixFrom? accepts (offset + 1) rest

/-- The least offset whose suffix `accepts` answers, with the answer. -/
def firstSuffix? {α : Type} (accepts : Bytes → Option α) (bytes : Bytes) :
    Option (Nat × α) :=
  firstSuffixFrom? accepts 0 bytes

/-- Goes from candidate to candidate up to the first that `accepts` answers, with
`offset` added to its place. Behind a candidate without an answer the search goes
on one byte further. -/
def firstAmongFrom? {α : Type}
    (candidate? : Bytes → Option Nat)
    (accepts : Bytes → Option α)
    (offset : Nat) : Bytes → Option (Nat × α)
  | [] => none
  | byte :: rest =>
      match candidate? (byte :: rest) with
      | none => none
      | some distance =>
          match accepts ((byte :: rest).drop distance) with
          | some answer => some (offset + distance, answer)
          | none =>
              firstAmongFrom? candidate? accepts (offset + distance + 1) (rest.drop distance)
termination_by data => data.length

/-- The first of the offsets that `candidate?` leads to whose suffix `accepts`
answers, with the answer. -/
def firstAmong? {α : Type} (candidate? : Bytes → Option Nat) (accepts : Bytes → Option α)
    (bytes : Bytes) : Option (Nat × α) :=
  firstAmongFrom? candidate? accepts 0 bytes

theorem hasAtLeast_iff (count : Nat) (bytes : Bytes) :
    hasAtLeast count bytes = true ↔ count ≤ bytes.length := by
  induction count generalizing bytes with
  | zero => simp [hasAtLeast]
  | succ count ih =>
    cases bytes with
    | nil => simp [hasAtLeast]
    | cons byte rest => simp [hasAtLeast, ih]

/-- Cuts whole blocks of `size` bytes and puts them behind `found`, whose last
block comes first; also gives what is too short for one more block. -/
def blocksOnto (size : Nat) (found : List Bytes) (bytes : Bytes) : List Bytes × Bytes :=
  if size ≠ 0 ∧ hasAtLeast size bytes = true then
    blocksOnto size (bytes.take size :: found) (bytes.drop size)
  else (found.reverse, bytes)
termination_by bytes.length
decreasing_by
  rename_i fits
  have bound := (hasAtLeast_iff size bytes).1 fits.2
  simp only [List.length_drop]
  omega

/-- The whole blocks of `size` bytes, and the rest that is too short for one. -/
def blocks (size : Nat) (bytes : Bytes) : List Bytes × Bytes :=
  blocksOnto size [] bytes

theorem dropCounting_eq (count dropped : Nat) (bytes : Bytes) :
    dropCounting count dropped bytes
      = (dropped + min count bytes.length, bytes.drop count) := by
  induction count generalizing dropped bytes with
  | zero => simp [dropCounting]
  | succ count ih =>
    cases bytes with
    | nil => simp [dropCounting]
    | cons byte rest =>
      simp only [dropCounting, ih, List.length_cons, List.drop_succ_cons, Prod.mk.injEq]
      exact ⟨by omega, trivial⟩

@[simp] theorem dropUpTo_eq (count : Nat) (bytes : Bytes) :
    dropUpTo count bytes = (min count bytes.length, bytes.drop count) := by
  simp [dropUpTo, dropCounting_eq]

@[simp] theorem length_ofNumber (width value : Nat) :
    (ofNumber width value).length = width := by
  induction width generalizing value with
  | zero => rfl
  | succ width ih => simp [ofNumber, ih]

theorem toNumber_append_singleton (bytes : Bytes) (byte : UInt8) :
    toNumber (bytes ++ [byte]) = toNumber bytes * 256 + byte.toNat := by
  simp [toNumber]

/-- Only the low bytes are written. -/
@[simp] theorem toNumber_ofNumber (width value : Nat) :
    toNumber (ofNumber width value) = value % 256 ^ width := by
  induction width generalizing value with
  | zero => simp [ofNumber, toNumber, Nat.mod_one]
  | succ width ih =>
    rw [ofNumber, toNumber_append_singleton, ih, UInt8.toNat_ofNat',
      show 256 ^ (width + 1) = 256 * 256 ^ width from Nat.pow_succ', Nat.mod_mul]
    omega

end Bytes

end MediaSplit

import MediaSplit.Bytes

/-!
Contract: cutting a video stream into units at its start codes.

Owns:
- `Units.seek`, which moves to the first start code, and `Units.split?`, which
  takes everything before it;
- `Units.Rules`, what a search for headers does with units, and
  `Units.Search`, which takes a stream in pieces and applies such rules.

A unit starts with the three bytes `00 00 01` and a type byte, and ends before
the next start code. It is looked at once its end is known, except that a type
byte alone can complete a search. What can no longer become part of a unit is
dropped.
-/

set_option autoImplicit false

namespace MediaSplit.Units

/-- The suffix that begins with the first start code; without one, the last
two bytes, which may be the beginning of one. -/
def seek : Bytes → Bytes
  | 0 :: 0 :: 1 :: rest => 0 :: 0 :: 1 :: rest
  | _ :: second :: third :: rest => seek (second :: third :: rest)
  | short => short

/-- Everything before the first start code, put behind the bytes in `before`,
whose last byte comes first, and the suffix that begins with that code. -/
def splitOnto? (before : Bytes) : Bytes → Option (Bytes × Bytes)
  | 0 :: 0 :: 1 :: rest => some (before.reverse, 0 :: 0 :: 1 :: rest)
  | first :: rest => splitOnto? (first :: before) rest
  | [] => none

/-- Everything before the first start code, and the suffix that begins with
it. -/
def split? (bytes : Bytes) : Option (Bytes × Bytes) := splitOnto? [] bytes

/-- What a search does with the units of a stream. -/
structure Rules (σ : Type) where
  /-- Whether the type byte can itself begin the next start code, which leaves
  an empty unit. -/
  typeMayBeginCode : Bool
  /-- Whether the search is complete once this type byte is seen. -/
  endsAt : σ → UInt8 → Bool
  /-- Takes in a unit, which is given from its type byte on. -/
  take : σ → Bytes → σ
  /-- Whether the search is complete behind a unit. -/
  isEnough : σ → Bool

/-- A search for headers in a stream that arrives in pieces. -/
structure Search (σ : Type) where
  /-- What has been found. -/
  found : σ
  /-- The bytes that may still belong to a unit. -/
  pending : Bytes
  isComplete : Bool
  deriving DecidableEq, Repr, Inhabited

theorem length_seek_le (bytes : Bytes) : (seek bytes).length ≤ bytes.length := by
  fun_induction seek bytes with
  | case1 => exact Nat.le_refl _
  | case2 first second third rest _ shorter => exact Nat.le_trans shorter (Nat.le_succ _)
  | case3 => exact Nat.le_refl _

theorem append_of_splitOnto? {before bytes unit rest : Bytes}
    (found : splitOnto? before bytes = some (unit, rest)) :
    unit ++ rest = before.reverse ++ bytes := by
  fun_induction splitOnto? before bytes with
  | case1 => cases found; rfl
  | case2 before first rest _ append =>
      rw [append found]
      simp
  | case3 => cases found

/-- A split loses nothing. -/
theorem append_of_split? {bytes unit rest : Bytes}
    (found : split? bytes = some (unit, rest)) : unit ++ rest = bytes := by
  simpa using append_of_splitOnto? found

variable {σ : Type}

/-- The unit whose type byte comes first, and what follows it. -/
def Rules.cut? (rules : Rules σ) (type : UInt8) (rest : Bytes) : Option (Bytes × Bytes) :=
  if rules.typeMayBeginCode then split? (type :: rest)
  else (split? rest).map fun (body, behind) => (type :: body, behind)

theorem Rules.length_of_cut? {rules : Rules σ} {type : UInt8} {rest unit behind : Bytes}
    (found : rules.cut? type rest = some (unit, behind)) :
    behind.length ≤ rest.length + 1 := by
  simp only [cut?] at found
  split at found
  · have whole := congrArg List.length (append_of_split? found)
    simp only [List.length_append, List.length_cons] at whole
    omega
  · obtain ⟨⟨body, after⟩, cut, same⟩ := Option.map_eq_some_iff.1 found
    have whole := congrArg List.length (append_of_split? cut)
    simp only [Prod.mk.injEq] at same
    obtain ⟨_, rfl⟩ := same
    simp only [List.length_append] at whole
    omega

namespace Search

/-- A search that has seen nothing. -/
def starting (found : σ) : Search σ := ⟨found, [], false⟩

/-- Goes through the units in `bytes`. -/
def through (rules : Rules σ) (found : σ) (bytes : Bytes) : Search σ :=
  match _sought : seek bytes with
  | 0 :: 0 :: 1 :: type :: rest =>
      if rules.endsAt found type then ⟨found, 0 :: 0 :: 1 :: type :: rest, true⟩
      else
        match _cut : rules.cut? type rest with
        | none => ⟨found, 0 :: 0 :: 1 :: type :: rest, false⟩
        | some (unit, behind) =>
            let found := rules.take found unit
            if rules.isEnough found then ⟨found, behind, true⟩
            else through rules found behind
  | short => ⟨found, short, false⟩
termination_by bytes.length
decreasing_by
  have shorter := length_seek_le bytes
  have remains := Rules.length_of_cut? _cut
  rw [_sought] at shorter
  simp only [List.length_cons] at shorter
  omega

/-- Takes the next piece of the stream. -/
def push (rules : Rules σ) (search : Search σ) (piece : Bytes) : Search σ :=
  if search.isComplete then search else through rules search.found (search.pending ++ piece)

end Search

end MediaSplit.Units

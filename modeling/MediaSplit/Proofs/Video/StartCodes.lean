import Mathlib.Data.List.Infix
import MediaSplit.Proofs.Video.Pieces

/-!
Contract: the units of a whole stream, told without a search.

Owns:
- `IsCutInto`, a stream and what lies between its start codes, with the facts that
  there is one such cut and no other, and `closedUnits`, the pieces that have a
  start code on both sides;
- that a split is made at the first start code;
- `Rules.takeAll`, what rules make of units one after the other, and that a search
  makes this of the closed units.

Does **not** own: rules that may end at a type byte or that pass over it, under
which a search can see fewer start codes than there are.

Two start codes never share a byte. So the pieces without a start code in them
already determine where a stream was cut.
-/

set_option autoImplicit false

namespace MediaSplit.Units

/-- The bytes that begin a unit. -/
def startCode : Bytes := [0, 0, 1]

/-- Joined by start codes, the pieces are the stream, and none has one inside. -/
structure IsCutInto (stream : Bytes) (pieces : List Bytes) : Prop where
  nonempty : pieces ≠ []
  joins : startCode.intercalate pieces = stream
  noCode : ∀ piece ∈ pieces, ¬ startCode <:+: piece

/-- The pieces that have a start code on both sides, which are the units whose
end is known. -/
def closedUnits (pieces : List Bytes) : List Bytes := pieces.tail.dropLast

variable {front unit rest : Bytes}

/-! ## Splits -/

theorem noCode_nil : ¬ startCode <:+: [] := by decide

/-- A start code that begins in front of another one ends in front of it. -/
theorem not_startsCode_append
    {first : UInt8}
    (rest : Bytes)
    (noCode : ¬ startCode <:+: first :: front) :
    ∀ tail, first = 0 → front ++ startCode ++ rest ≠ 0 :: 1 :: tail := by
  rintro tail rfl begins
  rcases front with _ | ⟨second, _ | ⟨third, front⟩⟩
  · cases begins
  · cases begins
  · cases begins
    exact noCode ⟨[], front, rfl⟩

theorem splitOnto?_of_noCode
    (before rest : Bytes)
    (noCode : ¬ startCode <:+: front) :
    splitOnto? before (front ++ startCode ++ rest)
      = some (before.reverse ++ front, startCode ++ rest) := by
  induction front generalizing before with
  | nil => simp [startCode, splitOnto?]
  | cons first front inductionHypothesis =>
      have later : ¬ startCode <:+: front := fun inside =>
        noCode (List.infix_cons_iff.2 (.inr inside))
      have goesOn := splitOnto?.eq_2 before first (front ++ startCode ++ rest)
        (not_startsCode_append rest noCode)
      rw [List.cons_append, List.cons_append, goesOn, inductionHypothesis _ later]
      simp

/-- A split gives what is before the first start code. -/
theorem split?_of_noCode (rest : Bytes) (noCode : ¬ startCode <:+: front) :
    split? (front ++ startCode ++ rest) = some (front, startCode ++ rest) :=
  splitOnto?_of_noCode [] rest noCode

theorem splitOnto?_eq_none_iff (before bytes : Bytes) :
    splitOnto? before bytes = none ↔ ¬ startCode <:+: bytes := by
  fun_induction splitOnto? before bytes with
  | case1 before rest =>
      simp only [reduceCtorEq, false_iff, not_not]
      exact ⟨[], rest, rfl⟩
  | case2 before first rest noCode inductionHypothesis =>
      rw [inductionHypothesis, List.infix_cons_iff, not_or, iff_and_self]
      rintro - ⟨tail, begins⟩
      cases begins
      exact noCode tail rfl rfl
  | case3 => simp [startCode]

/-- Nothing is split exactly where there is no start code. -/
theorem split?_eq_none_iff (bytes : Bytes) : split? bytes = none ↔ ¬ startCode <:+: bytes :=
  splitOnto?_eq_none_iff [] bytes

/-- A search moves to the first start code. -/
theorem seek_of_noCode (rest : Bytes) (noCode : ¬ startCode <:+: front) :
    seek (front ++ startCode ++ rest) = startCode ++ rest := by
  induction front with
  | nil => exact seek_startCode rest
  | cons first front inductionHypothesis =>
      have later : ¬ startCode <:+: front := fun inside =>
        noCode (List.infix_cons_iff.2 (.inr inside))
      have goesOn := inductionHypothesis later
      obtain ⟨second, third, behind, long⟩ : ∃ second third behind,
          front ++ startCode ++ rest = second :: third :: behind := by
        rcases front with _ | ⟨second, _ | ⟨third, front⟩⟩
        · exact ⟨_, _, _, rfl⟩
        · exact ⟨_, _, _, rfl⟩
        · exact ⟨_, _, _, rfl⟩
      have begins := not_startsCode_append rest noCode
      rw [List.cons_append, List.cons_append]
      rw [long] at goesOn begins ⊢
      rw [seek.eq_2 _ _ _ _ fun isFirst isSecond isThird =>
        begins behind isFirst (by rw [isSecond, isThird]), goesOn]

/-- Where there is no start code, none is found. -/
theorem seek_ne_startCode_of_noCode
    {bytes : Bytes}
    (noCode : ¬ startCode <:+: bytes)
    (rest : Bytes) :
    seek bytes ≠ startCode ++ rest := by
  fun_induction seek bytes with
  | case1 rest => exact absurd ⟨[], rest, rfl⟩ noCode
  | case2 first second third behind _ inductionHypothesis =>
      exact inductionHypothesis fun inside => noCode (List.infix_cons_iff.2 (.inr inside))
  | case3 short =>
      rintro rfl
      exact noCode ⟨[], rest, rfl⟩

/-! ## The cut of a stream -/

theorem isCutInto_singleton {bytes : Bytes} (noCode : ¬ startCode <:+: bytes) :
    IsCutInto bytes [bytes] :=
  ⟨List.cons_ne_nil _ _, List.intercalate_singleton, by simpa using noCode⟩

theorem IsCutInto.cons
    {stream : Bytes}
    {pieces : List Bytes}
    (cut : IsCutInto stream pieces)
    (noCode : ¬ startCode <:+: front) :
    IsCutInto (front ++ startCode ++ stream) (front :: pieces) where
  nonempty := List.cons_ne_nil _ _
  joins := by rw [List.intercalate_cons_of_ne_nil cut.nonempty, cut.joins]
  noCode := List.forall_mem_cons.2 ⟨noCode, cut.noCode⟩

/-- A cut has one piece and no start code, or a first piece before the first one. -/
theorem IsCutInto.cases_cons
    {stream : Bytes}
    {pieces : List Bytes}
    (cut : IsCutInto stream (front :: pieces)) :
    ¬ startCode <:+: front
      ∧ (pieces = [] ∧ stream = front
        ∨ ∃ behind, IsCutInto behind pieces ∧ stream = front ++ startCode ++ behind) := by
  obtain ⟨-, joins, noCode⟩ := cut
  obtain ⟨first, others⟩ := List.forall_mem_cons.1 noCode
  refine ⟨first, ?_⟩
  rcases eq_or_ne pieces [] with rfl | nonempty
  · exact .inl ⟨rfl, by rw [← joins, List.intercalate_singleton]⟩
  · refine .inr ⟨startCode.intercalate pieces, ⟨nonempty, rfl, others⟩, ?_⟩
    rw [← joins, List.intercalate_cons_of_ne_nil nonempty]

/-- Every stream can be cut. -/
theorem exists_isCutInto (stream : Bytes) : ∃ pieces, IsCutInto stream pieces := by
  induction length : stream.length using Nat.strong_induction_on generalizing stream with
  | _ _ inductionHypothesis =>
      subst length
      rcases stream with _ | ⟨first, stream⟩
      · exact ⟨[[]], isCutInto_singleton noCode_nil⟩
      by_cases begins : startCode <+: first :: stream
      · obtain ⟨behind, same⟩ := begins
        have shorter : behind.length < (first :: stream).length := by
          rw [← same, List.length_append]
          exact Nat.lt_add_of_pos_left (by decide)
        obtain ⟨pieces, cut⟩ := inductionHypothesis _ shorter behind rfl
        rw [← same]
        exact ⟨[] :: pieces, cut.cons noCode_nil⟩
      · obtain ⟨pieces, cut⟩ := inductionHypothesis _ (Nat.lt_succ_self _) stream rfl
        rcases pieces with _ | ⟨front, pieces⟩
        · exact absurd rfl cut.nonempty
        obtain ⟨noCode, ends⟩ := cut.cases_cons
        have longer (within : first :: front <+: first :: stream) :
            ¬ startCode <:+: first :: front := by
          rw [List.infix_cons_iff, not_or]
          exact ⟨fun inFront => begins (inFront.trans within), noCode⟩
        rcases ends with ⟨rfl, rfl⟩ | ⟨behind, rest, rfl⟩
        · exact ⟨_, isCutInto_singleton (longer (List.prefix_refl _))⟩
        · exact ⟨_, rest.cons (longer ⟨startCode ++ behind, by simp⟩)⟩

/-- A stream can be cut in one way only. -/
theorem IsCutInto.unique
    {stream : Bytes}
    {pieces others : List Bytes}
    (cut : IsCutInto stream pieces)
    (other : IsCutInto stream others) :
    pieces = others := by
  induction pieces generalizing stream others with
  | nil => exact absurd rfl cut.nonempty
  | cons front pieces inductionHypothesis =>
      obtain ⟨noCode, ends⟩ := cut.cases_cons
      rcases others with _ | ⟨otherFront, others⟩
      · exact absurd rfl other.nonempty
      obtain ⟨otherNoCode, otherEnds⟩ := other.cases_cons
      rcases ends with ⟨rfl, rfl⟩ | ⟨behind, rest, rfl⟩
      · rcases otherEnds with ⟨rfl, rfl⟩ | ⟨behind, -, rfl⟩
        · rfl
        · exact absurd (List.infix_append _ _ _) noCode
      · rcases otherEnds with ⟨rfl, rfl⟩ | ⟨otherBehind, otherRest, same⟩
        · exact absurd (List.infix_append _ _ _) otherNoCode
        · have split := split?_of_noCode behind noCode
          rw [same, split?_of_noCode otherBehind otherNoCode] at split
          obtain ⟨rfl, same⟩ := Prod.mk.inj (Option.some.inj split)
          obtain rfl := List.append_cancel_left same
          rw [inductionHypothesis rest otherRest]

/-! ## What a search makes of the units -/

variable {σ : Type}

/-- What the rules make of the units in order, up to the one behind which the
search is complete. -/
def Rules.takeAll (rules : Rules σ) (found : σ) : List Bytes → σ
  | [] => found
  | unit :: rest =>
      if rules.isEnough (rules.take found unit) then rules.take found unit
      else rules.takeAll (rules.take found unit) rest

/-- The rules see every start code, and take in whole units only. -/
structure Rules.SeesAll (rules : Rules σ) : Prop where
  typeMayBeginCode : rules.typeMayBeginCode = true
  endsNever : ∀ found type, rules.endsAt found type = false

namespace Search

/-- A search makes of a stream what the rules make of its closed units. -/
theorem found_through
    {rules : Rules σ}
    (seesAll : rules.SeesAll)
    {stream : Bytes}
    {pieces : List Bytes}
    (found : σ)
    (cut : IsCutInto stream pieces) :
    (through rules found stream).found = rules.takeAll found (closedUnits pieces) := by
  induction pieces generalizing stream found with
  | nil => exact absurd rfl cut.nonempty
  | cons front pieces inductionHypothesis =>
      obtain ⟨noCode, ⟨rfl, rfl⟩ | ⟨behind, rest, rfl⟩⟩ := cut.cases_cons
      · rw [through_of_noType rules found fun type rest =>
          seek_ne_startCode_of_noCode noCode (type :: rest)]
        rfl
      rcases pieces with _ | ⟨unit, pieces⟩
      · exact absurd rfl rest.nonempty
      have sought := seek_of_noCode behind noCode
      obtain ⟨unitNoCode, ends⟩ := rest.cases_cons
      rcases behind with _ | ⟨type, tail⟩
      -- the last start code ends the stream, which leaves nothing behind it
      · rcases ends with ⟨rfl, -⟩ | ⟨_, -, same⟩
        · rw [through_of_noType rules found fun type tail hasType => by cases sought ▸ hasType]
          rfl
        · simp [startCode] at same
      rw [through_of_type rules found sought, seesAll.endsNever, if_neg Bool.false_ne_true,
        Rules.cut?, if_pos seesAll.typeMayBeginCode]
      rcases ends with ⟨rfl, rfl⟩ | ⟨behind, more, same⟩
      · rw [(split?_eq_none_iff _).2 unitNoCode]
        rfl
      · rw [same, split?_of_noCode behind unitNoCode]
        have closed :
            closedUnits (front :: unit :: pieces) = unit :: closedUnits (unit :: pieces) :=
          List.dropLast_cons_of_ne_nil more.nonempty
        rw [closed, Rules.takeAll]
        dsimp only
        split
        · rfl
        -- going on behind the unit is going on from its start, where the next code is the same
        · rw [← inductionHypothesis _ rest, same]
          apply congrArg Search.found
          apply through_congr
          rw [seek_of_noCode behind unitNoCode]
          exact seek_startCode behind

end Search

end MediaSplit.Units

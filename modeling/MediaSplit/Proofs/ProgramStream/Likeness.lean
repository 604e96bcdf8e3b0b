import MediaSplit.ProgramStream.Discovery
import MediaSplit.Proofs.ProgramStream.Walk

/-!
Contract: what the way of a walk depends on.

Owns:
- `Navigator.IsLike`, walks of one source and one version, and that they come
  upon the same packets, whatever maps they have read;
- `Navigator.Keeps`, that no walk changes a version once it is decided, however
  far it looks ahead.

A walk that has looked ahead and come back differs from one that has not, but
only in what it does not go by.
-/

set_option autoImplicit false

namespace MediaSplit.ProgramStream

namespace Navigator

/-! ## Walks that go the same way -/

/-- The walks differ at most in maps and in how often they went astray. -/
structure IsLike (navigator other : Navigator) : Prop where
  source : navigator.source = other.source
  version : navigator.version = other.version

/-- What two walks come upon is the same, and they are still alike. -/
structure GoLike {α : Type} (outcome other : α × Navigator) : Prop where
  found : outcome.1 = other.1
  isLike : outcome.2.IsLike other.2

theorem GoLike.exists_eq
    {α : Type}
    {outcome other : α × Navigator}
    {found : α}
    {after : Navigator}
    (goes : GoLike outcome other)
    (isOutcome : outcome = (found, after)) :
    ∃ otherAfter, other = (found, otherAfter) ∧ after.IsLike otherAfter := by
  subst isOutcome
  exact ⟨other.2, Prod.ext goes.found.symm rfl, goes.isLike⟩

namespace IsLike

variable {navigator other : Navigator}

theorem refl (navigator : Navigator) : navigator.IsLike navigator := ⟨rfl, rfl⟩

theorem position (alike : navigator.IsLike other) : navigator.position = other.position :=
  congrArg Source.position alike.source

theorem movedTo (alike : navigator.IsLike other) (position : Nat) :
    (navigator.movedTo position).IsLike (other.movedTo position) :=
  ⟨congrArg (·.movedTo position) alike.source, alike.version⟩

theorem movedToEnd (alike : navigator.IsLike other) :
    navigator.movedToEnd.IsLike other.movedToEnd := by
  unfold Navigator.movedToEnd
  rw [alike.source]
  exact alike.movedTo _

theorem decideVersion (alike : navigator.IsLike other) :
    navigator.decideVersion.IsLike other.decideVersion := by
  refine ⟨alike.source, ?_⟩
  unfold Navigator.decideVersion
  dsimp only
  rw [alike.version, alike.source, alike.position]

theorem codeAt (alike : navigator.IsLike other) (position : Nat) :
    GoLike (navigator.codeAt position) (other.codeAt position) := by
  unfold Navigator.codeAt
  rw [alike.source]
  split
  · exact ⟨rfl, alike.movedTo _⟩
  · exact ⟨rfl, alike.movedToEnd⟩

theorem codeBehind (alike : navigator.IsLike other) (structureEnd : Option Nat) :
    GoLike (navigator.codeBehind structureEnd) (other.codeBehind structureEnd) := by
  cases structureEnd with
  | none => exact ⟨rfl, alike.movedToEnd⟩
  | some position => exact alike.codeAt position

theorem resync (alike : navigator.IsLike other) (word : Nat) :
    GoLike (navigator.resync word) (other.resync word) := by
  unfold Navigator.resync
  rw [alike.source, alike.position]
  split
  · exact ⟨rfl, ⟨rfl, alike.version⟩⟩
  · exact ⟨rfl, alike.movedToEnd⟩

end IsLike

/-- Where a map ends does not depend on the maps before it. -/
theorem fst_read_eq (map other : StreamMap) (source : Source) (offset : Nat) :
    (map.read source offset).map Prod.fst = (other.read source offset).map Prod.fst := by
  unfold StreamMap.read
  cases source.numberAt? offset 2 with
  | none => rfl
  | some length => rfl

namespace IsLike

variable {navigator other : Navigator}

theorem codeAfter (alike : navigator.IsLike other) (word : Nat) :
    GoLike (navigator.codeAfter word) (other.codeAfter word) := by
  unfold Navigator.codeAfter
  split
  · have decided := alike.decideVersion
    dsimp only
    rw [decided.version, decided.source, decided.position]
    exact decided.codeBehind _
  split
  · rw [alike.source, alike.position]
    exact alike.codeBehind _
  split
  · have ends := fst_read_eq navigator.map other.map other.source other.position
    rw [alike.source, alike.position]
    cases read : navigator.map.read other.source other.position with
    | none =>
        rw [read] at ends
        rw [Option.map_eq_none_iff.1 ends.symm]
        exact ⟨rfl, alike.movedToEnd⟩
    | some answer =>
        rw [read] at ends
        obtain ⟨answer', readOther, same⟩ := Option.map_eq_some_iff.1 ends.symm
        rw [readOther]
        dsimp only
        rw [← same]
        apply IsLike.codeAt
        exact ⟨rfl, alike.version⟩
  · exact alike.resync word

theorem packetFrom (alike : navigator.IsLike other) (word : Nat) (limit : Option Nat) :
    GoLike (navigator.packetFrom word limit) (other.packetFrom word limit) := by
  fun_induction Navigator.packetFrom navigator word limit generalizing other with
  | case1 navigator word isPast =>
      rw [alike.position] at isPast
      rw [Navigator.packetFrom, if_pos isPast]
      exact ⟨rfl, alike⟩
  | case2 navigator word notPast isCode =>
      rw [alike.position] at notPast ⊢
      rw [Navigator.packetFrom, if_neg notPast, if_pos isCode]
      exact ⟨rfl, alike⟩
  | case3 navigator word notPast notCode next after step inductionHypothesis =>
      obtain ⟨otherAfter, otherStep, isLike⟩ := (alike.codeAfter word).exists_eq step
      rw [alike.position] at notPast
      rw [Navigator.packetFrom.eq_def other, if_neg notPast, if_neg notCode, otherStep]
      exact inductionHypothesis isLike
  | case4 navigator word notPast notCode after step =>
      obtain ⟨otherAfter, otherStep, isLike⟩ := (alike.codeAfter word).exists_eq step
      rw [alike.position] at notPast
      rw [Navigator.packetFrom.eq_def other, if_neg notPast, if_neg notCode, otherStep]
      exact ⟨rfl, isLike⟩

theorem nextPacket (alike : navigator.IsLike other) (limit : Option Nat) :
    GoLike (navigator.nextPacket limit) (other.nextPacket limit) := by
  have goes := alike.codeAt navigator.position
  unfold Navigator.nextPacket
  rw [← alike.position]
  rcases code : navigator.codeAt navigator.position with ⟨outcome, after⟩
  obtain ⟨otherAfter, otherCode, isLike⟩ := goes.exists_eq code
  rw [otherCode]
  cases outcome with
  | none => exact ⟨rfl, isLike⟩
  | some word => exact isLike.packetFrom word limit

theorem skipPacket (alike : navigator.IsLike other) :
    GoLike navigator.skipPacket other.skipPacket := by
  unfold Navigator.skipPacket
  rw [alike.source, alike.position]
  split
  · exact ⟨rfl, alike.movedTo _⟩
  · exact ⟨rfl, alike.movedToEnd⟩

end IsLike

/-! ## The version of a program -/

/-- A version that has been decided stays. -/
def Keeps (navigator after : Navigator) : Prop :=
  navigator.version.isSome = true → after.version = navigator.version

theorem Keeps.of_eq {navigator after : Navigator} (same : after.version = navigator.version) :
    navigator.Keeps after := fun _ => same

theorem Keeps.trans
    {navigator middle after : Navigator}
    (first : navigator.Keeps middle)
    (second : middle.Keeps after) :
    navigator.Keeps after := by
  intro decided
  have same := first decided
  rw [← same] at decided ⊢
  exact second decided

/-- A step keeps what its outcome keeps. -/
theorem Keeps.of_outcome
    {α : Type}
    {navigator after : Navigator}
    {outcome : α × Navigator}
    {found : α}
    (keeps : navigator.Keeps outcome.2)
    (isOutcome : outcome = (found, after)) :
    navigator.Keeps after := by
  rwa [isOutcome] at keeps

section Version

variable {navigator : Navigator} {limit : Option Nat}

theorem version_codeAt (navigator : Navigator) (position : Nat) :
    (navigator.codeAt position).2.version = navigator.version := by
  unfold codeAt
  split <;> rfl

theorem version_codeBehind (navigator : Navigator) (structureEnd : Option Nat) :
    (navigator.codeBehind structureEnd).2.version = navigator.version := by
  cases structureEnd with
  | none => rfl
  | some position => exact version_codeAt navigator position

theorem keeps_codeAfter (navigator : Navigator) (word : Nat) :
    navigator.Keeps (navigator.codeAfter word).2 := by
  unfold codeAfter
  split
  · intro decided
    rw [version_codeBehind, decideVersion, Option.or_of_isSome decided]
  split
  · exact .of_eq (version_codeBehind navigator _)
  split
  · split
    · exact .of_eq (version_codeAt _ _)
    · exact .of_eq rfl
  · apply Keeps.of_eq
    unfold resync
    split <;> rfl

theorem keeps_packetFrom (navigator : Navigator) (word : Nat) (limit : Option Nat) :
    navigator.Keeps (navigator.packetFrom word limit).2 := by
  fun_induction packetFrom navigator word limit with
  | case1 => exact .of_eq rfl
  | case2 => exact .of_eq rfl
  | case3 navigator word _ _ next after step inductionHypothesis =>
      exact ((keeps_codeAfter navigator word).of_outcome step).trans inductionHypothesis
  | case4 navigator word _ _ after step => exact (keeps_codeAfter navigator word).of_outcome step

theorem keeps_nextPacket (navigator : Navigator) (limit : Option Nat) :
    navigator.Keeps (navigator.nextPacket limit).2 := by
  have same := version_codeAt navigator navigator.position
  unfold nextPacket
  rcases code : navigator.codeAt navigator.position with ⟨outcome, after⟩
  rw [code] at same
  cases outcome with
  | none => exact .of_eq same
  | some word => exact (Keeps.of_eq same).trans (keeps_packetFrom after word limit)

theorem keeps_skipPacket (navigator : Navigator) :
    navigator.Keeps navigator.skipPacket.2 := by
  apply Keeps.of_eq
  unfold skipPacket
  split <;> rfl

theorem keeps_nextPacketOf (navigator : Navigator) (id : Nat) (limit : Option Nat) :
    navigator.Keeps (navigator.nextPacketOf id limit).2 := by
  fun_induction nextPacketOf navigator id limit with
  | case1 navigator after found => exact (keeps_nextPacket navigator limit).of_outcome found
  | case2 navigator start after found => exact (keeps_nextPacket navigator limit).of_outcome found
  | case3 navigator start after found _ behind skipped inductionHypothesis =>
      have onward := (keeps_skipPacket after).of_outcome skipped
      exact ((keeps_nextPacket navigator limit).of_outcome found).trans
        (onward.trans inductionHypothesis)
  | case4 navigator start after found _ atEnd skipped =>
      have onward := (keeps_skipPacket after).of_outcome skipped
      exact ((keeps_nextPacket navigator limit).of_outcome found).trans onward

theorem version_readContent (navigator : Navigator) (start : PacketStart) :
    (navigator.readContent start).2.version = navigator.version := by
  unfold readContent
  split <;> rfl

theorem keeps_of_readContent
    {start : PacketStart}
    {outcome : Except Error (Option PesContent)}
    {after : Navigator}
    (read : navigator.readContent start = (outcome, after)) :
    navigator.Keeps after :=
  (Keeps.of_eq (version_readContent navigator start)).of_outcome read

theorem keeps_of_takePayload
    {length : Nat}
    {outcome : Except Error (Option Bytes)}
    {after : Navigator}
    (taken : navigator.takePayload length = (outcome, after)) :
    navigator.Keeps after := by
  refine Keeps.of_outcome (.of_eq ?_) taken
  unfold takePayload
  split <;> rfl

theorem keeps_of_nextPayload
    {id key window : Nat}
    {outcome : Option Bytes}
    {after : Navigator}
    (found : navigator.nextPayload id key window = .ok (outcome, after)) :
    navigator.Keeps after := by
  have first : ∀ {navigator middle : Navigator} {start : Option PacketStart},
      navigator.nextPacketOf id (some window) = (start, middle) → navigator.Keeps middle :=
    (keeps_nextPacketOf _ id (some window)).of_outcome
  fun_induction nextPayload navigator id key window with
  | case1 navigator middle next =>
      cases found
      exact first next
  | case2 => cases found
  | case3 navigator start middle next stopped read =>
      cases found
      exact (first next).trans (keeps_of_readContent read)
  | case4 navigator start middle next length stopped read inductionHypothesis =>
      have onward := (first next).trans (keeps_of_readContent read)
      exact onward.trans (inductionHypothesis found)
  | case5 => cases found
  | case6 navigator start middle next header stopped read _ payload behind taken =>
      cases found
      have onward := (first next).trans (keeps_of_readContent read)
      exact onward.trans (keeps_of_takePayload taken)
  | case7 navigator start middle next header stopped read _ inductionHypothesis =>
      have onward := (first next).trans (keeps_of_readContent read)
      exact onward.trans (inductionHypothesis found)

theorem isSome_version_of_codeAfter
    {next : Nat}
    {after : Navigator}
    (step : navigator.codeAfter packStartCode = (some next, after)) :
    after.version.isSome = true := by
  unfold codeAfter at step
  rw [if_pos rfl] at step
  have same := version_codeBehind navigator.decideVersion
    (navigator.decideVersion.version.bind fun version =>
      packHeaderEnd? navigator.decideVersion.source version navigator.decideVersion.position)
  dsimp only at step
  rw [step] at same
  rw [same]
  cases version : navigator.decideVersion.version with
  | none =>
      rw [version] at step
      cases step
  | some version => rfl

/-- In a program that starts with a pack header the version is decided at the
first packet. -/
theorem isSome_version_of_nextPacket
    {start : PacketStart}
    {after : Navigator}
    (isPack : navigator.source.numberAt? navigator.position 4 = some packStartCode)
    (found : navigator.nextPacket limit = (some start, after)) :
    after.version.isSome = true := by
  unfold nextPacket codeAt at found
  rw [isPack] at found
  dsimp only at found
  rw [packetFrom] at found
  split at found
  · cases found
  split at found
  next isCode => exact absurd isCode (by decide)
  split at found
  next next middle step =>
    have decided := isSome_version_of_codeAfter step
    have kept := keeps_packetFrom middle next limit decided
    rw [found] at kept
    rwa [kept]
  next => cases found

end Version

end Navigator

/-! ## Looking ahead -/

/-- A walk that has looked ahead and come back goes on like one that has not. -/
theorem Navigator.IsLike.comeBack
    {before walk other ahead : Navigator}
    {limit : Option Nat}
    {start : PacketStart}
    (alike : walk.IsLike other)
    (found : before.nextPacket limit = (some start, walk))
    (kept : ahead.version = walk.version) :
    (ahead.comeBack walk start).IsLike other := by
  refine ⟨?_, kept.trans alike.version⟩
  rw [← alike.source, Navigator.comeBack, offset_of_nextPacket found]
  rfl

theorem Probe.keeps_of_feed
    {probe fed : Probe}
    {walk behind : Navigator}
    {id key limit : Nat}
    (found : probe.feed walk id key limit = .ok (fed, behind)) :
    walk.Keeps behind := by
  fun_induction Probe.feed probe walk id key limit with
  | case1 => cases found
  | case2 probe walk middle payload =>
      cases found
      exact Navigator.keeps_of_nextPayload payload
  | case3 probe walk payload middle next _ pushed =>
      cases found
      exact Navigator.keeps_of_nextPayload next
  | case4 probe walk payload middle next _ pushed inductionHypothesis =>
      exact (Navigator.keeps_of_nextPayload next).trans (inductionHypothesis found)

end MediaSplit.ProgramStream

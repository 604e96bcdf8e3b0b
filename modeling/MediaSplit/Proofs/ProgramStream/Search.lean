import MediaSplit.Proofs.ProgramStream.Walk

/-!
Contract: where a walk goes on that has lost its way, and that every walk ends.

Owns:
- that a walk which has lost its way goes on at the first start code behind the
  bytes where it was lost, and ends where there is none;
- `Navigator.resynced`, a walk that has found back once more, which goes where
  the walk itself would go;
- `Navigator.WalksFrom`, `Navigator.Walks` and `Navigator.WalksTo`, the turns of
  a walk to the next packet and to the next packet of a stream, and that there
  are no more of them than bytes ahead;
- `Navigator.Finds`, what holds of every packet that is found.

Does **not** own: what is passed over on the way.
-/

set_option autoImplicit false

namespace MediaSplit.ProgramStream

namespace Navigator

variable {navigator after : Navigator} {word : Nat} {limit : Option Nat}

/-! ## A walk that has lost its way -/

/-- The walk, having found back once more. -/
def resynced (navigator : Navigator) : Navigator :=
  { navigator with resyncs := navigator.resyncs + 1 }

@[simp] theorem source_resynced (navigator : Navigator) :
    navigator.resynced.source = navigator.source := rfl

@[simp] theorem position_resynced (navigator : Navigator) :
    navigator.resynced.position = navigator.position := rfl

@[simp] theorem map_resynced (navigator : Navigator) :
    navigator.resynced.map = navigator.map := rfl

theorem codeAt_resynced (navigator : Navigator) (position : Nat) :
    navigator.resynced.codeAt position = Prod.map id resynced (navigator.codeAt position) := by
  unfold codeAt
  rw [source_resynced]
  cases navigator.source.numberAt? position 4 with
  | none => rfl
  | some word => rfl

theorem codeBehind_resynced (navigator : Navigator) (structureEnd : Option Nat) :
    navigator.resynced.codeBehind structureEnd
      = Prod.map id resynced (navigator.codeBehind structureEnd) := by
  cases structureEnd with
  | none => rfl
  | some position => exact codeAt_resynced navigator position

theorem resync_resynced (navigator : Navigator) (word : Nat) :
    navigator.resynced.resync word = Prod.map id resynced (navigator.resync word) := by
  unfold resync
  rw [source_resynced, position_resynced]
  cases findStartCode? navigator.source word navigator.position with
  | none => rfl
  | some found => rfl

/-- How often a walk has found back has no say in where it goes. -/
theorem codeAfter_resynced (navigator : Navigator) (word : Nat) :
    navigator.resynced.codeAfter word = Prod.map id resynced (navigator.codeAfter word) := by
  unfold codeAfter
  split
  · exact codeBehind_resynced navigator.decideVersion _
  split
  · exact codeBehind_resynced navigator _
  split
  · rw [source_resynced, position_resynced, map_resynced]
    cases navigator.map.read navigator.source navigator.position with
    | none => rfl
    | some found => exact codeAt_resynced { navigator with map := found.2 } found.1
  · exact resync_resynced navigator word

theorem packetFrom_resynced (navigator : Navigator) (word : Nat) (limit : Option Nat) :
    navigator.resynced.packetFrom word limit
      = Prod.map id resynced (navigator.packetFrom word limit) := by
  fun_induction packetFrom navigator word limit with
  | case1 navigator word far =>
      rw [packetFrom]
      exact if_pos far
  | case2 navigator word near isCode =>
      rw [packetFrom]
      exact (if_neg near).trans (if_pos isCode)
  | case3 navigator word near isOther next behind step inductionHypothesis =>
      have same := codeAfter_resynced navigator word
      rw [step] at same
      rw [← inductionHypothesis, packetFrom]
      refine (if_neg near).trans ((if_neg isOther).trans ?_)
      split
      next step' =>
        obtain ⟨isNext, rfl⟩ := Prod.mk.inj (same.symm.trans step')
        obtain rfl := Option.some.inj isNext
        rfl
      next step' => cases same.symm.trans step'
  | case4 navigator word near isOther behind step =>
      have same := codeAfter_resynced navigator word
      rw [step] at same
      rw [packetFrom]
      refine (if_neg near).trans ((if_neg isOther).trans ?_)
      split
      next step' => cases same.symm.trans step'
      next step' => exact congrArg (Prod.mk none) (Prod.mk.inj (same.symm.trans step')).2.symm

theorem nextPacket_resynced (navigator : Navigator) (limit : Option Nat) :
    navigator.resynced.nextPacket limit
      = Prod.map id resynced (navigator.nextPacket limit) := by
  have same := codeAt_resynced navigator navigator.position
  unfold nextPacket
  rw [position_resynced, same]
  cases navigator.codeAt navigator.position with
  | mk code behind =>
      cases code with
      | none => rfl
      | some word => exact packetFrom_resynced behind word limit

/-- A resync reads the first start code behind the word with which it starts. -/
theorem resync_of_isLeast
    {first : Nat}
    (read : navigator.HasRead word)
    (isFirst : IsLeast (startCodesBehind navigator.source (navigator.position - 4)) first) :
    navigator.resync word = (navigator.movedTo first).resynced.codeAt first := by
  rcases findStartCode?_spec read.1 read.2 with
    ⟨place, code, isLeast, spelled, found⟩ | ⟨nowhere, -⟩
  · obtain rfl : place = first := isLeast.unique isFirst
    have stands : (navigator.movedTo place).resynced.source.numberAt? place 4 = some code := spelled
    unfold resync codeAt
    rw [found, stands]
    rfl
  · have member := isFirst.1
    rw [nowhere] at member
    exact absurd member (Set.notMem_empty first)

/-- A resync runs to the end of the data where no start code follows. -/
theorem resync_of_isEmpty
    (read : navigator.HasRead word)
    (nowhere : startCodesBehind navigator.source (navigator.position - 4) = ∅) :
    navigator.resync word = (none, navigator.movedToEnd) := by
  rcases findStartCode?_spec read.1 read.2 with ⟨place, code, isLeast, -, -⟩ | ⟨-, found⟩
  · have member := isLeast.1
    rw [nowhere] at member
    exact absurd member (Set.notMem_empty place)
  · unfold resync
    rw [found]

/-- A word is astray if it ends the program or is no start code. -/
def IsAstray (word : Nat) : Prop := word = programEndCode ∨ isStartCode word = false

theorem isPacketCode_of_isAstray (astray : IsAstray word) : isPacketCode word = false := by
  rcases astray with rfl | noCode
  · decide
  · unfold isPacketCode
    rw [noCode, Bool.false_and]

/-- A word that is astray starts no structure that could be passed over. -/
theorem codeAfter_of_isAstray (navigator : Navigator) (astray : IsAstray word) :
    navigator.codeAfter word = navigator.resync word := by
  have other : ∀ code, isStartCode code = true → code ≠ programEndCode → word ≠ code := by
    rintro code isCode notEnd rfl
    rcases astray with isEnd | noCode
    · exact notEnd isEnd
    · exact absurd (noCode.symm.trans isCode) Bool.false_ne_true
  unfold codeAfter
  rw [if_neg (other _ (by decide) (by decide)), if_neg (other _ (by decide) (by decide)),
    if_neg (other _ (by decide) (by decide))]

/-- A walk that has lost its way goes on as if it stood at the first start code
that follows. -/
theorem nextPacket_of_isLeast
    {first : Nat}
    (stands : navigator.source.numberAt? navigator.position 4 = some word)
    (astray : IsAstray word)
    (isFirst : IsLeast (startCodesBehind navigator.source navigator.position) first) :
    navigator.nextPacket none
      = Prod.map id resynced ((navigator.movedTo first).nextPacket none) := by
  have read : (navigator.movedTo (navigator.position + 4)).HasRead word :=
    ⟨Nat.le_add_left 4 navigator.position, stands⟩
  rw [← nextPacket_resynced]
  apply nextPacket_of_codeAfter stands (isPacketCode_of_isAstray astray)
  rw [codeAfter_of_isAstray _ astray]
  exact resync_of_isLeast read isFirst

/-- Where no start code follows, a walk that has lost its way ends. -/
theorem nextPacket_of_isEmpty
    (stands : navigator.source.numberAt? navigator.position 4 = some word)
    (astray : IsAstray word)
    (nowhere : startCodesBehind navigator.source navigator.position = ∅) :
    navigator.nextPacket none = (none, navigator.movedToEnd) := by
  have read : (navigator.movedTo (navigator.position + 4)).HasRead word :=
    ⟨Nat.le_add_left 4 navigator.position, stands⟩
  have atEnd : navigator.movedToEnd.nextPacket none = (none, navigator.movedToEnd) :=
    nextPacket_of_end none (Nat.lt_add_of_pos_right (by decide))
  rw [← atEnd]
  apply nextPacket_of_codeAfter stands (isPacketCode_of_isAstray astray)
  rw [codeAfter_of_isAstray _ astray, resync_of_isEmpty read nowhere]
  exact (codeAt_of_short (Nat.lt_add_of_pos_right (by decide))).symm

/-! ## The turns of a walk -/

/-- The walk from `word` on takes this many turns. Each turn but the last passes
over something and reads the word behind it. -/
inductive WalksFrom (limit : Option Nat) : (navigator : Navigator) → (word turns : Nat) →
    (outcome : Option PacketStart × Navigator) → Prop
  | isPast {navigator : Navigator} {word : Nat}
      (far : limit.any (· < navigator.position) = true) :
      WalksFrom limit navigator word 1 (none, navigator)
  | isPacket {navigator : Navigator} {word : Nat}
      (near : ¬ limit.any (· < navigator.position) = true)
      (isCode : isPacketCode word = true) :
      WalksFrom limit navigator word 1 (some ⟨word % 256, navigator.position - 4⟩, navigator)
  | ends {navigator after : Navigator} {word : Nat}
      (near : ¬ limit.any (· < navigator.position) = true)
      (isOther : ¬ isPacketCode word = true)
      (step : navigator.codeAfter word = (none, after)) :
      WalksFrom limit navigator word 1 (none, after)
  | passes {navigator behind : Navigator} {word next turns : Nat}
      {outcome : Option PacketStart × Navigator}
      (near : ¬ limit.any (· < navigator.position) = true)
      (isOther : ¬ isPacketCode word = true)
      (step : navigator.codeAfter word = (some next, behind))
      (goesOn : WalksFrom limit behind next turns outcome) :
      WalksFrom limit navigator word (turns + 1) outcome

/-- The walk to the next packet takes this many turns, none if there is no word
to start from. -/
inductive Walks (limit : Option Nat) (navigator : Navigator) : (turns : Nat) →
    (outcome : Option PacketStart × Navigator) → Prop
  | ends {after : Navigator}
      (missing : navigator.codeAt navigator.position = (none, after)) :
      Walks limit navigator 0 (none, after)
  | starts {behind : Navigator} {word turns : Nat} {outcome : Option PacketStart × Navigator}
      (code : navigator.codeAt navigator.position = (some word, behind))
      (goesOn : WalksFrom limit behind word turns outcome) :
      Walks limit navigator turns outcome

/-- The walk to the next packet of stream `id` takes this many turns, those of
the walks to all packets on the way. -/
inductive WalksTo (id : Nat) (limit : Option Nat) : (navigator : Navigator) → (turns : Nat) →
    (outcome : Option PacketStart × Navigator) → Prop
  | ends {navigator after : Navigator} {turns : Nat}
      (walks : Walks limit navigator turns (none, after)) :
      WalksTo id limit navigator turns (none, after)
  | finds {navigator after : Navigator} {turns : Nat} {start : PacketStart}
      (walks : Walks limit navigator turns (some start, after))
      (isWanted : start.id = id) :
      WalksTo id limit navigator turns (some start, after)
  | cutOff {navigator after atEnd : Navigator} {turns : Nat} {start : PacketStart}
      (walks : Walks limit navigator turns (some start, after))
      (isOther : start.id ≠ id)
      (stopped : after.skipPacket = (false, atEnd)) :
      WalksTo id limit navigator turns (none, atEnd)
  | skips {navigator after behind : Navigator} {turns more : Nat} {start : PacketStart}
      {outcome : Option PacketStart × Navigator}
      (walks : Walks limit navigator turns (some start, after))
      (isOther : start.id ≠ id)
      (skipped : after.skipPacket = (true, behind))
      (goesOn : WalksTo id limit behind more outcome) :
      WalksTo id limit navigator (turns + more) outcome

theorem exists_walksFrom (navigator : Navigator) (word : Nat) (limit : Option Nat) :
    ∃ turns ≤ navigator.source.size - navigator.position + 1,
      WalksFrom limit navigator word turns (navigator.packetFrom word limit) := by
  fun_induction packetFrom navigator word limit with
  | case1 navigator word far => exact ⟨1, Nat.le_add_left 1 _, .isPast far⟩
  | case2 navigator word near isCode => exact ⟨1, Nat.le_add_left 1 _, .isPacket near isCode⟩
  | case3 navigator word near isOther next behind step inductionHypothesis =>
      obtain ⟨turns, few, goesOn⟩ := inductionHypothesis
      have progress := position_lt_of_codeAfter step
      exact ⟨turns + 1, by omega, .passes near isOther step goesOn⟩
  | case4 navigator word near isOther after step =>
      exact ⟨1, Nat.le_add_left 1 _, .ends near isOther step⟩

/-- Each turn of a walk that finds a packet moves the position on. -/
theorem WalksFrom.le_position
    {turns : Nat}
    {start : PacketStart}
    (walks : WalksFrom limit navigator word turns (some start, after)) :
    turns + navigator.position ≤ after.position + 1 := by
  generalize outcome : (some start, after) = found at walks
  induction walks with
  | isPast => cases outcome
  | isPacket =>
      cases outcome
      exact Nat.le_of_eq (Nat.add_comm 1 _)
  | ends => cases outcome
  | passes near isOther step goesOn inductionHypothesis =>
      have further := inductionHypothesis outcome
      have progress := position_lt_of_codeAfter step
      omega

theorem Walks.le_position
    {turns : Nat}
    {start : PacketStart}
    (walks : Walks limit navigator turns (some start, after)) :
    turns + navigator.position ≤ after.position := by
  cases walks with
  | starts code goesOn =>
      have landed := (position_of_codeAt code).2.1
      have moved := goesOn.le_position
      omega

/-- A walk to the next packet takes no more turns than there are bytes ahead. -/
theorem exists_walks
    {outcome : Option PacketStart × Navigator}
    (found : navigator.nextPacket limit = outcome) :
    ∃ turns ≤ navigator.source.size - navigator.position,
      Walks limit navigator turns outcome := by
  rw [← found]
  unfold nextPacket
  split
  next word behind code =>
    obtain ⟨turns, few, goesOn⟩ := exists_walksFrom behind word limit
    obtain ⟨sameSize, landed, inside⟩ := position_of_codeAt code
    exact ⟨turns, by omega, .starts code goesOn⟩
  next after missing => exact ⟨0, Nat.zero_le _, .ends missing⟩

/-- Nor does a walk to the next packet of a stream. -/
theorem exists_walksTo (navigator : Navigator) (id : Nat) (limit : Option Nat) :
    ∃ turns ≤ navigator.source.size - navigator.position,
      WalksTo id limit navigator turns (navigator.nextPacketOf id limit) := by
  fun_induction nextPacketOf navigator id limit with
  | case1 navigator after found =>
      obtain ⟨turns, few, walks⟩ := exists_walks found
      exact ⟨turns, few, .ends walks⟩
  | case2 navigator start after found isWanted =>
      obtain ⟨turns, few, walks⟩ := exists_walks found
      exact ⟨turns, few, .finds walks isWanted⟩
  | case3 navigator start after found isOther behind skipped inductionHypothesis =>
      obtain ⟨turns, few, walks⟩ := exists_walks found
      obtain ⟨more, fewMore, goesOn⟩ := inductionHypothesis
      have sameSize := (position_lt_of_nextPacket found).1
      have moved := walks.le_position
      have onward := position_of_skipPacket skipped
      -- a length field can lead past the end, from where no turn is left to take
      exact ⟨turns + more, by omega, .skips walks isOther skipped goesOn⟩
  | case4 navigator start after found isOther atEnd stopped =>
      obtain ⟨turns, few, walks⟩ := exists_walks found
      exact ⟨turns, few, .cutOff walks isOther stopped⟩

/-! ## What is found -/

/-- A packet that is found stands within the data behind the position, up to the
limit, and the walk stops behind its start code. -/
structure Finds (navigator : Navigator) (limit : Option Nat) (start : PacketStart)
    (after : Navigator) : Prop where
  content : after.source.content = navigator.source.content
  ahead : navigator.position ≤ start.offset
  withinLimit : ∀ bound ∈ limit, start.offset + 4 ≤ bound
  code : navigator.source.bytesAt start.offset 4 = startCode start.id
  isByte : start.id < 256
  isPacketId : start.id < 0xB9 ∨ 0xBC < start.id
  position : after.position = start.offset + 4

theorem StandsBehind.bytesAt_offset
    {start : PacketStart}
    (stands : navigator.StandsBehind start) :
    navigator.source.bytesAt start.offset 4 = startCode start.id := by
  have isByte : start.id < 2 ^ 8 := stands.isByte
  have spelled := toNumber_startCode start.id
  rw [Nat.mod_eq_of_lt isByte] at spelled
  rw [Source.bytesAt_of_numberAt? stands.code]
  exact (Bytes.eq_ofNumber rfl spelled).symm

theorem withinLimit_of_packetFrom
    {start : PacketStart}
    (found : navigator.packetFrom word limit = (some start, after)) :
    (∀ bound ∈ limit, after.position ≤ bound) ∧ (start.id < 0xB9 ∨ 0xBC < start.id) := by
  fun_induction packetFrom navigator word limit with
  | case1 => cases found
  | case2 navigator word near isCode =>
      cases found
      constructor
      · intro bound isLimit
        rw [Option.mem_def.1 isLimit] at near
        simpa using near
      · obtain ⟨isStart, outside⟩ := Bool.and_eq_true_iff.1 isCode
        have high : word / 256 = 1 := eq_of_beq isStart
        show word % 256 < 0xB9 ∨ 0xBC < word % 256
        rcases Bool.or_eq_true_iff.1 outside with below | above
        · have small : word < 0x1B9 := of_decide_eq_true below
          omega
        · have great : 0x1BC < word := of_decide_eq_true above
          omega
  | case3 navigator word near isOther next behind step inductionHypothesis =>
      exact inductionHypothesis found
  | case4 => cases found

theorem finds_of_nextPacket
    {start : PacketStart}
    (found : navigator.nextPacket limit = (some start, after)) :
    navigator.Finds limit start after := by
  obtain ⟨content, stands, ahead⟩ := meets_of_nextPacket found
  have told : (∀ bound ∈ limit, after.position ≤ bound) ∧ (start.id < 0xB9 ∨ 0xBC < start.id) := by
    unfold nextPacket at found
    split at found
    next => exact withinLimit_of_packetFrom found
    next => cases found
  constructor
  case content => exact content
  case ahead => exact ahead
  case withinLimit =>
    rw [← stands.position]
    exact told.1
  case code =>
    rw [← Source.bytesAt_congr content]
    exact stands.bytesAt_offset
  case isByte => exact stands.isByte
  case isPacketId => exact told.2
  case position => exact stands.position

theorem Finds.of_behind
    {behind : Navigator}
    {start : PacketStart}
    (finds : behind.Finds limit start after)
    (same : behind.source.content = navigator.source.content)
    (onward : navigator.position ≤ behind.position) :
    navigator.Finds limit start after := by
  constructor
  case content => exact finds.content.trans same
  case ahead => exact onward.trans finds.ahead
  case withinLimit => exact finds.withinLimit
  case code =>
    rw [← Source.bytesAt_congr same]
    exact finds.code
  case isByte => exact finds.isByte
  case isPacketId => exact finds.isPacketId
  case position => exact finds.position

theorem finds_of_nextPacketOf
    {id : Nat}
    {start : PacketStart}
    (found : navigator.nextPacketOf id limit = (some start, after)) :
    navigator.Finds limit start after ∧ start.id = id := by
  fun_induction nextPacketOf navigator id limit with
  | case1 => cases found
  | case2 navigator wanted middle next isWanted =>
      cases found
      exact ⟨finds_of_nextPacket next, isWanted⟩
  | case3 navigator other middle next isOther behind skipped inductionHypothesis =>
      obtain ⟨finds, isWanted⟩ := inductionHypothesis found
      have passed := finds_of_nextPacket next
      have onward := position_of_skipPacket skipped
      refine ⟨finds.of_behind ((content_of_skipPacket skipped).trans passed.content) ?_, isWanted⟩
      have ahead := passed.ahead
      have stops := passed.position
      omega
  | case4 => cases found

/-- **A walk finds back, ends, and finds packets.** From bytes that are astray it
goes on as from the first start code behind them, with one more resync, and ends
if there is none. Whatever the source, the position and the limit, it takes no
more turns than there are bytes ahead, and what it finds is a packet. -/
theorem findsBack_ends_finds (navigator : Navigator) :
    (∀ word, navigator.source.numberAt? navigator.position 4 = some word → IsAstray word →
        (∀ first, IsLeast (startCodesBehind navigator.source navigator.position) first →
            navigator.nextPacket none
              = Prod.map id resynced ((navigator.movedTo first).nextPacket none))
          ∧ (startCodesBehind navigator.source navigator.position = ∅ →
              navigator.nextPacket none = (none, navigator.movedToEnd)))
      ∧ (∀ limit,
          (∃ turns ≤ navigator.source.size - navigator.position,
              Walks limit navigator turns (navigator.nextPacket limit))
            ∧ ∀ start after, navigator.nextPacket limit = (some start, after) →
                navigator.Finds limit start after)
      ∧ ∀ id limit,
          (∃ turns ≤ navigator.source.size - navigator.position,
              WalksTo id limit navigator turns (navigator.nextPacketOf id limit))
            ∧ ∀ start after, navigator.nextPacketOf id limit = (some start, after) →
                navigator.Finds limit start after ∧ start.id = id := by
  refine ⟨?_, ?_, ?_⟩
  · intro word stands astray
    exact ⟨fun first isFirst => nextPacket_of_isLeast stands astray isFirst,
      nextPacket_of_isEmpty stands astray⟩
  · intro limit
    exact ⟨exists_walks rfl, fun start after found => finds_of_nextPacket found⟩
  · intro id limit
    exact ⟨exists_walksTo navigator id limit, fun start after found => finds_of_nextPacketOf found⟩

/-- A start code that ends with the data, behind a zero. -/
def lateCode : Navigator := ofSource (Source.ofBytes [0, 0, 0, 1, 0xE0])

theorem findsBack_ends_finds_lateCode :
    lateCode.source.numberAt? 0 4 = some 1
      ∧ IsLeast (startCodesBehind lateCode.source 0) 1
      ∧ ∃ after, lateCode.nextPacket none = (some ⟨0xE0, 1⟩, after)
        ∧ after.resyncs = 1
        ∧ lateCode.Finds none ⟨0xE0, 1⟩ after
        ∧ ∃ turns ≤ 5, Walks none lateCode turns (some ⟨0xE0, 1⟩, after) := by
  obtain ⟨findsBack, scans, -⟩ := findsBack_ends_finds lateCode
  have stands : lateCode.source.numberAt? 0 4 = some 1 := by decide
  have isFirst : IsLeast (startCodesBehind lateCode.source 0) 1 :=
    isLeast_startCodesBehind_succ (by decide)
  have goesOn := (findsBack 1 stands (Or.inr rfl)).1 1 isFirst
  have code : (lateCode.movedTo 1).source.numberAt? (lateCode.movedTo 1).position 4
      = some 0x1E0 := by decide
  rw [nextPacket_of_isPacketCode code rfl] at goesOn
  obtain ⟨⟨turns, few, walks⟩, found⟩ := scans none
  rw [goesOn] at walks
  exact ⟨stands, isFirst, _, goesOn, rfl, found _ _ goesOn, turns, few, walks⟩

end Navigator

end MediaSplit.ProgramStream

import MediaSplit.Proofs.Sink.Delivery

/-!
Contract: whom the flush of a table reaches.

Owns:
- `SinkTable.Refuses`, a track whose journal answers its flush with a fault;
- `SinkTable.Call`, one call of a table's user, and `SinkTable.afterAll`, a
  table behind any calls;
- that the first flush of a table asks each journal once, up to the first that
  refuses, that it fails exactly if any journal refuses, and that no flush after
  it asks anyone, whatever comes between.

Does **not** own: when a reader flushes its table.
-/

set_option autoImplicit false

namespace MediaSplit.SinkTable

variable {table : SinkTable Journal}

/-- Whether there is a journal on the track and it refuses to be flushed. -/
def Refuses (table : SinkTable Journal) (track : Nat) : Prop :=
  ∃ journal fault, table.sink? track = some journal
    ∧ journal.policy (journal.requests ++ [.flush]) = some fault

theorem refusesFlush_journal (journal : Journal) :
    refusesFlush (some journal) = (journal.policy (journal.requests ++ [.flush])).isSome := by
  cases answer : journal.policy (journal.requests ++ [.flush]) <;>
    simp [refusesFlush, PacketSink.flush, Journal.note, answer, Except.isOk, Except.toBool]

theorem refuses_iff {track : Nat} :
    table.Refuses track ↔ ∃ slot, table.slots[track]? = some slot ∧ refusesFlush slot = true := by
  constructor
  · rintro ⟨journal, fault, present, refused⟩
    refine ⟨some journal, Option.join_eq_some_iff.1 present, ?_⟩
    rw [refusesFlush_journal, refused]
    rfl
  · rintro ⟨slot, present, refused⟩
    cases slot with
    | none => cases refused
    | some journal =>
        rw [refusesFlush_journal] at refused
        obtain ⟨fault, answer⟩ := Option.isSome_iff_exists.1 refused
        exact ⟨journal, fault, congrArg Option.join present, answer⟩

theorem any_slots_refusesFlush_iff :
    table.slots.any refusesFlush = true ↔ ∃ track, table.Refuses track := by
  rw [List.any_eq_true]
  constructor
  · rintro ⟨slot, member, refused⟩
    obtain ⟨track, present⟩ := List.mem_iff_getElem?.1 member
    exact ⟨track, refuses_iff.2 ⟨slot, present, refused⟩⟩
  · rintro ⟨track, refuses⟩
    obtain ⟨slot, present, refused⟩ := refuses_iff.1 refuses
    exact ⟨slot, List.mem_iff_getElem?.2 ⟨track, present⟩, refused⟩

theorem any_take_refusesFlush_iff {track : Nat} :
    (table.slots.take track).any refusesFlush = true
      ↔ ∃ earlier < track, table.Refuses earlier := by
  rw [List.any_eq_true]
  constructor
  · rintro ⟨slot, member, refused⟩
    obtain ⟨earlier, present⟩ := List.mem_iff_getElem?.1 member
    rw [List.getElem?_take] at present
    split at present
    next before => exact ⟨earlier, before, refuses_iff.2 ⟨slot, present, refused⟩⟩
    next => cases present
  · rintro ⟨earlier, before, refuses⟩
    obtain ⟨slot, present, refused⟩ := refuses_iff.1 refuses
    refine ⟨slot, List.mem_iff_getElem?.2 ⟨earlier, ?_⟩, refused⟩
    rw [List.getElem?_take_of_lt before, present]

/-! ## Calls -/

/-- One call of a table's user. -/
inductive Call where
  | attach (track : Nat) (journal : Journal)
  | deliver (packet : Packet)
  | flush

/-- The table behind a call. -/
def Call.after (table : SinkTable Journal) : Call → SinkTable Journal
  | attach track journal => (table.attach track journal).2
  | deliver packet => (table.deliver packet).2
  | flush => table.flushAll.2

/-- The table behind some calls. -/
def afterAll (table : SinkTable Journal) (calls : List Call) : SinkTable Journal :=
  calls.foldl Call.after table

theorem isFlushed_flushAll (table : SinkTable Journal) : table.flushAll.2.isFlushed = true := by
  unfold flushAll
  split
  next flushed => exact flushed
  next => rfl

/-- No call takes back that a table has been flushed. -/
theorem isFlushed_after (isFlushed : table.isFlushed = true) (call : Call) :
    (Call.after table call).isFlushed = true := by
  cases call with
  | attach track journal =>
      unfold Call.after attach
      dsimp only
      split
      · exact isFlushed
      · exact isFlushed
  | deliver packet => exact isFlushed
  | flush => exact isFlushed_flushAll table

theorem isFlushed_afterAll (isFlushed : table.isFlushed = true) (calls : List Call) :
    (table.afterAll calls).isFlushed = true := by
  induction calls generalizing table with
  | nil => exact isFlushed
  | cons call rest inductionHypothesis => exact inductionHypothesis (isFlushed_after isFlushed call)

theorem flushAll_of_isFlushed (isFlushed : table.isFlushed = true) :
    table.flushAll = (.ok (), table) := by
  unfold flushAll
  rw [if_pos isFlushed]

/-- **The first flush of a table** asks each journal once, in the order of the
tracks, up to the first that refuses; it fails exactly if any journal refuses; and
whatever is asked of the table afterwards, no other flush asks anyone. -/
theorem flushAll_asksUpToRefusal (unflushed : table.isFlushed = false) :
    (∀ track journal, table.sink? track = some journal →
        ∃ after, table.flushAll.2.sink? track = some after
          ∧ ((¬ ∃ earlier < track, table.Refuses earlier) →
              after.requests = journal.requests ++ [.flush])
          ∧ ((∃ earlier < track, table.Refuses earlier) → after = journal))
      ∧ ((∃ fault, table.flushAll.1 = .error fault) ↔ ∃ track, table.Refuses track)
      ∧ ∀ calls, (table.flushAll.2.afterAll calls).flushAll
          = (.ok (), table.flushAll.2.afterAll calls) := by
  refine ⟨?_, ?_, ?_⟩
  · intro track journal present
    have reached := sink?_flushAll_of_unflushed unflushed track
    rw [present] at reached
    by_cases refused : ∃ earlier < track, table.Refuses earlier
    · rw [if_pos (any_take_refusesFlush_iff.2 refused)] at reached
      exact ⟨journal, reached, fun nonePrecedes => absurd refused nonePrecedes, fun _ => rfl⟩
    · rw [if_neg fun any => refused (any_take_refusesFlush_iff.1 any)] at reached
      exact ⟨_, reached, fun _ => Journal.requests_flush journal,
        fun precedes => absurd precedes refused⟩
  · rw [← any_slots_refusesFlush_iff, any_refusesFlush_of_unflushed unflushed]
    cases table.flushAll.1 with
    | error fault => exact iff_of_true ⟨fault, rfl⟩ rfl
    | ok done => simp [Except.isOk, Except.toBool]
  · intro calls
    exact flushAll_of_isFlushed (isFlushed_afterAll (isFlushed_flushAll table) calls)

/-- Three journals, the second of which refuses to be flushed. -/
def refusingTable : SinkTable Journal :=
  { slots := [
      some .accepting,
      none,
      some (.ofPolicy fun requests =>
        if .flush ∈ requests then some (.configuration "refused") else none),
      some .accepting]
    isFlushed := false }

theorem flushAll_refusingTable :
    refusingTable.isFlushed = false
      ∧ (∃ after, refusingTable.flushAll.2.sink? 0 = some after ∧ after.requests = [.flush])
      ∧ (∃ after, refusingTable.flushAll.2.sink? 2 = some after ∧ after.requests = [.flush])
      ∧ refusingTable.flushAll.2.sink? 3 = some .accepting
      ∧ (∃ fault, refusingTable.flushAll.1 = .error fault)
      ∧ (refusingTable.flushAll.2.afterAll [.attach 1 .accepting, .flush]).flushAll
          = (.ok (), refusingTable.flushAll.2.afterAll [.attach 1 .accepting, .flush]) := by
  have unflushed : refusingTable.isFlushed = false := rfl
  obtain ⟨asked, fails, never⟩ := flushAll_asksUpToRefusal unflushed
  have refuses : refusingTable.Refuses 2 := ⟨_, .configuration "refused", rfl, rfl⟩
  have nonePrecedes : ¬ ∃ earlier < 2, refusingTable.Refuses earlier := by
    rw [← any_take_refusesFlush_iff]
    decide
  have isFirst : ¬ ∃ earlier < 0, refusingTable.Refuses earlier := by
    rw [← any_take_refusesFlush_iff]
    decide
  obtain ⟨first, reachesFirst, firstAsked, -⟩ := asked 0 _ rfl
  obtain ⟨second, reachesSecond, secondAsked, -⟩ := asked 2 _ rfl
  obtain ⟨third, reachesThird, -, thirdKept⟩ := asked 3 _ rfl
  refine ⟨unflushed, ⟨first, reachesFirst, firstAsked isFirst⟩,
    ⟨second, reachesSecond, secondAsked nonePrecedes⟩, ?_,
    fails.2 ⟨2, refuses⟩, never _⟩
  rw [reachesThird, thirdKept ⟨2, by decide, refuses⟩]

/-- Not every journal is flushed by the first flush of its table. -/
theorem not_flushesEach_refusingTable :
    ¬ ∀ table : SinkTable Journal, table.isFlushed = false →
        ∀ track journal, table.sink? track = some journal →
          ∃ after, table.flushAll.2.sink? track = some after
            ∧ after.flushCount = journal.flushCount + 1 := by
  intro flushesEach
  obtain ⟨after, reached, count⟩ := flushesEach refusingTable rfl 3 .accepting rfl
  obtain rfl : Journal.accepting = after := Option.some.inj reached
  exact absurd count (by decide)

end MediaSplit.SinkTable

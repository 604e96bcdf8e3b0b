import MediaSplit.Sink.Journal
import MediaSplit.Sink.Table

/-!
Contract: what reaches the sinks of a table.

Owns:
- which sinks a table has, before and after packets are delivered and sinks
  are flushed;
- `SinkTable.refusesFlush`, by which a flush reaches some slots and no others;
- `SinkTable.accepted`, the packets that the journal of a track has accepted,
  and `SinkTable.Gains`, how deliveries and the flush extend it;
- `SinkTable.acceptedAlong`, the packets of all tracks in the order in which
  the states of a table show them;
- `SinkTable.IsAccepting`, a table of journals none of which refuses anything,
  and `SinkTable.TakesPackets`, one of journals that may refuse the flush;
- `SinkTable.attachAll`, new journals on some tracks.

Does **not** own: which packets a reader delivers, and when.

A delivery touches one slot and the flush touches all of them, so every fact
here is first a fact about one slot.
-/

set_option autoImplicit false

namespace MediaSplit

/-! ## Slots of any sinks -/

namespace SinkTable

section AnySink

variable {σ : Type}

theorem lt_of_isAttached {table : SinkTable σ} {track : Nat}
    (isAttached : table.isAttached track = true) :
    track < table.slots.length := by
  apply Nat.lt_of_not_le
  intro outside
  unfold SinkTable.isAttached sink? at isAttached
  rw [List.getElem?_eq_none outside] at isAttached
  cases isAttached

@[simp] theorem isAttached_ofTracks (tracks track : Nat) :
    (ofTracks tracks : SinkTable σ).isAttached track = false := by
  unfold SinkTable.isAttached
  rw [sink?_ofTracks]
  rfl

theorem length_slots_attach (table : SinkTable σ) (track : Nat) (sink : σ) :
    (table.attach track sink).2.slots.length = table.slots.length := by
  unfold attach
  split
  · exact List.length_set
  · rfl

variable [PacketSink σ]

/-- The table answers what the sink of the track answers, and nothing is
refused where there is no sink. -/
theorem fst_deliver (table : SinkTable σ) (packet : Packet) :
    (table.deliver packet).1
      = ((table.sink? packet.track).map fun sink => (PacketSink.process sink packet).1).getD
          (.ok ()) := by
  have slotwise : ∀ (track : Nat) (slots : List (Option σ)),
      (deliverTo packet track slots).1
        = ((slots[track]?).join.map fun sink => (PacketSink.process sink packet).1).getD
            (.ok ()) := by
    intro track slots
    fun_induction deliverTo packet track slots with
    | case1 => rfl
    | case2 => rfl
    | case3 sink rest reply after processed => simp [processed]
    | case4 track slot rest reply after delivered inductionHypothesis =>
        rw [delivered] at inductionHypothesis
        simpa using inductionHypothesis
  exact slotwise packet.track table.slots

/-- Whether there is a sink in the slot and it refuses to be flushed. -/
def refusesFlush (slot : Option σ) : Bool :=
  slot.any fun sink => !(PacketSink.flush sink).1.isOk

/-- A flush reaches each slot that has no refusal before it, and no other. -/
theorem getElem?_flushSlots (slots : List (Option σ)) (track : Nat) :
    (flushSlots slots).2[track]?
      = if (slots.take track).any refusesFlush then slots[track]?
        else slots[track]?.map (·.map fun sink => (PacketSink.flush sink).2) := by
  fun_induction flushSlots slots generalizing track with
  | case1 => simp
  | case2 rest reply after flushed inductionHypothesis =>
      rw [flushed] at inductionHypothesis
      cases track with
      | zero => rfl
      | succ track =>
          rw [List.take_succ_cons, List.any_cons]
          exact inductionHypothesis track
  | case3 sink rest fault after refused =>
      have refuses : refusesFlush (some sink) = true := by
        simp [refusesFlush, refused, Except.isOk, Except.toBool]
      cases track with
      | zero => simp [refused]
      | succ track =>
          rw [List.take_succ_cons, List.any_cons, refuses]
          rfl
  | case4 sink rest after accepted reply behind flushed inductionHypothesis =>
      have accepts : refusesFlush (some sink) = false := by
        simp [refusesFlush, accepted, Except.isOk, Except.toBool]
      rw [flushed] at inductionHypothesis
      cases track with
      | zero => simp [accepted]
      | succ track =>
          rw [List.take_succ_cons, List.any_cons, accepts, Bool.false_or]
          exact inductionHypothesis track

/-- A flush is answered by the first sink that refuses it. -/
theorem fst_flushSlots (slots : List (Option σ)) :
    (flushSlots slots).1
      = ((slots.find? refusesFlush).join.map fun sink => (PacketSink.flush sink).1).getD
          (.ok ()) := by
  fun_induction flushSlots slots with
  | case1 => rfl
  | case2 rest reply after flushed inductionHypothesis =>
      rw [flushed] at inductionHypothesis
      exact inductionHypothesis
  | case3 sink rest fault after refused =>
      have refuses : refusesFlush (some sink) = true := by
        simp [refusesFlush, refused, Except.isOk, Except.toBool]
      rw [List.find?_cons_of_pos refuses]
      exact (congrArg Prod.fst refused).symm
  | case4 sink rest after accepted reply behind flushed inductionHypothesis =>
      have accepts : ¬ refusesFlush (some sink) = true := by
        simp [refusesFlush, accepted, Except.isOk, Except.toBool]
      rw [flushed] at inductionHypothesis
      rw [List.find?_cons_of_neg accepts]
      exact inductionHypothesis

theorem any_refusesFlush (slots : List (Option σ)) :
    slots.any refusesFlush = !(flushSlots slots).1.isOk := by
  rw [fst_flushSlots]
  cases found : slots.find? refusesFlush with
  | none => exact List.any_eq_false.2 (List.find?_eq_none.1 found)
  | some slot =>
      have refuses := List.find?_some found
      rw [List.any_eq_true.2 ⟨slot, List.mem_of_find?_eq_some found, refuses⟩]
      cases slot with
      | none => cases refuses
      | some sink => exact refuses.symm

/-- Where any sink refuses to be flushed, one is the first to do so. -/
theorem exists_first_refusal
    {slots : List (Option σ)}
    (refused : slots.any refusesFlush = true) :
    ∃ (track : Nat) (sink : σ), slots[track]? = some (some sink)
      ∧ refusesFlush (some sink) = true
      ∧ (slots.take track).any refusesFlush = false := by
  obtain ⟨slot, found⟩ :=
    Option.isSome_iff_exists.1 (List.find?_isSome.2 (List.any_eq_true.1 refused))
  obtain ⟨refuses, before, behind, rfl, earlier⟩ := List.find?_eq_some_iff_append.1 found
  cases slot with
  | none => cases refuses
  | some sink =>
      refine ⟨before.length, sink, by simp, refuses, ?_⟩
      rw [List.take_left, List.any_eq_false]
      intro other member
      simpa using earlier other member

/-- What the first flush of a table does to the sink of a track. -/
theorem sink?_flushAll_of_unflushed
    {table : SinkTable σ}
    (unflushed : table.isFlushed = false)
    (track : Nat) :
    table.flushAll.2.sink? track
      = if (table.slots.take track).any refusesFlush then table.sink? track
        else (table.sink? track).map fun sink => (PacketSink.flush sink).2 := by
  unfold flushAll sink?
  rw [unflushed, if_neg Bool.false_ne_true, getElem?_flushSlots]
  split
  · rfl
  · exact Option.join_map_eq_map_join

theorem sink?_flushAll (table : SinkTable σ) (track : Nat) :
    table.flushAll.2.sink? track = table.sink? track ∨
      table.flushAll.2.sink? track
        = (table.sink? track).map fun sink => (PacketSink.flush sink).2 := by
  cases unflushed : table.isFlushed with
  | true =>
      unfold flushAll
      rw [unflushed]
      exact Or.inl rfl
  | false =>
      rw [sink?_flushAll_of_unflushed unflushed]
      split
      · exact Or.inl rfl
      · exact Or.inr rfl

/-- The first flush of a table is refused exactly if any sink refuses it. -/
theorem any_refusesFlush_of_unflushed
    {table : SinkTable σ}
    (unflushed : table.isFlushed = false) :
    table.slots.any refusesFlush = !table.flushAll.1.isOk := by
  unfold flushAll
  rw [unflushed, if_neg Bool.false_ne_true]
  exact any_refusesFlush table.slots

end AnySink

/-! ## What journals have accepted -/

/-- The packets that the journal of a track has accepted. -/
def accepted (table : SinkTable Journal) (track : Nat) : List Packet :=
  ((table.sink? track).map Journal.accepted).getD []

/-- A packet that is not refused is added to its own track. -/
theorem accepted_deliver (table : SinkTable Journal) (packet : Packet) (track : Nat) :
    (table.deliver packet).2.accepted track
      = table.accepted track
          ++ if track = packet.track ∧ table.isAttached track = true
                ∧ (table.deliver packet).1.isOk = true then [packet] else [] := by
  unfold accepted isAttached
  rw [sink?_deliver, fst_deliver]
  by_cases same : track = packet.track
  · rw [if_pos same, ← same]
    cases table.sink? track with
    | none => simp
    | some journal =>
        simp only [Option.map_some, Option.getD_some, Option.isSome_some, true_and]
        exact Journal.accepted_process journal packet
  · rw [if_neg same, if_neg (fun both => same both.1), List.append_nil]

@[simp] theorem accepted_flushAll (table : SinkTable Journal) (track : Nat) :
    table.flushAll.2.accepted track = table.accepted track := by
  unfold accepted
  rcases sink?_flushAll table track with same | flushed
  · rw [same]
  · rw [flushed]
    cases table.sink? track with
    | none => rfl
    | some journal => exact Journal.accepted_flush journal

end SinkTable

/-! ## What journals answer -/

theorem Journal.fst_process_of_takes
    {journal : Journal}
    (takes : ∀ earlier packet, journal.policy (earlier ++ [.process packet]) = none)
    (packet : Packet) :
    (PacketSink.process journal packet).1 = .ok () := by
  simp [PacketSink.process, Journal.note, takes]

namespace SinkTable

/-- The policy of the journal of a track. -/
def policy? (table : SinkTable Journal) (track : Nat) : Option (List SinkRequest → Option Fault) :=
  (table.sink? track).map (·.policy)

theorem isAttached_eq (table : SinkTable Journal) (track : Nat) :
    table.isAttached track = (table.policy? track).isSome := by
  unfold isAttached policy?
  rw [Option.isSome_map]

/-- A delivery changes what a journal has noted, not how it answers. -/
@[simp] theorem policy?_deliver (table : SinkTable Journal) (packet : Packet) (track : Nat) :
    (table.deliver packet).2.policy? track = table.policy? track := by
  unfold policy?
  rw [sink?_deliver]
  split
  · rw [Option.map_map]
    rfl
  · rfl

@[simp] theorem policy?_flushAll (table : SinkTable Journal) (track : Nat) :
    table.flushAll.2.policy? track = table.policy? track := by
  unfold policy?
  rcases sink?_flushAll table track with same | flushed
  · rw [same]
  · rw [flushed, Option.map_map]
    rfl

end SinkTable

/-! ## Tables that gain packets -/

namespace SinkTable

/-- The journals of `after` answer as those of `before`, and they have
accepted the packets of their tracks among `packets`, in this order. -/
structure Gains (before after : SinkTable Journal) (packets : List Packet) : Prop where
  policies : ∀ track, after.policy? track = before.policy? track
  accepted :
    ∀ track, after.accepted track
      = before.accepted track
          ++ if before.isAttached track then packets.filter (·.track = track) else []

theorem Gains.refl (table : SinkTable Journal) : table.Gains table [] :=
  ⟨fun _ => rfl, fun _ => by simp⟩

theorem Gains.attached
    {before after : SinkTable Journal}
    {packets : List Packet}
    (gains : before.Gains after packets)
    (track : Nat) :
    after.isAttached track = before.isAttached track := by
  rw [isAttached_eq, isAttached_eq, gains.policies]

theorem Gains.append
    {first second third : SinkTable Journal}
    {packets others : List Packet}
    (gains : first.Gains second packets)
    (gainsMore : second.Gains third others) :
    first.Gains third (packets ++ others) := by
  refine ⟨fun track => (gainsMore.policies track).trans (gains.policies track), fun track => ?_⟩
  rw [gainsMore.accepted, gains.accepted, gains.attached, List.append_assoc, List.filter_append]
  cases first.isAttached track with
  | true => rfl
  | false => rfl

/-- A table takes in packets of which none is refused. -/
theorem gains_of_deliverAll
    {table after : SinkTable Journal}
    {packets : List Packet}
    (delivered : table.deliverAll packets = (.ok (), after)) :
    table.Gains after packets := by
  induction packets generalizing table with
  | nil =>
      cases delivered
      exact Gains.refl _
  | cons packet rest inductionHypothesis =>
      rw [deliverAll] at delivered
      split at delivered
      next next first =>
        have gains : table.Gains next [packet] := by
          have here := accepted_deliver table packet
          have policies := policy?_deliver table packet
          rw [first] at here policies
          refine ⟨policies, fun track => (here track).trans ?_⟩
          by_cases same : track = packet.track
          · subst same
            simp [Except.isOk, Except.toBool]
          · simp [same, Ne.symm same]
        exact gains.append (inductionHypothesis delivered)
      next fault next refused => cases delivered

theorem gains_flushAll (table : SinkTable Journal) : table.Gains table.flushAll.2 [] := by
  refine ⟨policy?_flushAll table, fun track => ?_⟩
  rw [accepted_flushAll]
  simp

end SinkTable

/-! ## The order over all tracks -/

namespace SinkTable

/-- The packets that the journals of a table have accepted since an earlier
state of it, track by track. -/
def acceptedSince (before after : SinkTable Journal) : List Packet :=
  (List.range after.slots.length).flatMap fun track =>
    (after.accepted track).drop (before.accepted track).length

/-- The packets accepted from one state of a table to the next, in the order
of these states. -/
def acceptedAlong (before : SinkTable Journal) : List (SinkTable Journal) → List Packet
  | [] => []
  | after :: rest => before.acceptedSince after ++ after.acceptedAlong rest

theorem acceptedSince_of_gains_nil
    {before after : SinkTable Journal}
    (gains : before.Gains after []) :
    before.acceptedSince after = [] := by
  unfold acceptedSince
  rw [List.flatMap_eq_nil_iff]
  intro track _
  rw [gains.accepted, List.filter_nil, ite_self, List.append_nil, List.drop_length]

/-- One packet for an attached track is one packet over all tracks. -/
theorem acceptedSince_of_gains_singleton
    {before after : SinkTable Journal}
    {packet : Packet}
    (gains : before.Gains after [packet])
    (isAttached : before.isAttached packet.track = true) :
    before.acceptedSince after = [packet] := by
  have inside := lt_of_isAttached ((gains.attached packet.track).trans isAttached)
  have new : (fun track => (after.accepted track).drop (before.accepted track).length)
      = fun track => if track = packet.track then [packet] else [] := by
    funext track
    rw [gains.accepted, List.drop_left]
    by_cases same : track = packet.track
    · rw [same, if_pos isAttached]
      simp
    · simp [same, Ne.symm same]
  unfold acceptedSince
  rw [new]
  generalize after.slots.length = count at inside
  induction count with
  | zero => omega
  | succ count inductionHypothesis =>
      rw [List.range_succ, List.flatMap_append, List.flatMap_singleton]
      by_cases last : packet.track = count
      · have earlier : ((List.range count).flatMap fun track =>
            if track = packet.track then [packet] else []) = [] := by
          rw [List.flatMap_eq_nil_iff]
          intro track member
          have below := List.mem_range.1 member
          rw [if_neg (by omega)]
        rw [earlier, if_pos last.symm, List.nil_append]
      · rw [inductionHypothesis (by omega), if_neg (Ne.symm last), List.append_nil]

end SinkTable

/-! ## Journals that do not refuse -/

namespace SinkTable

variable {table : SinkTable Journal}

/-- Whether no journal of the table refuses a packet, whatever it says to the
flush. -/
def TakesPackets (table : SinkTable Journal) : Prop :=
  ∀ track policy, table.policy? track = some policy →
    ∀ earlier packet, policy (earlier ++ [.process packet]) = none

/-- Whether no journal of the table refuses anything. -/
def IsAccepting (table : SinkTable Journal) : Prop :=
  ∀ track policy, table.policy? track = some policy → ∀ requests, policy requests = none

theorem IsAccepting.takesPackets (accepting : table.IsAccepting) : table.TakesPackets := by
  intro track policy isPolicy earlier packet
  exact accepting track policy isPolicy _

theorem Gains.takesPackets
    {after : SinkTable Journal}
    {packets : List Packet}
    (gains : table.Gains after packets)
    (takes : table.TakesPackets) :
    after.TakesPackets := by
  intro track policy isPolicy
  rw [gains.policies] at isPolicy
  exact takes track policy isPolicy

theorem Gains.isAccepting
    {after : SinkTable Journal}
    {packets : List Packet}
    (gains : table.Gains after packets)
    (accepting : table.IsAccepting) :
    after.IsAccepting := by
  intro track policy isPolicy
  rw [gains.policies] at isPolicy
  exact accepting track policy isPolicy

theorem TakesPackets.fst_deliver (takes : table.TakesPackets) (packet : Packet) :
    (table.deliver packet).1 = .ok () := by
  rw [SinkTable.fst_deliver]
  cases present : table.sink? packet.track with
  | none => rfl
  | some journal =>
      have isPolicy : table.policy? packet.track = some journal.policy := by
        unfold policy?
        rw [present]
        rfl
      exact Journal.fst_process_of_takes (takes _ _ isPolicy) packet

/-- A table that refuses no packet takes in any packets. -/
theorem TakesPackets.exists_deliverAll (takes : table.TakesPackets) (packets : List Packet) :
    ∃ after, table.deliverAll packets = (.ok (), after) ∧ table.Gains after packets := by
  suffices answered : (table.deliverAll packets).1 = .ok () by
    have delivered : table.deliverAll packets = (.ok (), (table.deliverAll packets).2) :=
      Prod.ext answered rfl
    exact ⟨_, delivered, gains_of_deliverAll delivered⟩
  induction packets generalizing table with
  | nil => rfl
  | cons packet rest inductionHypothesis =>
      have answered := takes.fst_deliver packet
      have policies := policy?_deliver table packet
      rw [deliverAll]
      split
      next after delivered =>
        rw [delivered] at policies
        apply inductionHypothesis
        intro track policy isPolicy
        rw [policies] at isPolicy
        exact takes track policy isPolicy
      next fault after refused =>
        rw [refused] at answered
        cases answered

/-- A table that refuses nothing lets itself be flushed. -/
theorem IsAccepting.exists_flushAll (accepting : table.IsAccepting) :
    ∃ after, table.flushAll = (.ok (), after) ∧ table.Gains after [] := by
  have noneRefuses : table.slots.any refusesFlush = false := by
    rw [List.any_eq_false]
    intro slot member refuses
    obtain ⟨track, present⟩ := List.mem_iff_getElem?.1 member
    cases slot with
    | none => cases refuses
    | some journal =>
        have isPolicy : table.policy? track = some journal.policy := by
          unfold policy? sink?
          rw [present]
          rfl
        simp [refusesFlush, PacketSink.flush, Journal.note, Except.isOk, Except.toBool,
          accepting track journal.policy isPolicy] at refuses
  have answered : table.flushAll.1.isOk = true := by
    cases flag : table.isFlushed with
    | true =>
        unfold flushAll
        rw [flag]
        rfl
    | false =>
        rw [any_refusesFlush_of_unflushed flag] at noneRefuses
        simpa using noneRefuses
  cases reply : table.flushAll.1 with
  | error fault =>
      rw [reply] at answered
      cases answered
  | ok done => exact ⟨_, Prod.ext reply rfl, gains_flushAll table⟩

end SinkTable

/-! ## New journals -/

namespace SinkTable

/-- Attaches a new journal to each of some tracks, with a policy of its own. -/
def attachAll (table : SinkTable Journal)
    (policies : List (Nat × (List SinkRequest → Option Fault))) : SinkTable Journal :=
  policies.foldl (fun table entry => (table.attach entry.1 (.ofPolicy entry.2)).2) table

theorem isAttached_attachAll
    (table : SinkTable Journal)
    (policies : List (Nat × (List SinkRequest → Option Fault)))
    (track : Nat) :
    (table.attachAll policies).isAttached track
      = (decide (track < table.slots.length ∧ track ∈ policies.map Prod.fst)
          || table.isAttached track) := by
  unfold attachAll
  induction policies generalizing table with
  | nil => simp
  | cons first rest inductionHypothesis =>
      rw [List.foldl_cons, inductionHypothesis, length_slots_attach]
      unfold isAttached
      rw [sink?_attach]
      by_cases inside : track < table.slots.length
      · by_cases same : track = first.1
        · simp only [inside, ← same, List.map_cons, List.mem_cons]
          simp
        · simp only [inside, same, List.map_cons, List.mem_cons]
          simp
      · have other : ¬ (first.1 < table.slots.length ∧ track = first.1) := by
          intro both
          omega
        simp [inside, other]

/-- A journal was there before, or it is new. -/
theorem sink?_of_attachAll
    {table : SinkTable Journal}
    {policies : List (Nat × (List SinkRequest → Option Fault))}
    {track : Nat}
    {journal : Journal}
    (present : (table.attachAll policies).sink? track = some journal) :
    table.sink? track = some journal
      ∨ ∃ policy, (track, policy) ∈ policies ∧ journal = .ofPolicy policy := by
  unfold attachAll at present
  induction policies generalizing table with
  | nil => exact Or.inl present
  | cons first rest inductionHypothesis =>
      rw [List.foldl_cons] at present
      rcases inductionHypothesis present with before | ⟨policy, member, isNew⟩
      · rw [sink?_attach] at before
        split at before
        next here =>
          cases before
          exact Or.inr ⟨first.2, here.2 ▸ List.mem_cons_self, rfl⟩
        next => exact Or.inl before
      · exact Or.inr ⟨policy, List.mem_cons_of_mem _ member, isNew⟩

/-- Where nothing was attached before, there are new journals only. -/
theorem attachAll_ofTracks
    (count : Nat)
    (policies : List (Nat × (List SinkRequest → Option Fault)))
    (track : Nat) :
    ((ofTracks count).attachAll policies).accepted track = []
      ∧ ∀ policy, ((ofTracks count).attachAll policies).policy? track = some policy →
          (track, policy) ∈ policies := by
  unfold accepted policy?
  cases present : ((ofTracks count).attachAll policies).sink? track with
  | none => exact ⟨rfl, nofun⟩
  | some journal =>
      rcases sink?_of_attachAll present with before | ⟨policy, member, rfl⟩
      · rw [sink?_ofTracks] at before
        cases before
      · refine ⟨rfl, ?_⟩
        intro other same
        cases same
        exact member

end SinkTable

end MediaSplit

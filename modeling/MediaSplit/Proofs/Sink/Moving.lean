import Mathlib.Data.List.Forall2
import MediaSplit.Proofs.Reading
import MediaSplit.Proofs.Sink.Delivery

/-!
Contract: sinks that are asked the same in two runs, but for the places of the
packets.

Owns:
- `AnswersAlike`, two steps with one answer that leave states of a relation, and
  what it says of two runs of reading;
- `Packet.movedBy`, a packet that lies further behind in its input;
- `Journal.Moves` and `SinkTable.Moves`, records of which one says so of every
  packet, and that deliveries, flushes and new sinks keep to it.

A sink may look at the places of packets and refuse by them. So the two journals
do not have one policy: one has that of the other, put to the moved packets.
-/

set_option autoImplicit false

namespace MediaSplit

/-! ## Two steps side by side -/

/-- Two steps that answer the same and leave states of a relation. -/
structure AnswersAlike {α ρ : Type} (alike : ρ → ρ → Prop) (step other : α × ρ) : Prop where
  answer : other.1 = step.1
  after : alike step.2 other.2

namespace AnswersAlike

variable {ρ : Type} {alike : ρ → ρ → Prop}

/-- Both steps fail, or both succeed. -/
theorem error_or_ok
    {α : Type}
    {step other : Except Fault α × ρ}
    (answers : AnswersAlike alike step other) :
    (∃ fault state otherState, step = (.error fault, state) ∧ other = (.error fault, otherState)
        ∧ alike state otherState)
      ∨ ∃ value state otherState, step = (.ok value, state) ∧ other = (.ok value, otherState)
        ∧ alike state otherState := by
  obtain ⟨answer, state⟩ := step
  obtain ⟨otherAnswer, otherState⟩ := other
  obtain rfl : otherAnswer = answer := answers.answer
  cases otherAnswer with
  | error fault => exact .inl ⟨fault, state, otherState, rfl, rfl, answers.after⟩
  | ok value => exact .inr ⟨value, state, otherState, rfl, rfl, answers.after⟩

end AnswersAlike

/-- Where calls of `read` answer alike, runs of reading do so too. -/
theorem ReadRun.exists_alike
    {ρ : Type}
    {read : ρ → Step ρ}
    {alike : ρ → ρ → Prop}
    (reads : ∀ reader other, alike reader other → AnswersAlike alike (read reader) (read other))
    {reader other : ρ}
    {visited : List ρ}
    {ending : Step ρ}
    (run : ReadRun read reader visited ending)
    (related : alike reader other) :
    ∃ otherVisited otherEnding, ReadRun read other otherVisited otherEnding
      ∧ List.Forall₂ alike visited otherVisited ∧ AnswersAlike alike ending otherEnding := by
  induction run generalizing other with
  | ended last stops =>
      have ends := reads _ _ related
      rw [last] at ends
      exact ⟨[], _, .ended rfl (ends.answer ▸ stops), .nil, ends⟩
  | @more reader next visited ending step rest inductionHypothesis =>
      have goesOn := reads _ _ related
      rw [step] at goesOn
      obtain ⟨otherVisited, otherEnding, otherRest, alikeVisited, ends⟩ :=
        inductionHypothesis goesOn.after
      have otherStep : read other = (.ok .moreData, (read other).2) := Prod.ext goesOn.answer rfl
      exact ⟨_, otherEnding, .more otherStep otherRest, .cons goesOn.after alikeVisited, ends⟩

/-! ## Packets and requests -/

/-- A packet that lies `distance` bytes further behind in its input. -/
def Packet.movedBy (distance : Nat) (packet : Packet) : Packet :=
  { packet with position := packet.position.map (· + distance) }

/-- A request whose packet lies further behind. -/
def SinkRequest.movedBy (distance : Nat) : SinkRequest → SinkRequest
  | .process packet => .process (packet.movedBy distance)
  | .flush => .flush

/-! ## Records -/

namespace Journal

/-- A record that is that of another sink, but for the places of the packets. -/
structure Moves (distance : Nat) (journal moved : Journal) : Prop where
  policy : journal.policy = fun requests => moved.policy (requests.map (·.movedBy distance))
  entries : moved.entries = journal.entries.map (Prod.map (·.movedBy distance) id)

variable {distance : Nat} {journal moved : Journal}

theorem moves_ofPolicy (policy : List SinkRequest → Option Fault) :
    Moves distance (ofPolicy fun requests => policy (requests.map (·.movedBy distance)))
      (ofPolicy policy) := ⟨rfl, rfl⟩

theorem Moves.requests (moves : Moves distance journal moved) :
    moved.requests = journal.requests.map (·.movedBy distance) := by
  unfold Journal.requests
  rw [moves.entries, List.map_map, List.map_reverse, List.map_map]
  rfl

theorem Moves.accepted (moves : Moves distance journal moved) :
    moved.accepted = journal.accepted.map (·.movedBy distance) := by
  unfold Journal.accepted
  rw [moves.entries, ← List.map_reverse, List.filterMap_map, List.map_filterMap]
  congr 1
  funext ⟨request, answer⟩
  cases request <;> cases answer <;> rfl

theorem Moves.note (moves : Moves distance journal moved) (request : SinkRequest) :
    AnswersAlike (Moves distance) (journal.note request)
      (moved.note (request.movedBy distance)) := by
  have same : journal.policy (journal.requests ++ [request])
      = moved.policy (moved.requests ++ [request.movedBy distance]) := by
    rw [moves.policy, moves.requests]
    dsimp only
    rw [List.map_append]
    rfl
  unfold Journal.note
  rw [same]
  refine ⟨rfl, moves.policy, ?_⟩
  dsimp only
  rw [moves.entries]
  rfl

end Journal

/-! ## Tables -/

namespace SinkTable

/-- Slots of two tables whose journals have moved. -/
abbrev MoveSlots (distance : Nat) : List (Option Journal) → List (Option Journal) → Prop :=
  List.Forall₂ (Option.Rel (Journal.Moves distance))

/-- A table of sinks that is that of another run, but for the places of packets. -/
structure Moves (distance : Nat) (table moved : SinkTable Journal) : Prop where
  slots : MoveSlots distance table.slots moved.slots
  isFlushed : moved.isFlushed = table.isFlushed

variable {distance : Nat} {table moved : SinkTable Journal} {slots others : List (Option Journal)}

theorem moves_ofTracks (tracks : Nat) :
    Moves distance (ofTracks tracks) (ofTracks tracks) := by
  refine ⟨?_, rfl⟩
  unfold ofTracks
  induction tracks with
  | zero => exact .nil
  | succ tracks inductionHypothesis => exact .cons .none inductionHypothesis

theorem forall₂_set
    {α β : Type}
    {related : α → β → Prop}
    {items : List α}
    {others : List β}
    (alike : List.Forall₂ related items others)
    (index : Nat)
    {item : α}
    {other : β}
    (isRelated : related item other) :
    List.Forall₂ related (items.set index item) (others.set index other) := by
  induction alike generalizing index with
  | nil => exact .nil
  | cons first behind inductionHypothesis =>
      cases index with
      | zero => exact .cons isRelated behind
      | succ index => exact .cons first (inductionHypothesis index)

theorem moves_deliverTo
    (packet : Packet)
    (track : Nat)
    (moves : MoveSlots distance slots others) :
    AnswersAlike (MoveSlots distance) (deliverTo packet track slots)
      (deliverTo (packet.movedBy distance) track others) := by
  fun_induction deliverTo packet track slots generalizing others with
  | case1 track =>
      cases moves
      rw [deliverTo]
      exact ⟨rfl, .nil⟩
  | case2 rest =>
      cases moves with
      | cons slot behind =>
          cases slot
          exact ⟨rfl, .cons .none behind⟩
  | case3 sink rest reply after processed =>
      cases moves with
      | cons slot behind =>
          cases slot with
          | some journals =>
              have asked := journals.note (.process packet)
              rw [show sink.note (.process packet) = (reply, after) from processed] at asked
              exact ⟨asked.answer, .cons (.some asked.after) behind⟩
  | case4 track slot rest reply after delivered inductionHypothesis =>
      cases moves with
      | cons first behind =>
          have later := inductionHypothesis behind
          rw [delivered] at later
          rw [deliverTo]
          exact ⟨later.answer, .cons first later.after⟩

theorem moves_flushSlots (moves : MoveSlots distance slots others) :
    AnswersAlike (MoveSlots distance) (flushSlots slots) (flushSlots others) := by
  induction moves with
  | nil => exact ⟨rfl, .nil⟩
  | cons first behind inductionHypothesis =>
      cases first with
      | none => exact ⟨inductionHypothesis.answer, .cons .none inductionHypothesis.after⟩
      | @some journal moved journals =>
          have asked : AnswersAlike (Journal.Moves distance) (PacketSink.flush journal)
              (PacketSink.flush moved) := journals.note .flush
          rw [flushSlots, flushSlots]
          rcases asked.error_or_ok with ⟨fault, after, otherAfter, isStep, isOther, still⟩
            | ⟨done, after, otherAfter, isStep, isOther, still⟩
          · rw [isStep, isOther]
            exact ⟨rfl, .cons (.some still) behind⟩
          · rw [isStep, isOther]
            exact ⟨inductionHypothesis.answer, .cons (.some still) inductionHypothesis.after⟩

namespace Moves

variable (moves : Moves distance table moved)

include moves

theorem deliver (packet : Packet) :
    AnswersAlike (Moves distance) (table.deliver packet)
      (moved.deliver (packet.movedBy distance)) := by
  have delivered := moves_deliverTo packet packet.track moves.slots
  exact ⟨delivered.answer, delivered.after, moves.isFlushed⟩

theorem deliverAll (packets : List Packet) :
    AnswersAlike (Moves distance) (table.deliverAll packets)
      (moved.deliverAll (packets.map (·.movedBy distance))) := by
  induction packets generalizing table moved with
  | nil => exact ⟨rfl, moves⟩
  | cons packet rest inductionHypothesis =>
      rw [List.map_cons, SinkTable.deliverAll, SinkTable.deliverAll]
      rcases (moves.deliver packet).error_or_ok with
        ⟨fault, after, otherAfter, isStep, isOther, still⟩
          | ⟨done, after, otherAfter, isStep, isOther, still⟩
      · rw [isStep, isOther]
        exact ⟨rfl, still⟩
      · rw [isStep, isOther]
        exact inductionHypothesis still

theorem flushAll : AnswersAlike (Moves distance) table.flushAll moved.flushAll := by
  unfold SinkTable.flushAll
  rw [moves.isFlushed]
  cases table.isFlushed with
  | true => exact ⟨rfl, moves⟩
  | false =>
      have flushed := moves_flushSlots moves.slots
      exact ⟨flushed.answer, flushed.after, rfl⟩

/-- A new sink is put in the same place, or there is none in both tables. -/
theorem attach (track : Nat) (policy : List SinkRequest → Option Fault) :
    AnswersAlike (Moves distance)
      (table.attach track (.ofPolicy fun requests => policy (requests.map (·.movedBy distance))))
      (moved.attach track (.ofPolicy policy)) := by
  unfold SinkTable.attach
  rw [← moves.slots.length_eq]
  split
  · refine ⟨rfl, ?_, moves.isFlushed⟩
    exact forall₂_set moves.slots track (.some (Journal.moves_ofPolicy policy))
  · exact ⟨rfl, moves⟩

theorem accepted (track : Nat) :
    moved.accepted track = (table.accepted track).map (·.movedBy distance) := by
  obtain ⟨related, -⟩ := moves
  unfold SinkTable.accepted sink?
  generalize table.slots = slots, moved.slots = others at related
  induction related generalizing track with
  | nil => rfl
  | cons first _ inductionHypothesis =>
      cases track with
      | succ track => exact inductionHypothesis track
      | zero =>
          cases first with
          | none => rfl
          | some journals => exact journals.accepted

end Moves

end SinkTable

end MediaSplit

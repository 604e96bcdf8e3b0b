import MediaSplit.Bits.Request
import MediaSplit.Chain
import MediaSplit.Proofs.Bits.Fields

/-!
Contract: a bit cursor is a list of bits.

Owns:
- for each request, that a cursor answers it from the bits ahead alone, moves
  over as many of them as are consumed, and stays within the data;
- that no byte is looked up that is not there, at any place of any cursor;
- `readsAs_requests`: both for every sequence of requests.

Does **not** own: what is ahead of a cursor. `Bits/Ahead` says how a field of
bytes is a field of bits.
-/

set_option autoImplicit false

namespace MediaSplit.BitReader

variable {reader : BitReader}

/-! ## Fixed fields -/

theorem readBits_eq (count : Nat) (reader : BitReader) :
    readBits count reader
      = ((Bits.fieldAhead count reader.bitsAhead).1,
          reader.advance (Bits.fieldAhead count reader.bitsAhead).2) := by
  unfold readBits Bits.fieldAhead
  split
  next => rfl
  next fits =>
    split
    next enough =>
      have there := (holds_iff _ _).1 enough
      rw [if_neg (by rw [length_bitsAhead]; exact Nat.not_lt.2 there), fieldAhead_eq _ _ there]
    next short =>
      have missing : reader.bitsAhead.length < count := by
        rw [length_bitsAhead]
        exact Nat.lt_of_not_le fun enough => short ((holds_iff _ _).2 enough)
      rw [if_pos missing]
      rfl

theorem readFlag_nil (ahead : reader.bitsAhead = []) :
    readFlag reader = (.error .unexpectedEnd, reader) := by
  have field : readBits 1 reader = (.error .unexpectedEnd, reader) := by
    rw [readBits_eq, ahead]
    rfl
  show (readBits 1 >>= fun value => pure (value == 1)) reader = _
  rw [Chain.run_bind, field]

theorem readFlag_cons {bit : Bool} {rest : List Bool} (ahead : reader.bitsAhead = bit :: rest) :
    readFlag reader = (.ok bit, reader.advance 1) :=
  readFlag_of_bitsAhead ahead

/-! ## Codes -/

theorem leadingZeros_false (rest : List Bool) :
    Bits.leadingZeros (false :: rest) = Bits.leadingZeros rest + 1 := rfl

theorem bitsAhead_advance_one {bit : Bool} {rest : List Bool}
    (ahead : reader.bitsAhead = bit :: rest) :
    (reader.advance 1).bitsAhead = rest := by
  rw [bitsAhead_advance, ahead]
  rfl

/-- What a run of zero bits comes to: too many of them, no one bit behind them, or
their number. -/
theorem readZeroRun_eq (allowed : Nat) (reader : BitReader) :
    readZeroRun allowed reader
      = if allowed < Bits.leadingZeros reader.bitsAhead then
          (.error .codeTooLong, reader.advance (allowed + 1))
        else if Bits.leadingZeros reader.bitsAhead = reader.bitsAhead.length then
          (.error .unexpectedEnd, reader.advance (Bits.leadingZeros reader.bitsAhead))
        else
          (.ok (Bits.leadingZeros reader.bitsAhead),
            reader.advance (Bits.leadingZeros reader.bitsAhead + 1)) := by
  induction allowed generalizing reader with
  | zero =>
      show (readFlag >>= fun flag => if flag then pure 0 else throw .codeTooLong) reader = _
      rw [Chain.run_bind]
      match ahead : reader.bitsAhead with
      | [] =>
          rw [readFlag_nil ahead]
          rfl
      | true :: rest =>
          rw [readFlag_cons ahead]
          rfl
      | false :: rest =>
          rw [readFlag_cons ahead, leadingZeros_false, if_pos (Nat.succ_pos _)]
          rfl
  | succ allowed inductionHypothesis =>
      show (readFlag >>= fun flag =>
        if flag then pure 0 else readZeroRun allowed >>= fun zeros => pure (zeros + 1)) reader = _
      rw [Chain.run_bind]
      match ahead : reader.bitsAhead with
      | [] =>
          rw [readFlag_nil ahead]
          rfl
      | true :: rest =>
          rw [readFlag_cons ahead]
          rfl
      | false :: rest =>
          rw [readFlag_cons ahead, leadingZeros_false, List.length_cons]
          show (readZeroRun allowed >>= fun zeros => pure (zeros + 1)) (reader.advance 1) = _
          rw [Chain.run_bind, inductionHypothesis, bitsAhead_advance_one ahead]
          simp only [Nat.add_lt_add_iff_right, Nat.add_right_cancel_iff, advance_advance,
            Nat.add_comm 1]
          by_cases many : allowed < Bits.leadingZeros rest
          · rw [if_pos many, if_pos many]
          · rw [if_neg many, if_neg many]
            by_cases endless : Bits.leadingZeros rest = rest.length
            · rw [if_pos endless, if_pos endless]
            · rw [if_neg endless, if_neg endless]
              rfl

theorem readUnsignedCode_eq (reader : BitReader) :
    readUnsignedCode reader
      = ((Bits.codeAhead reader.bitsAhead).1,
          reader.advance (Bits.codeAhead reader.bitsAhead).2) := by
  show (readZeroRun maxCodeZeros >>= fun zeros =>
    readBits zeros >>= fun offset => pure (2 ^ zeros - 1 + offset)) reader = _
  rw [Chain.run_bind, readZeroRun_eq, Bits.codeAhead, maxCodeZeros]
  generalize Bits.leadingZeros reader.bitsAhead = zeros
  by_cases many : 31 < zeros
  · rw [if_pos many, if_pos many]
  rw [if_neg many, if_neg many]
  by_cases endless : zeros = reader.bitsAhead.length
  · rw [if_pos endless, if_pos endless]
  rw [if_neg endless, if_neg endless]
  show (readBits zeros >>= fun offset => pure (2 ^ zeros - 1 + offset))
    (reader.advance (zeros + 1)) = _
  have fits : ¬ 32 < zeros := fun wide => many (Nat.lt_trans (by decide) wide)
  rw [Chain.run_bind, readBits_eq, bitsAhead_advance, Bits.fieldAhead, if_neg fits]
  by_cases short : (reader.bitsAhead.drop (zeros + 1)).length < zeros
  · rw [if_pos short, if_pos short]
    rfl
  rw [if_neg short, if_neg short, advance_advance, Nat.add_right_comm, ← Nat.two_mul]
  rfl

/-! ## One request -/

theorem length_codeAhead_le (bits : List Bool) : (Bits.codeAhead bits).2 ≤ bits.length := by
  have few : Bits.leadingZeros bits ≤ bits.length := (List.takeWhile_sublist _).length_le
  rw [Bits.codeAhead, List.length_drop]
  split
  next many => exact Nat.le_trans many few
  next =>
    split
    next => exact few
    next some =>
      split
      next => exact Nat.lt_of_le_of_ne few some
      next enough =>
        show 2 * Bits.leadingZeros bits + 1 ≤ bits.length
        omega

theorem length_fieldAhead_le (count : Nat) (bits : List Bool) :
    (Bits.fieldAhead count bits).2 ≤ bits.length := by
  rw [Bits.fieldAhead]
  split
  next => exact Nat.zero_le _
  next =>
    split
    next => exact Nat.zero_le _
    next enough => exact Nat.le_of_not_lt enough

theorem Request.length_onBits_le (request : Request) (bits : List Bool) :
    (request.onBits bits).2 ≤ bits.length := by
  cases request with
  | flag =>
      cases bits with
      | nil => exact Nat.le_refl _
      | cons bit rest => exact Nat.succ_pos _
  | field count => exact length_fieldAhead_le count bits
  | peek count => exact Nat.zero_le _
  | unsignedCode => exact length_codeAhead_le bits
  | signedCode => exact length_codeAhead_le bits
  | skip count =>
      rw [onBits]
      split
      next => exact Nat.zero_le _
      next enough => exact Nat.le_of_not_lt enough
  | align => exact Nat.mod_le _ _

theorem map_eq {α β : Type} (make : α → β) (chain : Bits.Parse α) (reader : BitReader) :
    (make <$> chain) reader = ((chain reader).1.map make, (chain reader).2) := by
  show (make <$> chain).run reader = _
  rw [ExceptT.run_map]
  rfl

/-- A cursor within its data answers from the bits ahead and moves over those that
are consumed. -/
theorem Request.perform_eq
    (request : Request)
    (inside : reader.position ≤ 8 * reader.data.length) :
    request.perform reader
      = ((request.onBits reader.bitsAhead).1,
          reader.advance (request.onBits reader.bitsAhead).2) := by
  cases request with
  | flag =>
      rw [perform, map_eq]
      match ahead : reader.bitsAhead with
      | [] =>
          rw [readFlag_nil ahead]
          rfl
      | bit :: rest =>
          rw [readFlag_cons ahead]
          rfl
  | field count =>
      rw [perform, map_eq, readBits_eq]
      rfl
  | peek count =>
      rw [perform, map_eq, peekBits, readBits_eq]
      rfl
  | unsignedCode =>
      rw [perform, map_eq, readUnsignedCode_eq]
      rfl
  | signedCode =>
      show (Answer.integer <$> (signedOfCode <$> readUnsignedCode)) reader = _
      rw [map_eq, map_eq, readUnsignedCode_eq, onBits]
      cases (Bits.codeAhead reader.bitsAhead).1 <;> rfl
  | skip count =>
      rw [perform, map_eq, BitReader.skip, onBits]
      by_cases short : reader.bitsAhead.length < count
      · have missing : ¬ reader.holds count = true := by
          rw [holds_iff, ← length_bitsAhead]
          exact Nat.not_le.2 short
        rw [if_pos short, if_neg missing]
        rfl
      · have there : reader.holds count = true := by
          rw [holds_iff, ← length_bitsAhead]
          exact Nat.le_of_not_lt short
        rw [if_neg short, if_pos there]
        rfl
  | align =>
      have boundary : (reader.position + 7) / 8 * 8
          = reader.position + (8 * reader.data.length - reader.position) % 8 := by
        omega
      rw [onBits, length_bitsAhead, remainingBits, perform]
      show (_, reader.alignToByte) = _
      rw [alignToByte, boundary]
      rfl

/-! ## Look-ups -/

/-- Gathering bits that are there looks up no byte that is not. -/
theorem lookUpField_eq
    {data : Bytes}
    {position left : Nat}
    (value : Nat)
    (there : position + left ≤ 8 * data.length) :
    lookUpField data position left value
      = some (gather (data.drop (position / 8)) (position % 8) left value) := by
  induction left using Nat.strongRecOn generalizing position value with
  | ind left inductionHypothesis =>
      rw [lookUpField]
      split
      next none =>
        subst none
        cases data.drop (position / 8) <;> rfl
      next some =>
        have inside : position / 8 < data.length := by omega
        rw [List.getElem?_eq_getElem inside, List.drop_eq_getElem_cons inside, gather, if_neg some]
        dsimp only [Option.bind_eq_bind, Option.bind_some]
        generalize data[position / 8].toNat = byte
        rw [inductionHypothesis _ (by omega) _ (by omega)]
        rcases Nat.le_total (8 - position % 8) left with whole | part
        · have next : (position + (8 - position % 8)) / 8 = position / 8 + 1 := by omega
          have start : (position + (8 - position % 8)) % 8 = 0 := by omega
          rw [Nat.min_eq_left whole, next, start]
        · have nothing : ∀ (rest : Bytes) (offset value : Nat),
              gather rest offset 0 value = value := by
            intro rest offset value
            cases rest <;> rfl
          rw [Nat.min_eq_right part, Nat.sub_self, nothing, nothing]

theorem lookUpField_eq_fieldAhead {count : Nat} (enough : count ≤ reader.remainingBits) :
    lookUpField reader.data reader.position count 0 = some (reader.fieldAhead count) := by
  rw [fieldAhead]
  rcases Nat.eq_zero_or_pos count with rfl | positive
  · rw [lookUpField, if_pos rfl]
    cases reader.data.drop (reader.position / 8) <;> rfl
  · unfold remainingBits at enough
    exact lookUpField_eq 0 (by omega)

/-- A chain whose look-ups all hit goes the way of the chain without them. -/
def Hits {α : Type} (lookedUp : LookUp α) (plain : Bits.Parse α) : Prop :=
  ∀ reader, lookedUp reader = some (plain reader)

section Hits

variable {α β : Type}

theorem hits_pure (value : α) : Hits (pure value) (pure value) := fun _ => rfl

theorem hits_throw (error : Bits.Error) : Hits (α := α) (throw error) (throw error) := fun _ => rfl

theorem Hits.bind
    {lookedUp : LookUp α}
    {plain : Bits.Parse α}
    {lookedUpNext : α → LookUp β}
    {plainNext : α → Bits.Parse β}
    (first : Hits lookedUp plain)
    (second : ∀ value, Hits (lookedUpNext value) (plainNext value)) :
    Hits (lookedUp >>= lookedUpNext) (plain >>= plainNext) := by
  intro reader
  rw [Chain.run_bind]
  simp only [Bind.bind, ExceptT.bind, ExceptT.mk, StateT.bind, first reader, Option.bind_some]
  rcases plain reader with ⟨error | value, after⟩
  · rfl
  · exact second value after

theorem Hits.map
    {lookedUp : LookUp α}
    {plain : Bits.Parse α}
    (hits : Hits lookedUp plain)
    (make : α → β) :
    Hits (make <$> lookedUp) (make <$> plain) := by
  rw [← bind_pure_comp, ← bind_pure_comp]
  exact hits.bind fun value => hits_pure (make value)

theorem hits_lookUpBits (count : Nat) : Hits (lookUpBits count) (readBits count) := by
  intro reader
  unfold lookUpBits readBits
  split
  next => rfl
  next =>
    by_cases enough : count ≤ reader.remainingBits
    · rw [if_neg (Nat.not_lt.2 enough), if_pos ((holds_iff _ _).2 enough),
        lookUpField_eq_fieldAhead enough]
      rfl
    · rw [if_pos (Nat.lt_of_not_le enough), if_neg fun there => enough ((holds_iff _ _).1 there)]

theorem hits_flagBy : Hits (flagBy lookUpBits) readFlag :=
  (hits_lookUpBits 1).bind fun value => hits_pure (value == 1)

theorem hits_zeroRunBy (allowed : Nat) :
    Hits (zeroRunBy lookUpBits allowed) (readZeroRun allowed) := by
  induction allowed with
  | zero =>
      apply hits_flagBy.bind
      rintro (_ | _)
      · exact hits_throw _
      · exact hits_pure 0
  | succ allowed inductionHypothesis =>
      apply hits_flagBy.bind
      rintro (_ | _)
      · exact inductionHypothesis.bind fun zeros => hits_pure (zeros + 1)
      · exact hits_pure 0

theorem hits_unsignedCodeBy : Hits (unsignedCodeBy lookUpBits) readUnsignedCode := by
  apply (hits_zeroRunBy maxCodeZeros).bind
  intro zeros
  exact (hits_lookUpBits zeros).bind fun offset => hits_pure (2 ^ zeros - 1 + offset)

theorem Request.hits_lookUp (request : Request) : Hits request.lookUp request.perform := by
  cases request with
  | flag => exact hits_flagBy.map _
  | field count => exact (hits_lookUpBits count).map _
  | peek count =>
      intro reader
      rw [perform, map_eq]
      show (lookUpBits count reader).map _ = _
      rw [hits_lookUpBits count reader]
      rfl
  | unsignedCode => exact hits_unsignedCodeBy.map _
  | signedCode =>
      have plain : perform .signedCode
          = (Answer.integer ∘ signedOfCode) <$> readUnsignedCode := by
        rw [comp_map]
        rfl
      rw [plain]
      exact hits_unsignedCodeBy.map _
  | skip count => exact fun _ => rfl
  | align => exact fun _ => rfl

end Hits

/-! ## All requests -/

theorem lookUpAll_eq (reader : BitReader) (requests : List Request) :
    lookUpAll reader requests = some (performAll reader requests) := by
  induction requests generalizing reader with
  | nil => rfl
  | cons request rest inductionHypothesis =>
      have first : request.lookUp.run reader = some (request.perform.run reader) :=
        request.hits_lookUp reader
      rw [lookUpAll, first]
      dsimp only [Option.bind_eq_bind, Option.bind_some]
      rw [inductionHypothesis]
      rfl

/-- A place that lies within some bytes. -/
structure IsWithin (data : Bytes) (reader : BitReader) : Prop where
  data_eq : reader.data = data
  position_le : reader.position ≤ 8 * data.length

theorem IsWithin.advance {data : Bytes} (within : IsWithin data reader) {count : Nat}
    (fits : count ≤ reader.bitsAhead.length) :
    IsWithin data (reader.advance count) := by
  refine ⟨within.data_eq, ?_⟩
  have left := within.position_le
  rw [length_bitsAhead, remainingBits, within.data_eq] at fits
  show reader.position + count ≤ 8 * data.length
  omega

theorem IsWithin.bitsAhead_eq {data : Bytes} (within : IsWithin data reader) :
    reader.bitsAhead = (Bits.ofBytes data).drop reader.position := by
  rw [bitsAhead, within.data_eq]

theorem IsWithin.exists_perform
    {data : Bytes}
    (within : IsWithin data reader)
    (request : Request) :
    ∃ answer count, request.perform.run reader = (answer, reader.advance count)
      ∧ request.onBits ((Bits.ofBytes data).drop reader.position) = (answer, count)
      ∧ IsWithin data (reader.advance count) := by
  have inside := within.position_le
  rw [← within.data_eq] at inside
  have answered : request.perform.run reader = _ := request.perform_eq inside
  rw [← within.bitsAhead_eq]
  exact ⟨_, _, answered, rfl, within.advance (request.length_onBits_le _)⟩

theorem performAll_of_isWithin
    {data : Bytes}
    (within : IsWithin data reader)
    (requests : List Request) :
    (performAll reader requests).map (fun (answer, after) => (answer, after.position))
        = readings (Bits.ofBytes data) reader.position requests
      ∧ ∀ record ∈ performAll reader requests, IsWithin data record.2 := by
  induction requests generalizing reader with
  | nil => exact ⟨rfl, fun _ member => absurd member List.not_mem_nil⟩
  | cons request rest inductionHypothesis =>
      obtain ⟨answer, count, answered, onBits, stays⟩ := within.exists_perform request
      obtain ⟨sameLater, withinLater⟩ := inductionHypothesis stays
      rw [performAll, readings, answered, onBits]
      dsimp only
      rw [List.map_cons, sameLater, List.forall_mem_cons]
      exact ⟨rfl, stays, withinLater⟩

/-- How a cursor over some bytes answers requests. -/
structure ReadsAs (data : Bytes) (requests : List Request) : Prop where
  /-- No byte is looked up that is not there. -/
  hits : lookUpAll (ofBytes data) requests = some (performAll (ofBytes data) requests)
  /-- The answers are those of the list of bits, and the position is the number of
  bits consumed. -/
  answers :
    (performAll (ofBytes data) requests).map (fun (answer, after) => (answer, after.position))
      = readings (Bits.ofBytes data) 0 requests
  /-- The position and the bits behind it make up the data. -/
  places : ∀ record ∈ performAll (ofBytes data) requests,
    record.2.data = data ∧ record.2.position ≤ 8 * data.length
      ∧ record.2.position + record.2.remainingBits = 8 * data.length

/-- A cursor over bytes answers every sequence of requests as the list of their
bits does. -/
theorem readsAs_requests (data : Bytes) (requests : List Request) : ReadsAs data requests := by
  have within : IsWithin data (ofBytes data) := ⟨rfl, Nat.zero_le _⟩
  obtain ⟨answers, stays⟩ := performAll_of_isWithin within requests
  refine ⟨lookUpAll_eq _ _, answers, ?_⟩
  intro record member
  obtain ⟨same, inside⟩ := stays record member
  refine ⟨same, inside, ?_⟩
  rw [remainingBits, same]
  exact Nat.add_sub_cancel' inside

-- a code, a field that is not there whole, and what is left up to the boundary
example : readings (Bits.ofBytes [0x2C]) 0 [.unsignedCode, .field 4, .align]
    = [(.ok (.number 4), 5), (.error .unexpectedEnd, 5), (.ok .done, 8)] := rfl

end MediaSplit.BitReader

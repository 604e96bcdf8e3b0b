import MediaSplit.Chain

/-!
Contract: chains of bit reads that need no more than so many bits.

Owns:
- `Bits.StaysWithin`, a chain that ends wherever so many bits are there, with a
  value that these bits alone decide and something that holds of the value;
- one rule for each way in which such a chain is put together, each of which
  takes its share from the number of bits that are left;
- `StaysWithin.exists_answer`, the same of a reader at the start of bytes.

Does **not** own: how many bits a chain takes. Formats whose fields hang on
earlier fields take more or fewer, and only the most counts here.
-/

set_option autoImplicit false

namespace MediaSplit.Bits

variable {α β : Type}

/-- From any place that `count` bits follow, the chain ends with `ended`, and these
bits decide its value and how many of them it takes. -/
def StaysWithin (chain : Parse α) (count : Nat) (ended : α → Prop) : Prop :=
  ∀ bits : List Bool, bits.length = count →
    ∃ value used, used ≤ count ∧ ended value ∧
      ∀ (reader : BitReader) (rest : List Bool), reader.bitsAhead = bits ++ rest →
        chain.run reader = (.ok value, reader.advance used)

theorem staysWithin_pure {ended : α → Prop} {value : α} (holds : ended value) (count : Nat) :
    StaysWithin (pure value) count ended :=
  fun _ _ => ⟨value, 0, Nat.zero_le _, holds, fun _ _ _ => rfl⟩

theorem staysWithin_readBits {count : Nat} (fits : count ≤ 32) :
    StaysWithin (BitReader.readBits count) count (· < 2 ^ count) := by
  intro bits length
  subst length
  exact ⟨_, _, Nat.le_refl _, toNumber_lt bits,
    fun _ _ ahead => BitReader.readBits_of_bitsAhead ahead fits⟩

theorem staysWithin_readFlag : StaysWithin BitReader.readFlag 1 fun _ => True := by
  intro bits length
  obtain ⟨bit, rfl⟩ := List.length_eq_one_iff.1 length
  exact ⟨bit, 1, Nat.le_refl _, trivial, fun _ _ ahead => BitReader.readFlag_of_bitsAhead ahead⟩

theorem staysWithin_skip (count : Nat) :
    StaysWithin (BitReader.skip count) count fun _ => True := by
  intro bits length
  subst length
  exact ⟨(), _, Nat.le_refl _, trivial, fun _ _ ahead => BitReader.skip_of_bitsAhead ahead⟩

namespace StaysWithin

variable {chain : Parse α} {count budget : Nat} {middle : α → Prop}

/-- More bits than the chain may need lie ahead. -/
theorem exists_ends
    (stays : StaysWithin chain count middle)
    {bits : List Bool}
    (enough : count ≤ bits.length) :
    ∃ value used, used ≤ count ∧ middle value ∧
      ∀ (reader : BitReader) (rest : List Bool), reader.bitsAhead = bits ++ rest →
        chain.run reader = (.ok value, reader.advance used) := by
  have front : (bits.take count).length = count := by
    rw [List.length_take, Nat.min_eq_left enough]
  obtain ⟨value, used, within, holds, ends⟩ := stays _ front
  refine ⟨value, used, within, holds, ?_⟩
  intro reader rest ahead
  apply ends reader (bits.drop count ++ rest)
  rw [ahead, ← List.append_assoc, List.take_append_drop]

theorem mono (stays : StaysWithin chain count middle) (enough : count ≤ budget) :
    StaysWithin chain budget middle := by
  intro bits length
  subst length
  obtain ⟨value, used, within, holds, ends⟩ := stays.exists_ends enough
  exact ⟨value, used, Nat.le_trans within enough, holds, ends⟩

/-- What a first chain leaves of a number of bits is there for the next. -/
theorem bind
    {next : α → Parse β}
    {ended : β → Prop}
    (first : StaysWithin chain count middle)
    (enough : count ≤ budget)
    (second : ∀ value, middle value → StaysWithin (next value) (budget - count) ended) :
    StaysWithin (chain >>= next) budget ended := by
  intro bits length
  subst length
  obtain ⟨value, used, within, holds, ends⟩ := first.exists_ends enough
  have left : bits.length - count ≤ (bits.drop used).length := by
    rw [List.length_drop]
    exact Nat.sub_le_sub_left within _
  obtain ⟨last, usedLater, withinLater, holdsLater, endsLater⟩ :=
    (second value holds).exists_ends left
  refine ⟨last, used + usedLater, by omega, holdsLater, ?_⟩
  intro reader rest ahead
  have firstRun : chain reader = (.ok value, reader.advance used) := ends reader rest ahead
  have behind : (reader.advance used).bitsAhead = bits.drop used ++ rest := by
    rw [BitReader.bitsAhead_advance, ahead,
      List.drop_append_of_le_length (Nat.le_trans within enough)]
  have secondRun : next value (reader.advance used)
      = (.ok last, (reader.advance used).advance usedLater) :=
    endsLater _ _ behind
  show (chain >>= next) reader = _
  rw [Chain.run_bind, firstRun]
  dsimp only
  rw [secondRun, BitReader.advance_advance]

/-- A chain that stays within whole bytes gives the same answer whatever stands
behind them, and never fails. -/
theorem exists_answer
    (stays : StaysWithin chain (8 * count) middle)
    {data : Bytes}
    (enough : count ≤ data.length)
    (more : Bytes) :
    ∃ value, middle value
      ∧ (chain (BitReader.ofBytes data)).1 = .ok value
      ∧ (chain (BitReader.ofBytes (data ++ more))).1 = .ok value := by
  have bits : 8 * count ≤ (ofBytes data).length := by
    rw [length_ofBytes]
    omega
  obtain ⟨value, used, -, holds, ends⟩ := stays.exists_ends bits
  have alone := ends (BitReader.ofBytes data) [] (List.append_nil _).symm
  have together := ends (BitReader.ofBytes (data ++ more)) (ofBytes more) (ofBytes_append _ _)
  exact ⟨value, holds, congrArg Prod.fst alone, congrArg Prod.fst together⟩

end StaysWithin

end MediaSplit.Bits

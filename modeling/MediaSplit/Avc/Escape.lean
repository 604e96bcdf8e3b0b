import MediaSplit.Bytes

/-!
Contract: the escaping that keeps start codes out of AVC units.

Owns: `Avc.unescape`, which removes the escape bytes of a unit, and
`Avc.escape`, which inserts them.

Inside a unit two zero bytes are never followed by a byte below four: an
escape byte `03` is put between them. After a removed escape byte the count of
zero bytes starts again. It is a signed number of 32 bits, so it comes round to
negative numbers in a longer run of zero bytes than it can count.
-/

set_option autoImplicit false

namespace MediaSplit.Avc

/-- The byte put behind two zero bytes. -/
def escapeByte : UInt8 := 3

/-- Removes escape bytes, `zeros` zero bytes having gone before, and puts the
bytes that stay in front of `kept`, last byte first. -/
def unescapeOnto (kept : Bytes) (zeros : Int32) : Bytes → Bytes
  | [] => kept
  | byte :: rest =>
      if 2 ≤ zeros ∧ byte = escapeByte then unescapeOnto kept 0 rest
      else unescapeOnto (byte :: kept) (if byte = 0 then zeros + 1 else 0) rest

/-- The unit without its escape bytes. -/
def unescape (data : Bytes) : Bytes := (unescapeOnto [] 0 data).reverse

theorem unescapeOnto_eq (kept : Bytes) (zeros : Int32) (data : Bytes) :
    unescapeOnto kept zeros data = unescapeOnto [] zeros data ++ kept := by
  induction data generalizing kept zeros with
  | nil => rfl
  | cons byte rest ih =>
    simp only [unescapeOnto]
    split
    · exact ih kept 0
    · rw [ih (byte :: kept), ih [byte], List.append_assoc]
      rfl

/-- The bytes of a unit that stay, `zeros` zero bytes having gone before. -/
def unescapeAfter (zeros : Int32) (data : Bytes) : Bytes := (unescapeOnto [] zeros data).reverse

theorem unescapeAfter_cons (zeros : Int32) (byte : UInt8) (rest : Bytes) :
    unescapeAfter zeros (byte :: rest)
      = if 2 ≤ zeros ∧ byte = escapeByte then unescapeAfter 0 rest
        else byte :: unescapeAfter (if byte = 0 then zeros + 1 else 0) rest := by
  simp only [unescapeAfter, unescapeOnto]
  split
  · rfl
  · rw [unescapeOnto_eq]
    simp

/-- Inserts escape bytes, `zeros` zero bytes having gone before. -/
def escapeAfter (zeros : Nat) : Bytes → Bytes
  | [] => []
  | byte :: rest =>
      if zeros = 2 ∧ byte ≤ escapeByte then
        escapeByte :: byte :: escapeAfter (if byte = 0 then 1 else 0) rest
      else byte :: escapeAfter (if byte = 0 then zeros + 1 else 0) rest

/-- The unit with its escape bytes. -/
def escape (data : Bytes) : Bytes := escapeAfter 0 data

end MediaSplit.Avc

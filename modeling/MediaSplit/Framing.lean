import MediaSplit.Packet
import MediaSplit.Word

/-!
Contract: whole frames cut out of a stream that arrives in chunks.

Owns:
- `Scan`, the verdict on the bytes at hand: a frame starts here, wait for more
  bytes, or drop some;
- `FrameAssembler`, the bytes not yet cut, their offset in the stream and the
  count of bytes dropped;
- `FrameAssembler.frames`, which turns every complete frame into a packet, and
  `FrameAssembler.rest`, which hands out the tail;
- `FrameAssembler.cut` and `FrameAssembler.takeRest`, the same for a stream and
  verdicts that are known to stay far below the limit of machine words, as those
  of a reader of bytes in memory are.

Does **not** own: what a frame looks like. That verdict comes from the caller,
may keep a state of its own, and is not trusted: a frame of no bytes or one
that is longer than the bytes at hand waits, and a drop takes at least one
byte and at most all of them. So cutting ends whatever the verdicts are. The end
of a frame is computed before it is known whether the frame is at hand, so a
frame far too long is an overflow.
-/

set_option autoImplicit false

namespace MediaSplit

/-- What stands at the start of the pending bytes. -/
inductive Scan where
  /-- A frame of `length` bytes starts here. -/
  | frame (length : Nat) (duration : Option Int) (track : Nat)
  /-- Too few bytes to decide. -/
  | needMore
  /-- No frame starts within the first `count` bytes. -/
  | skip (count : Nat)
  deriving DecidableEq, Repr, Inhabited

/-- Chunks on their way to whole frames. -/
structure FrameAssembler where
  /-- Bytes that wait for a frame boundary. -/
  pending : Bytes
  /-- Offset of the first pending byte in the stream. -/
  base : Nat
  /-- Bytes dropped so far while looking for a frame. -/
  skipped : Nat
  deriving DecidableEq, Repr, Inhabited

namespace FrameAssembler

/-- An assembler for a stream that starts at `offset`. -/
def startingAt (offset : Nat) : FrameAssembler := ⟨[], offset, 0⟩

/-- Appends a chunk. -/
def push (assembler : FrameAssembler) (chunk : Bytes) : FrameAssembler :=
  { assembler with pending := assembler.pending ++ chunk }

/-- The same pending bytes at another place of the stream. -/
def movedTo (assembler : FrameAssembler) (base : Nat) : FrameAssembler :=
  { assembler with base := base }

@[simp] theorem pending_movedTo (assembler : FrameAssembler) (base : Nat) :
    (assembler.movedTo base).pending = assembler.pending := rfl

/-- The packet of the first `length` pending bytes. -/
def frameAhead
    (assembler : FrameAssembler)
    (length : Nat)
    (duration : Option Int)
    (track : Nat) : Packet :=
  { Packet.ofPayload (assembler.pending.take length) with
    duration := duration
    track := track
    position := some assembler.base }

/-- The assembler behind the first `length` pending bytes. -/
def behindFrame (assembler : FrameAssembler) (length : Nat) : FrameAssembler :=
  { assembler with
    pending := assembler.pending.drop length
    base := assembler.base + length }

/-- The assembler after `count` pending bytes, at least one, were dropped. -/
def dropping (assembler : FrameAssembler) (count : Nat) : FrameAssembler :=
  let (dropped, rest) := Bytes.dropUpTo (max count 1) assembler.pending
  ⟨rest, assembler.base + dropped, assembler.skipped + dropped⟩

/-- Whether a frame of `length` bytes can be cut now. -/
def holdsFrame (assembler : FrameAssembler) (length : Nat) : Bool :=
  length != 0 && Bytes.hasAtLeast length assembler.pending

theorem holdsFrame_iff (assembler : FrameAssembler) (length : Nat) :
    assembler.holdsFrame length = true
      ↔ 0 < length ∧ length ≤ assembler.pending.length := by
  simp [holdsFrame, Bytes.hasAtLeast_iff, Nat.pos_iff_ne_zero]

@[simp] theorem holdsFrame_movedTo (assembler : FrameAssembler) (base length : Nat) :
    (assembler.movedTo base).holdsFrame length = assembler.holdsFrame length := rfl

theorem length_pending_dropping
    (assembler : FrameAssembler)
    (count : Nat) :
    (assembler.dropping count).pending.length
      = assembler.pending.length - max count 1 := by
  simp [dropping]

section Cutting

variable {σ : Type} (scan : σ → Bytes → Scan × σ)

/-- The assembler behind a pass that has gone over `position` bytes. -/
def settled (assembler : FrameAssembler) (position : Nat) : Except Fault FrameAssembler := do
  return assembler.movedTo (← Word.sum assembler.base position)

/-- Cuts every complete frame and puts its packet behind `found`. The pass has
gone over `position` bytes, and the pending bytes are those behind them; `base`
stays where the pass began. The verdicts come from `scan`, whose state is handed
through. -/
def framesOnto
    (found : Array Packet)
    (state : σ)
    (position : Nat)
    (assembler : FrameAssembler) : Except Fault (Array Packet × σ × FrameAssembler) :=
  if assembler.pending = [] then (assembler.settled position).map (found, state, ·)
  else
    match scan state assembler.pending with
    | (.frame length duration track, state) =>
        if length = 0 then (assembler.settled position).map (found, state, ·)
        else
          match Word.sum position length with
          | .error fault => .error fault
          | .ok frameEnd =>
              if assembler.holdsFrame length = true then
                match Word.sum assembler.base position with
                | .error fault => .error fault
                | .ok start =>
                    framesOnto
                      (found.push ((assembler.movedTo start).frameAhead length duration track))
                      state
                      frameEnd
                      { assembler with pending := assembler.pending.drop length }
              else (assembler.settled position).map (found, state, ·)
    | (.needMore, state) => (assembler.settled position).map (found, state, ·)
    | (.skip count, state) =>
        let dropped := (Bytes.dropUpTo (max count 1) assembler.pending).1
        match Word.sum assembler.skipped dropped with
        | .error fault => .error fault
        | .ok skipped =>
            framesOnto found state (position + dropped)
              { assembler with
                pending := (Bytes.dropUpTo (max count 1) assembler.pending).2
                skipped := skipped }
termination_by assembler.pending.length
decreasing_by
  · have bounds := (holdsFrame_iff assembler length).1 ‹_›
    simp only [List.length_drop]
    omega
  · have nonempty := List.length_pos_iff.2 ‹¬assembler.pending = []›
    simp only [Bytes.dropUpTo_eq, List.length_drop]
    omega

/-- Cuts every complete frame out of the pending bytes. -/
def frames
    (state : σ)
    (assembler : FrameAssembler) : Except Fault (Array Packet × σ × FrameAssembler) :=
  framesOnto scan #[] state 0 assembler

/-- Cuts every complete frame and puts its packet behind `found`, whatever the
numbers are. -/
def cutOnto
    (found : Array Packet)
    (state : σ)
    (assembler : FrameAssembler) : Array Packet × σ × FrameAssembler :=
  if assembler.pending = [] then (found, state, assembler)
  else
    match scan state assembler.pending with
    | (.frame length duration track, state) =>
        if assembler.holdsFrame length = true then
          cutOnto
            (found.push (assembler.frameAhead length duration track))
            state
            (assembler.behindFrame length)
        else (found, state, assembler)
    | (.needMore, state) => (found, state, assembler)
    | (.skip count, state) => cutOnto found state (assembler.dropping count)
termination_by assembler.pending.length
decreasing_by
  · have bounds := (holdsFrame_iff assembler length).1 ‹_›
    simp only [behindFrame, List.length_drop]
    omega
  · have nonempty := List.length_pos_iff.2 ‹¬assembler.pending = []›
    rw [length_pending_dropping]
    omega

/-- Cuts every complete frame out of the pending bytes, whatever the numbers are. -/
def cut
    (state : σ)
    (assembler : FrameAssembler) : Array Packet × σ × FrameAssembler :=
  cutOnto scan #[] state assembler

end Cutting

/-- Hands out whatever is left as a last packet of `track`, whatever the numbers
are. -/
def takeRest (assembler : FrameAssembler) (track : Nat) : Option Packet × FrameAssembler :=
  if assembler.pending = [] then (none, assembler)
  else
    let length := assembler.pending.length
    (some (assembler.frameAhead length none track), assembler.behindFrame length)

/-- Hands out whatever is left as a last packet of `track`. -/
def rest (assembler : FrameAssembler) (track : Nat) :
    Except Fault (Option Packet × FrameAssembler) :=
  if assembler.pending = [] then .ok (none, assembler)
  else do
    let length := assembler.pending.length
    let base ← Word.sum assembler.base length
    return (some (assembler.frameAhead length none track),
      { assembler with pending := [], base := base })

end FrameAssembler

end MediaSplit

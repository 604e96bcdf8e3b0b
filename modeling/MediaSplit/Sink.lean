import MediaSplit.Fault
import MediaSplit.Packet

/-!
Contract: receivers of packets.

Owns: the class `PacketSink` of state types that accept packets and a final
flush, either of which they may refuse; `PacketQueue`, the sink that keeps
everything; and the sum of two types of sinks.

A sink is a value: both operations return its next state, after a refusal too.
-/

set_option autoImplicit false

namespace MediaSplit

/-- The answer of a sink and its state afterwards. -/
abbrev Reply (σ : Type) := Except Fault Unit × σ

/-- Types that receive the packets of one track. -/
class PacketSink (σ : Type) where
  /-- Accepts a packet. -/
  process : σ → Packet → Reply σ
  /-- Is told that no packet follows. -/
  flush : σ → Reply σ

/-- Sinks of two types, used side by side. -/
instance {σ τ : Type} [PacketSink σ] [PacketSink τ] : PacketSink (σ ⊕ τ) where
  process
    | .inl sink, packet => (PacketSink.process sink packet).map id .inl
    | .inr sink, packet => (PacketSink.process sink packet).map id .inr
  flush
    | .inl sink => (PacketSink.flush sink).map id .inl
    | .inr sink => (PacketSink.flush sink).map id .inr

/-- A sink that keeps every packet, oldest first. -/
structure PacketQueue where
  packets : Array Packet
  /-- Whether the producer has finished. -/
  isFlushed : Bool
  deriving DecidableEq, Repr, Inhabited

namespace PacketQueue

/-- A queue that has received nothing. -/
def empty : PacketQueue := ⟨#[], false⟩

/-- Takes the oldest packet. -/
def pop (queue : PacketQueue) : Option Packet × PacketQueue :=
  (queue.packets[0]?, { queue with packets := queue.packets.extract 1 })

/-- Takes every packet. -/
def drain (queue : PacketQueue) : Array Packet × PacketQueue :=
  (queue.packets, { queue with packets := #[] })

/-- The number of packets kept. -/
def size (queue : PacketQueue) : Nat := queue.packets.size

/-- Whether no packet is kept. -/
def isEmpty (queue : PacketQueue) : Bool := queue.packets.isEmpty

instance : PacketSink PacketQueue where
  process queue packet := (.ok (), { queue with packets := queue.packets.push packet })
  flush queue := (.ok (), { queue with isFlushed := true })

end PacketQueue

end MediaSplit

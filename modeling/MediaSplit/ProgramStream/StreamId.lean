/-!
Contract: the ids that packets of a program stream carry.

Owns: the ranges of stream ids, the start codes that are not packets, and
`StreamId.key`, under which a track is known.

A stream id is one byte. The packets of private stream 1 carry a second byte,
the sub-stream id, so their tracks are keyed from 256 on.
-/

set_option autoImplicit false

namespace MediaSplit.ProgramStream

/-- Whether a 32-bit word is a start code: two zero bytes, a one, and an id. -/
def isStartCode (word : Nat) : Bool := word / 256 == 1

/-- Ends the program. -/
def programEndCode : Nat := 0x1B9

/-- Starts a pack header. -/
def packStartCode : Nat := 0x1BA

/-- Starts a system header. -/
def systemHeaderCode : Nat := 0x1BB

/-- Starts a program stream map. -/
def streamMapCode : Nat := 0x1BC

namespace StreamId

/-- Private stream 1, whose packets name a sub-stream. -/
def privateStream1 : Nat := 0xBD

/-- Padding. -/
def padding : Nat := 0xBE

/-- Private stream 2, which carries navigation data. -/
def privateStream2 : Nat := 0xBF

/-- The id under which VC-1 video travels. -/
def extended : Nat := 0xFD

/-- MPEG audio. -/
def isAudio (id : Nat) : Bool := 0xC0 ≤ id && id ≤ 0xDF

/-- MPEG video. -/
def isVideo (id : Nat) : Bool := 0xE0 ≤ id && id ≤ 0xEF

/-- Whether packets of this id have a header with a payload behind it. -/
def isParseable (id : Nat) : Bool :=
  (0xBC ≤ id && id < 0xF0 || id == extended) && id != padding && id != privateStream2

/-- Whether packets of this id can start a track. -/
def isDemuxable (id : Nat) : Bool :=
  isAudio id || isVideo id || id == privateStream1 || id == extended

/-- The key of the track that a packet belongs to. -/
def key (id : Nat) (subId : Option Nat) : Nat :=
  match subId with
  | some sub => if id = privateStream1 then 256 + sub else id
  | none => id

end StreamId

end MediaSplit.ProgramStream

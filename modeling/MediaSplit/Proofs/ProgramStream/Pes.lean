import MediaSplit.ProgramStream.Pes.Extent

/-!
Contract: what reading the header of a packet says about the packet.

Owns: `PesContent.AgreesWith`, that the answer and the place where the reading
stops agree with the length field on where the packet ends.

Does **not** own: how far each field of a header reaches.
-/

set_option autoImplicit false

namespace MediaSplit.ProgramStream

/-- The answer for a packet of stream `id` whose length field is at the position
of `source`, and `after`, where it leaves the source, agree on the packet's end. -/
def PesContent.AgreesWith (source after : Source) (id : Nat) : PesContent → Prop
  | .payload header =>
      StreamId.isParseable id = true
        ∧ source.numberAt? source.position 2 = some header.fullLength
        ∧ 1 ≤ header.payloadLength ∧ header.payloadLength ≤ header.fullLength
        ∧ after.position + header.payloadLength = source.position + 2 + header.fullLength
  | .rejected fullLength => source.numberAt? source.position 2 = some fullLength

/-- Whatever the bytes are, the payload of an accepted header ends where its
packet ends, and a rejected packet is known by its length field. -/
theorem agreesWith_of_readPes
    {source after : Source}
    {id offset : Nat}
    {content : PesContent}
    (read : readPes id offset source = (.ok content, after)) :
    content.AgreesWith source after id := by
  have ensured := Pes.ensures_readPes source id offset
  unfold Chain.Ensures at ensured
  rw [read] at ensured
  obtain ⟨fullLength, reached, present, moved, rejected | ⟨header, accepted, accepts⟩⟩ := ensured
  · subst rejected
    exact present
  · subst accepted moved
    have whole := accepts.fullLength
    have inside := accepts.ahead
    have isEnd := accepts.payload
    have positive := accepts.positive
    dsimp only at whole isEnd
    obtain rfl : header.fullLength = fullLength := by omega
    refine ⟨accepts.isParseable, present, positive, ?_, ?_⟩
    · omega
    · rw [Source.position_movedTo]
      omega

/-- A packet of samples behind two other bytes, with a timestamp, one byte of
padding in its header, both parts of the sample info, and two bytes of payload. -/
def samplesPacket : Bytes :=
  [0xAB, 0xCD, 0x00, 0x12, 0x81, 0x80, 0x06, 0x21, 0x00, 0x01, 0x1C, 0x21, 0xFF, 0xA0, 0x01, 0x00,
    0x01, 0x00, 0x81, 0x80, 0x11, 0x22]

theorem agreesWith_samplesPacket :
    readPes 0xBD 0 ((Source.ofBytes samplesPacket).movedTo 2)
        = (.ok (.payload ⟨0xBD, some 0xA0, some 40000000, 2, 18⟩),
          (Source.ofBytes samplesPacket).movedTo 20)
      ∧ PesContent.AgreesWith ((Source.ofBytes samplesPacket).movedTo 2)
          ((Source.ofBytes samplesPacket).movedTo 20) 0xBD
          (.payload ⟨0xBD, some 0xA0, some 40000000, 2, 18⟩) := by
  have evaluated :
      (readPes 0xBD 0 ((Source.ofBytes samplesPacket).movedTo 2)).1.toOption
          = some (.payload ⟨0xBD, some 0xA0, some 40000000, 2, 18⟩)
        ∧ (readPes 0xBD 0 ((Source.ofBytes samplesPacket).movedTo 2)).2
          = (Source.ofBytes samplesPacket).movedTo 20 := by
    decide +kernel
  have read : readPes 0xBD 0 ((Source.ofBytes samplesPacket).movedTo 2)
      = (.ok (.payload ⟨0xBD, some 0xA0, some 40000000, 2, 18⟩),
        (Source.ofBytes samplesPacket).movedTo 20) := by
    obtain ⟨content, reached⟩ := evaluated
    generalize readPes 0xBD 0 ((Source.ofBytes samplesPacket).movedTo 2) = answer
      at content reached
    obtain ⟨_ | found, after⟩ := answer
    · cases content
    · cases content
      cases reached
      rfl
  exact ⟨read, agreesWith_of_readPes read⟩

end MediaSplit.ProgramStream

import MediaSplit.Proofs.ProgramStream.Deliveries
import MediaSplit.Proofs.ProgramStream.Likeness
import MediaSplit.Proofs.Reading

/-!
Contract: the packets that discovery meets.

Owns:
- `Heading`, what discovery goes by when it meets a packet, and the timestamps
  that packets tell of a stream;
- `Meeting`, what one packet can do to a registry, with the guards under which it
  does so.

Does **not** own: what comes of many packets.

A packet without a payload has only its stream id to go by. It spoils that id as
a key, which sub-streams never have.
-/

set_option autoImplicit false

namespace MediaSplit.ProgramStream

/-! ## Headings -/

/-- What discovery goes by when it meets a packet. -/
structure Heading where
  id : Nat
  /-- The header, if it has a payload behind it. -/
  header : Option PesHeader

namespace Heading

/-- The key that the packet has to do with. -/
def key (heading : Heading) : Nat := (heading.header.map PesHeader.key).getD heading.id

/-- Whether the packet has this key as its id and nothing else to go by. -/
def spoils (key : Nat) (heading : Heading) : Bool := heading.id == key && heading.header.isNone

def timestampFor (key : Nat) (heading : Heading) : Option Int :=
  (heading.header.filter (·.key = key)).bind (·.timestamp)

/-- The timestamps that packets tell of the stream of a key. -/
def timestamps (key : Nat) (headings : List Heading) : List Int :=
  headings.filterMap (timestampFor key)

/-- The packets before the first one that spoils the key. -/
def untilSpoilt (key : Nat) (headings : List Heading) : List Heading :=
  headings.takeWhile (!·.spoils key)

section Append

variable {key : Nat} {met : List Heading} {heading : Heading}

theorem timestampFor_of_ne (isOther : heading.key ≠ key) : heading.timestampFor key = none := by
  unfold timestampFor
  cases header : heading.header with
  | none => rfl
  | some found =>
      have isKey : heading.key = found.key := by
        rw [Heading.key, header]
        rfl
      rw [isKey] at isOther
      rw [Option.filter_some, if_neg (by simpa using isOther)]
      rfl

theorem timestampFor_of_spoils (spoilt : heading.spoils key = true) :
    heading.timestampFor key = none := by
  have noHeader : heading.header = none := by
    unfold spoils at spoilt
    exact Option.isNone_iff_eq_none.1 (Bool.and_eq_true_iff.1 spoilt).2
  rw [timestampFor, noHeader]
  rfl

theorem spoils_of_noHeader (noHeader : heading.header = none) :
    heading.spoils heading.key = true := by
  rw [spoils, Heading.key, noHeader]
  exact Bool.and_eq_true_iff.2 ⟨beq_self_eq_true heading.id, rfl⟩

theorem key_of_spoils (spoilt : heading.spoils key = true) : heading.key = key := by
  simp only [spoils, Bool.and_eq_true, beq_iff_eq, Option.isNone_iff_eq_none] at spoilt
  rw [Heading.key, spoilt.2]
  exact spoilt.1

theorem timestamps_append_of_spoilt (spoilt : ∃ earlier ∈ met, earlier.spoils key = true) :
    timestamps key (untilSpoilt key (met ++ [heading])) = timestamps key (untilSpoilt key met) := by
  have partly : (untilSpoilt key met).length ≠ met.length := by
    intro whole
    obtain ⟨earlier, member, isSpoilt⟩ := spoilt
    have same : untilSpoilt key met = met := (List.takeWhile_prefix _).eq_of_length whole
    rw [← same] at member
    have unspoilt := List.all_eq_true.1 List.all_takeWhile earlier member
    rw [isSpoilt] at unspoilt
    cases unspoilt
  unfold untilSpoilt at partly ⊢
  rw [List.takeWhile_append, if_neg partly]

theorem untilSpoilt_append
    (unspoilt : ∀ earlier ∈ met, earlier.spoils key = false)
    (behind : List Heading) :
    untilSpoilt key (met ++ behind) = met ++ untilSpoilt key behind := by
  apply List.takeWhile_append_of_pos
  intro earlier member
  rw [unspoilt earlier member]
  rfl

/-- Where nothing spoils the key, all packets count. -/
theorem untilSpoilt_eq_self (unspoilt : ∀ earlier ∈ met, earlier.spoils key = false) :
    untilSpoilt key met = met := by
  have whole := untilSpoilt_append unspoilt []
  rw [List.append_nil] at whole
  exact whole.trans (List.append_nil met)

theorem timestamps_append_of_unspoilt
    (unspoilt : ∀ earlier ∈ met, earlier.spoils key = false) :
    timestamps key (untilSpoilt key (met ++ [heading]))
      = timestamps key (untilSpoilt key met) ++ (heading.timestampFor key).toList := by
  have own : timestamps key (untilSpoilt key [heading]) = (heading.timestampFor key).toList := by
    cases spoilt : heading.spoils key with
    | true =>
        rw [timestampFor_of_spoils spoilt]
        simp [untilSpoilt, timestamps, spoilt]
    | false =>
        cases timestamp : heading.timestampFor key <;>
          simp [untilSpoilt, timestamps, spoilt, timestamp]
  rw [untilSpoilt_append unspoilt, untilSpoilt_eq_self unspoilt, ← own]
  exact List.filterMap_append

theorem timestamps_append_of_none (nothing : heading.timestampFor key = none) :
    timestamps key (untilSpoilt key (met ++ [heading])) = timestamps key (untilSpoilt key met) := by
  by_cases spoilt : ∃ earlier ∈ met, earlier.spoils key = true
  · exact timestamps_append_of_spoilt spoilt
  · rw [timestamps_append_of_unspoilt (by simpa using spoilt), nothing]
    exact List.append_nil _

theorem timestampFor_of_header {header : PesHeader} (isHeader : heading.header = some header) :
    heading.timestampFor heading.key = header.timestamp := by
  unfold timestampFor Heading.key
  rw [isHeader, Option.filter_some, if_pos (by simp)]
  rfl

theorem not_spoils_of_header {header : PesHeader} (isHeader : heading.header = some header) :
    heading.spoils key = false := by
  rw [spoils, isHeader]
  exact Bool.and_false _

theorem exists_spoils_append_iff (unspoilt : heading.spoils key = false) :
    (∃ other ∈ met ++ [heading], other.spoils key = true)
      ↔ ∃ earlier ∈ met, earlier.spoils key = true := by
  simp [or_and_right, exists_or, unspoilt]

theorem unspoilt_of_unheard (unheard : ∀ earlier ∈ met, earlier.key ≠ key) :
    ∀ earlier ∈ met, earlier.spoils key = false := by
  intro earlier member
  apply Bool.eq_false_iff.2
  intro spoils
  exact unheard earlier member (key_of_spoils spoils)

/-- Of a key that no packet has to do with no packet tells a timestamp. -/
theorem timestamps_of_unheard (unheard : ∀ earlier ∈ met, earlier.key ≠ key) :
    timestamps key (untilSpoilt key met) = [] := by
  apply List.filterMap_eq_nil_iff.2
  intro earlier member
  exact timestampFor_of_ne (unheard earlier (List.takeWhile_prefix _ |>.subset member))

end Append

end Heading

namespace Navigator

/-- What discovery goes by when a walk comes upon a packet. -/
def heading (packet : PacketStart × Navigator) : Heading :=
  { id := packet.1.id
    header :=
      match (packet.2.readContent packet.1).1 with
      | .ok (some (.payload header)) => some header
      | _ => none }

/-- The headings of all packets that a walk comes upon. -/
def headings (limit : Option Nat) (navigator : Navigator) : List Heading :=
  (navigator.packets limit).map heading

section Heading

variable {walk : Navigator} {start : PacketStart}

theorem heading_of_payload
    {header : PesHeader}
    (read : (walk.readContent start).1 = .ok (some (.payload header))) :
    heading (start, walk) = ⟨start.id, some header⟩ := by
  unfold heading
  dsimp only
  rw [read]

theorem heading_of_nothing
    (nothing : ∀ header, (walk.readContent start).1 ≠ .ok (some (.payload header))) :
    heading (start, walk) = ⟨start.id, none⟩ := by
  unfold heading
  dsimp only
  split
  next header read => exact absurd read (nothing header)
  next => rfl

theorem key_heading (notPrivate : start.id ≠ StreamId.privateStream1) :
    (heading (start, walk)).key = start.id := by
  by_cases isPayload : ∃ header, (walk.readContent start).1 = .ok (some (.payload header))
  · obtain ⟨header, read⟩ := isPayload
    have content := walk.contentCase_readContent start
    rw [read] at content
    rw [heading_of_payload read]
    cases content with
    | payload _ streamId _ _ _ _ => exact key_of_not_private streamId notPrivate
  · rw [heading_of_nothing fun header read => isPayload ⟨header, read⟩]
    rfl

end Heading

theorem heading_congr
    {navigator other : Navigator}
    (alike : navigator.IsLike other)
    (start : PacketStart) :
    heading (start, navigator) = heading (start, other) := by
  have same : (navigator.readContent start).1 = (other.readContent start).1 := by
    unfold readContent
    rw [alike.source]
    split <;> rfl
  unfold heading
  dsimp only
  rw [same]

end Navigator

/-! ## What a packet does to a registry -/

/-- Whether a stream of this key can become a track. -/
def IsTrackKey (key : Nat) : Prop :=
  256 ≤ key ∨ StreamId.isDemuxable key = true ∧ key ≠ StreamId.privateStream1

/-- What meeting a packet can make of a registry. -/
inductive Meeting (registry : Registry) (heading : Heading) : Registry → Prop
  | passed (isNoTrack : ¬ IsTrackKey heading.key) : Meeting registry heading registry
  | spoilt (noHeader : heading.header = none) :
      Meeting registry heading (registry.refuse heading.key)
  | ignored (isRefused : registry.isRefused heading.key = true) :
      Meeting registry heading registry
  | observed {header : PesHeader} {index : Nat}
      (isHeader : heading.header = some header)
      (notRefused : registry.isRefused heading.key = false)
      (known : registry.index? heading.key = some index) :
      Meeting registry heading (registry.observe index header.timestamp)
  | refused
      (unknown : registry.index? heading.key = none) :
      Meeting registry heading (registry.refuse heading.key)
  | inserted {header : PesHeader} {finding : Finding}
      (isHeader : heading.header = some header)
      (isTrackKey : IsTrackKey heading.key)
      (notRefused : registry.isRefused heading.key = false)
      (unknown : registry.index? heading.key = none) :
      Meeting registry heading (registry.insert heading.key finding header.timestamp)

section Meeting

variable {registry after : Registry} {walk ahead : Navigator} {limit : Nat} {start : PacketStart}
  {header : PesHeader} {heading : Heading}

theorem Registry.meeting_of_identify
    {first : Bytes}
    (isHeader : heading.header = some header)
    (isKey : heading.key = header.key)
    (isTrackKey : IsTrackKey heading.key)
    (notRefused : registry.isRefused heading.key = false)
    (unknown : registry.index? heading.key = none)
    (identified : registry.identify walk limit header first = .ok (after, ahead)) :
    Meeting registry heading after ∧ walk.Keeps ahead := by
  unfold identify at identified
  rw [← isKey] at identified
  split at identified
  · cases identified
    exact ⟨.refused unknown, .of_eq rfl⟩
  next probe _ =>
    have inserts : ∀ finding,
        Meeting registry heading (registry.insert heading.key finding header.timestamp) :=
      fun finding => .inserted isHeader isTrackKey notRefused unknown
    split at identified
    · obtain ⟨⟨fed, behind⟩, isFed, decided⟩ := exists_of_bind identified
      cases isFed
      dsimp only at decided
      split at decided
      · cases decided
        exact ⟨inserts _, .of_eq rfl⟩
      · cases decided
      · cases decided
        exact ⟨.refused unknown, .of_eq rfl⟩
    · obtain ⟨⟨fed, behind⟩, isFed, decided⟩ := exists_of_bind identified
      have keeps := Probe.keeps_of_feed isFed
      dsimp only at decided
      split at decided
      · cases decided
        exact ⟨inserts _, keeps⟩
      · cases decided
      · cases decided
        exact ⟨.refused unknown, keeps⟩

theorem Registry.meeting_of_meet
    (isHeader : heading.header = some header)
    (isTrackKey : header.streamId = StreamId.privateStream1 ∧ header.subId = none
      ∨ IsTrackKey heading.key)
    (met : registry.meet walk limit header = .ok (after, ahead)) :
    Meeting registry heading after ∧ walk.Keeps ahead := by
  have isKey : heading.key = header.key := by
    rw [Heading.key, isHeader]
    rfl
  unfold meet at met
  rw [← isKey] at met
  split at met
  next isPrivate =>
    cases met
    have noTrack : ¬ IsTrackKey heading.key := by
      rw [isKey, PesHeader.key, isPrivate.1, isPrivate.2]
      unfold IsTrackKey
      decide
    exact ⟨.passed noTrack, .of_eq rfl⟩
  next notPrivate =>
  split at met
  next isRefused =>
    cases met
    exact ⟨.ignored isRefused, .of_eq rfl⟩
  next notRefused =>
  have notRefused := Bool.eq_false_iff.2 notRefused
  split at met
  next index known =>
    cases met
    exact ⟨.observed isHeader notRefused known, .of_eq rfl⟩
  next unknown =>
  split at met
  · cases met
  next taken =>
    cases met
    exact ⟨.refused unknown, Navigator.keeps_of_takePayload taken⟩
  next first behind taken =>
    have meeting := meeting_of_identify isHeader isKey (isTrackKey.resolve_left notPrivate)
      notRefused unknown met
    exact ⟨meeting.1, (Navigator.keeps_of_takePayload taken).trans meeting.2⟩

theorem isTrackKey_of_isDemuxable
    (isDemuxable : StreamId.isDemuxable header.streamId = true) :
    header.streamId = StreamId.privateStream1 ∧ header.subId = none ∨ IsTrackKey header.key := by
  unfold PesHeader.key
  by_cases isPrivate : header.streamId = StreamId.privateStream1
  · cases subId : header.subId with
    | none => exact .inl ⟨isPrivate, rfl⟩
    | some sub =>
        rw [StreamId.key, if_pos isPrivate]
        exact .inr (.inl (Nat.le_add_right _ _))
  · rw [StreamId.key_of_ne isPrivate]
    exact .inr (.inr ⟨isDemuxable, isPrivate⟩)

theorem Registry.meeting_of_meetPacket
    (isByte : start.id < 256)
    (met : registry.meetPacket walk limit start = .ok (after, ahead)) :
    Meeting registry (Navigator.heading (start, walk)) after ∧ walk.Keeps ahead := by
  unfold meetPacket at met
  split at met
  next isDemuxable =>
    split at met
    · cases met
    next header stopped read =>
      have keeps := Navigator.keeps_of_readContent read
      cases Navigator.contentCase_of_readContent read with
      | payload _ streamId _ _ _ _ =>
          rw [← streamId] at isDemuxable
          rw [Navigator.heading_of_payload (congrArg Prod.fst read)]
          have isTrackKey := isTrackKey_of_isDemuxable isDemuxable
          obtain ⟨meeting, further⟩ :=
            @meeting_of_meet _ _ _ _ _ _ ⟨start.id, some header⟩ rfl isTrackKey met
          exact ⟨meeting, keeps.trans further⟩
    next outcome stopped notPayload read =>
      cases met
      have nothing : ∀ header, (walk.readContent start).1 ≠ .ok (some (.payload header)) := by
        intro header isPayload
        rw [read] at isPayload
        exact notPayload header (Except.ok.inj isPayload)
      rw [Navigator.heading_of_nothing nothing]
      exact ⟨.spoilt rfl, Navigator.keeps_of_readContent read⟩
  next notDemuxable =>
    cases met
    have notPrivate : start.id ≠ StreamId.privateStream1 := by
      intro isPrivate
      rw [isPrivate] at notDemuxable
      exact notDemuxable rfl
    refine ⟨.passed ?_, .of_eq rfl⟩
    rw [Navigator.key_heading notPrivate]
    rintro (tooGreat | ⟨isDemuxable, -⟩)
    · omega
    · exact notDemuxable isDemuxable

end Meeting

end MediaSplit.ProgramStream

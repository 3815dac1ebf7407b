import Emane.Ota.Lemmas.Codec
import Emane.Ota.Lemmas.ControlMessageSerializer

/-!
This module contains where the bytes of a message are read: every part is where its length and the
lengths of the parts before it say, as long as the sum of the lengths is what it is said to be.
-/

namespace Emane
namespace OTAManager

structure Checked (codec : OTACodec) (mem : Nat → UInt8) (len headerLength : Nat) (h : OTAHeader)
    : Prop where
  two_le : 2 ≤ len
  le : headerLength ≤ len - 2
  parse : codec.parseHeader (Memory.load mem 2 headerLength) = some h
  length : len - 2
    = (h.dataLength.toNat + h.controlLength.toNat + h.eventLength.toNat + headerLength) % 2^32

theorem receiveHeader_eq_some {codec : OTACodec} {mem : Nat → UInt8} {len headerLength : Nat}
    {h : OTAHeader}
    (heq : (receiveHeader codec mem len).2 = some (headerLength, h))
    : (receiveHeader codec mem len).1 = [⟨.length, 0, 2⟩, ⟨.header, 2, headerLength⟩]
        ∧ Checked codec mem len headerLength h := by
  unfold receiveHeader at heq ⊢
  split at heq
  . next htwo =>
    simp only at heq ⊢
    split at heq
    . next hle =>
      split at heq
      . next h' hparse =>
        split at heq
        . next hlength =>
          obtain ⟨rfl, rfl⟩ := heq
          rw [if_pos htwo, if_pos hle, if_pos hlength]
          exact ⟨rfl, htwo, hle, hparse, hlength⟩
        . simp at heq
      . simp at heq
    . simp at heq
  . simp at heq

theorem receiveHeader_inside (codec : OTACodec) (mem : Nat → UInt8) (len : Nat)
    : ∀ read ∈ (receiveHeader codec mem len).1, read.start + read.length ≤ len := by
  unfold receiveHeader
  split
  . next htwo =>
    simp only
    split
    . next hle =>
      have hreads : ∀ read ∈ [Read.mk .length 0 2, Read.mk .header 2 (ntohs (Memory.load mem 0 2))],
          read.start + read.length ≤ len := by
        simp only [List.forall_mem_cons, List.not_mem_nil, false_implies, implies_true, and_true]
        omega
      split
      . split
        . exact hreads
        . exact hreads
      . exact hreads
    . simp only [List.mem_singleton, forall_eq]
      omega
  . simp

def Read.Within (headerLength : Nat) (h : OTAHeader) (read : Read) : Prop :=
  match read.part with
  | .length => read.start = 0 ∧ read.length = 2
  | .header => read.start = 2 ∧ read.length = headerLength
  | .events => read.start = 2 + headerLength ∧ read.length = h.eventLength.toNat
  | .control =>
    2 + headerLength + h.eventLength.toNat ≤ read.start
      ∧ read.start + read.length ≤ 2 + headerLength + h.eventLength.toNat + h.controlLength.toNat
  | .packet =>
    read.start = 2 + headerLength + h.eventLength.toNat + h.controlLength.toNat
      ∧ read.length = h.dataLength.toNat

structure Layout (msg : Bytes) (headerLength : Nat) (h : OTAHeader) (r : Reception) : Prop where
  total : headerLength + h.eventLength.toNat + h.controlLength.toNat + h.dataLength.toNat = msg.length - 2
  reads : ∀ read ∈ r.reads, read.Within headerLength h
  events : ∀ registration serialization, .processEvent registration serialization ∈ r.outputs →
    serialization <:+: (msg.drop (2 + headerLength)).take h.eventLength.toNat
  packets : ∀ id pkt, .processOTAPacket id pkt ∈ r.outputs →
    pkt.packetSegment = msg.drop (2 + headerLength + h.eventLength.toNat + h.controlLength.toNat)

/--
No byte is read that is not in the message, be it accepted or not. A UUID consists of bytes of the
message.
-/
structure Bounded (m : OTAManager) (codec : OTACodec) (msg : Datagram) (stale beyond : Nat → UInt8)
    (r : Reception) : Prop where
  reads : ∀ read ∈ r.reads, read.start + read.length ≤ msg.val.length
  uuid : ∀ field uuid, r.uuid = some (field, uuid) → 16 ≤ field.length ∧ uuid.val <:+: msg.val
  layout : ∀ headerLength h,
    (receiveHeader codec (Memory.ofList msg.val stale) msg.val.length).2 = some (headerLength, h) →
    copyUUID h.uuid beyond ≠ m.uuid →
    Layout msg.val headerLength h r

section

variable {codec : OTACodec} {msg : Datagram} {stale : Nat → UInt8} {headerLength : Nat} {h : OTAHeader}

theorem Checked.copyUUID_isInfix
    (hchecked : Checked codec (Memory.ofList msg.val stale) msg.val.length headerLength h)
    (huuid : 16 ≤ h.uuid.length) (beyond : Nat → UInt8)
    : (copyUUID h.uuid beyond).val <:+: msg.val := by
  have htwo := hchecked.two_le
  have hle := hchecked.le
  have hfield := codec.uuid_isInfix _ _ hchecked.parse
  have hheader := @Memory.load_ofList_isInfix _ msg.val stale 2 headerLength (by omega)
  have hcopy := @Memory.load_ofList_isInfix _ h.uuid beyond 0 16 (by omega)
  exact hcopy.trans (hfield.trans hheader)

theorem Checked.total
    (hchecked : Checked codec (Memory.ofList msg.val stale) msg.val.length headerLength h)
    (hlt : headerLength + h.eventLength.toNat + h.controlLength.toNat + h.dataLength.toNat < 2^32)
    : headerLength + h.eventLength.toNat + h.controlLength.toNat + h.dataLength.toNat
        = msg.val.length - 2 := by
  rw [hchecked.length, Nat.mod_eq_of_lt (by omega)]
  omega

theorem receiveEvents_reads (m : OTAManager) (codec : OTACodec) (mem : Nat → UInt8)
    (eventIndex eventLength : Nat)
    : ∀ read ∈ (m.receiveEvents codec mem eventIndex eventLength).1,
        read = ⟨.events, eventIndex, eventLength⟩ := by
  unfold receiveEvents
  split
  . simp
  . simp

theorem receiveEvents_outputs (m : OTAManager) (codec : OTACodec) (mem : Nat → UInt8)
    (eventIndex eventLength : Nat)
    : ∀ output ∈ (m.receiveEvents codec mem eventIndex eventLength).2,
        ∃ registration serialization,
          output = .processEvent registration serialization
              ∧ serialization <:+: Memory.load mem eventIndex eventLength := by
  unfold receiveEvents
  split
  . intro output houtput
    split at houtput
    . next events hparse =>
      rw [List.mem_flatMap] at houtput
      obtain ⟨event, hevent, houtput⟩ := houtput
      unfold processEventMessage at houtput
      rw [List.mem_map] at houtput
      obtain ⟨registration, _, rfl⟩ := houtput
      exact ⟨registration, _, rfl, codec.serialization_isInfix _ _ hparse event hevent⟩
    . simp at houtput
  . simp

theorem receiveControl_reads (codec : OTACodec) (mem : Nat → UInt8) (controlIndex controlLength : Nat)
    : ∀ read ∈ (receiveControl codec mem controlIndex controlLength).1,
        read.part = .control ∧ controlIndex ≤ read.start
            ∧ read.start + read.length ≤ controlIndex + controlLength := by
  have hinside := ControlMessageSerializer.create_inside mem controlIndex controlLength
  have hreads : ∀ read ∈ ((ControlMessageSerializer.create mem controlIndex controlLength).1.map (fun access =>
      Read.mk .control access.start access.length)),
      read.part = .control ∧ controlIndex ≤ read.start
          ∧ read.start + read.length ≤ controlIndex + controlLength := by
    intro read hread
    rw [List.mem_map] at hread
    obtain ⟨access, haccess, rfl⟩ := hread
    exact ⟨rfl, hinside access haccess⟩
  unfold receiveControl
  split
  . simp only
    split
    . exact hreads
    . exact hreads
  . simp

structure Processed (m : OTAManager) (codec : OTACodec) (mem beyond : Nat → UInt8)
    (headerLength : Nat) (h : OTAHeader)
    (eventIndex controlIndex packetIndex : Nat) (r : Reception) : Prop where
  reads : r.reads
    =
    [⟨.length, 0, 2⟩, ⟨.header, 2, headerLength⟩]
      ++ (m.receiveEvents codec mem eventIndex h.eventLength.toNat).1
      ++ [⟨.packet, packetIndex, h.dataLength.toNat⟩]
        ++ (receiveControl codec mem controlIndex h.controlLength.toNat).1
  uuid : r.uuid = some (h.uuid, copyUUID h.uuid beyond)
  outputs : ∀ output ∈ r.outputs,
    output ∈ (m.receiveEvents codec mem eventIndex h.eventLength.toNat).2
      ∨ ∃ id pkt, output = .processOTAPacket id pkt
        ∧ pkt.packetSegment = Memory.load mem packetIndex h.dataLength.toNat

theorem processOTAMessage_of_accepted {m : OTAManager} {mem beyond : Nat → UInt8} {len now : Nat}
    (hheader : (receiveHeader codec mem len).2 = some (headerLength, h))
    (huuid : copyUUID h.uuid beyond ≠ m.uuid)
    : Processed m codec mem beyond headerLength h ((2 + headerLength) % 2^16)
        (((2 + headerLength) % 2^16 + h.eventLength.toNat) % 2^16)
        ((((2 + headerLength) % 2^16 + h.eventLength.toNat) % 2^16 + h.controlLength.toNat) % 2^16)
        (m.processOTAMessage codec mem beyond len now) := by
  have hreads := (receiveHeader_eq_some hheader).1
  unfold processOTAMessage
  simp only [hheader, hreads, if_pos huuid]
  split
  . refine ⟨rfl, rfl, ?_⟩
    intro output houtput
    rw [List.mem_append] at houtput
    cases houtput with
    | inl hevent => exact Or.inl hevent
    | inr hpacket =>
      rw [List.mem_map] at hpacket
      obtain ⟨user, _, rfl⟩ := hpacket
      exact Or.inr ⟨user, _, rfl, rfl⟩
  . exact ⟨rfl, rfl, fun output houtput => Or.inl houtput⟩

theorem processOTAMessage_of_own {m : OTAManager} {mem beyond : Nat → UInt8} {len now : Nat}
    (hheader : (receiveHeader codec mem len).2 = some (headerLength, h))
    (huuid : copyUUID h.uuid beyond = m.uuid)
    : m.processOTAMessage codec mem beyond len now
        =
      { reads := (receiveHeader codec mem len).1, uuid := some (h.uuid, copyUUID h.uuid beyond) } := by
  unfold processOTAMessage
  simp only [hheader]
  rw [if_neg (by simp [huuid])]

theorem processOTAMessage_of_none {m : OTAManager} {mem beyond : Nat → UInt8} {len now : Nat}
    (hheader : (receiveHeader codec mem len).2 = none)
    : m.processOTAMessage codec mem beyond len now = { reads := (receiveHeader codec mem len).1 } := by
  unfold processOTAMessage
  simp only [hheader]

theorem Processed.layout {m : OTAManager} {beyond : Nat → UInt8}
    {eventIndex controlIndex packetIndex : Nat} {r : Reception}
    (hr : Processed m codec (Memory.ofList msg.val stale) beyond headerLength h eventIndex
      controlIndex packetIndex r)
    (hlength : 2 ≤ msg.val.length)
    (htotal : headerLength + h.eventLength.toNat + h.controlLength.toNat + h.dataLength.toNat
      = msg.val.length - 2)
    (heventIndex : eventIndex = 2 + headerLength)
    (hcontrolIndex : controlIndex = eventIndex + h.eventLength.toNat)
    (hpacketIndex : packetIndex = controlIndex + h.controlLength.toNat)
    : Layout msg.val headerLength h r := by
  have hevents := receiveEvents_reads m codec (Memory.ofList msg.val stale) eventIndex h.eventLength.toNat
  have hcontrol := receiveControl_reads codec (Memory.ofList msg.val stale) controlIndex
    h.controlLength.toNat
  have houtputs := receiveEvents_outputs m codec
    (Memory.ofList msg.val stale) eventIndex h.eventLength.toNat
  rw [Memory.load_ofList stale (by omega), heventIndex] at houtputs
  constructor
  . exact htotal
  . intro read hread
    rw [hr.reads] at hread
    simp only [List.mem_append, List.mem_cons, List.not_mem_nil, or_false] at hread
    rcases hread with (((rfl | rfl) | hread) | rfl) | hread
    . exact ⟨rfl, rfl⟩
    . exact ⟨rfl, rfl⟩
    . rw [hevents read hread]
      exact ⟨heventIndex, rfl⟩
    . exact ⟨by simp only; omega, rfl⟩
    . obtain ⟨hpart, hstart, hend⟩ := hcontrol read hread
      unfold Read.Within
      rw [hpart]
      omega
  . intro registration serialization houtput
    rcases hr.outputs _ houtput with hevent | ⟨id, pkt, heq, _⟩
    . rw [heventIndex] at hevent
      obtain ⟨registration', serialization', heq, hinfix⟩ := houtputs _ hevent
      simp only [Output.processEvent.injEq] at heq
      rw [heq.2]
      exact hinfix
    . simp at heq
  . intro id pkt houtput
    rcases hr.outputs _ houtput with hevent | ⟨id', pkt', heq, hsegment⟩
    . rw [heventIndex] at hevent
      obtain ⟨_, _, heq, _⟩ := houtputs _ hevent
      simp at heq
    . simp only [Output.processOTAPacket.injEq] at heq
      have hindex : packetIndex = 2 + headerLength + h.eventLength.toNat
        + h.controlLength.toNat := by omega
      rw [heq.2, hsegment, Memory.load_ofList stale (by omega), hindex]
      apply List.take_of_length_le
      rw [List.length_drop]
      omega

theorem Layout.inside {r : Reception} (hlayout : Layout msg.val headerLength h r)
    (hlength : 2 ≤ msg.val.length)
    : ∀ read ∈ r.reads, read.start + read.length ≤ msg.val.length := by
  intro read hread
  have htotal := hlayout.total
  have hwithin := hlayout.reads read hread
  unfold Read.Within at hwithin
  split at hwithin
  . omega
  . omega
  . omega
  . omega
  . omega

theorem Checked.layout
    (hchecked : Checked codec (Memory.ofList msg.val stale) msg.val.length headerLength h)
    (hlt : headerLength + h.eventLength.toNat + h.controlLength.toNat + h.dataLength.toNat < 2^32)
    {m : OTAManager}
    {beyond : Nat → UInt8} {now : Nat}
    (hheader : (receiveHeader codec (Memory.ofList msg.val stale) msg.val.length).2
      = some (headerLength, h))
    (huuid : copyUUID h.uuid beyond ≠ m.uuid)
    : Layout msg.val headerLength h (m.processDatagram codec msg stale beyond now) := by
  have htotal := hchecked.total hlt
  have htwo := hchecked.two_le
  apply (processOTAMessage_of_accepted hheader huuid).layout htwo htotal
  . exact Nat.mod_eq_of_lt (by omega)
  . rw [Nat.mod_eq_of_lt (by omega)]
  . rw [Nat.mod_eq_of_lt (by omega)]

end

theorem processDatagram_bounded_iff (m : OTAManager) (codec : OTACodec) (msg : Datagram)
    (stale beyond : Nat → UInt8) (now : Nat)
    : Bounded m codec msg stale beyond (m.processDatagram codec msg stale beyond now)
        ↔
      ∀ headerLength h,
        (receiveHeader codec (Memory.ofList msg.val stale) msg.val.length).2 = some (headerLength, h)
          →
        16 ≤ h.uuid.length
          ∧ (copyUUID h.uuid beyond ≠ m.uuid
          →
        headerLength + h.eventLength.toNat + h.controlLength.toNat + h.dataLength.toNat < 2^32) := by
  have hinside := receiveHeader_inside codec (Memory.ofList msg.val stale) msg.val.length
  constructor
  . intro hbounded headerLength h hheader
    refine ⟨?_, ?_⟩
    . by_cases huuid : copyUUID h.uuid beyond = m.uuid
      . apply And.left
        apply hbounded.uuid h.uuid (copyUUID h.uuid beyond)
        unfold processDatagram
        rw [processOTAMessage_of_own hheader huuid]
      . exact (hbounded.uuid h.uuid _ (processOTAMessage_of_accepted hheader huuid).uuid).1
    . intro huuid
      have htotal := (hbounded.layout headerLength h hheader huuid).total
      omega
  . intro hok
    cases hheader : (receiveHeader codec (Memory.ofList msg.val stale) msg.val.length).2 with
    | none =>
      unfold processDatagram
      rw [processOTAMessage_of_none hheader]
      refine ⟨hinside, ?_, ?_⟩
      . simp
      . simp [hheader]
    | some header =>
      obtain ⟨headerLength, h⟩ := header
      obtain ⟨hlength, hlt⟩ := hok headerLength h hheader
      have hchecked := (receiveHeader_eq_some hheader).2
      have hcopy := hchecked.copyUUID_isInfix hlength beyond
      by_cases huuid : copyUUID h.uuid beyond = m.uuid
      . unfold processDatagram
        rw [processOTAMessage_of_own hheader huuid]
        refine ⟨hinside, ?_, ?_⟩
        . intro field uuid heq
          obtain ⟨rfl, rfl⟩ := heq
          exact ⟨hlength, hcopy⟩
        . intro headerLength' h' hheader' huuid'
          rw [hheader, Option.some.injEq, Prod.mk.injEq] at hheader'
          obtain ⟨rfl, rfl⟩ := hheader'
          exact absurd huuid huuid'
      . have hlayout := @Checked.layout codec msg stale headerLength h hchecked
          (hlt huuid) m beyond now hheader huuid
        refine ⟨hlayout.inside hchecked.two_le, ?_, ?_⟩
        . intro field uuid heq
          rw [show (m.processDatagram codec msg stale beyond now).uuid = _ from
            (processOTAMessage_of_accepted hheader huuid).uuid] at heq
          obtain ⟨rfl, rfl⟩ := heq
          exact ⟨hlength, hcopy⟩
        . intro headerLength' h' hheader' _
          rw [hheader, Option.some.injEq, Prod.mk.injEq] at hheader'
          obtain ⟨rfl, rfl⟩ := hheader'
          exact hlayout

def twoUsers : OTAManager where
  uuid := .ofByte 0
  nemUserMap := [1, 2]
  increasing := by decide
  eventRegistrationMap := [⟨9, 1, 2⟩]
  bOpen := true
  sequenceNumber := 0

def fourParts : Datagram :=
  ⟨[0, 30, 8, 1, 16, 2, 24, 10, 32, 7, 40, 3, 48, 1, 58, 16] ++ List.replicate 16 7
    ++ [10, 8, 8, 2, 16, 9, 26, 2, 5, 6] ++ [0, 1, 0, 102, 0, 1, 4] ++ [1, 2, 3], by decide⟩

theorem processDatagram_bounded_example
    : Bounded twoUsers .protobuf fourParts (fun _ => 0) (fun _ => 0)
        (twoUsers.processDatagram .protobuf fourParts (fun _ => 0) (fun _ => 0) 0)
        ∧ (twoUsers.processDatagram .protobuf fourParts (fun _ => 0) (fun _ => 0) 0).outputs.length
            = 3 := by
  refine ⟨?_, by decide +kernel⟩
  rw [processDatagram_bounded_iff]
  have hheader : (receiveHeader .protobuf (Memory.ofList fourParts.val (fun _ => 0))
    fourParts.val.length).2
      = some (30, ⟨1, 2, 10, 7, 3, 1, List.replicate 16 7⟩) := by decide +kernel
  intro headerLength h heq
  obtain ⟨rfl, rfl⟩ := heq
  exact ⟨by decide, fun _ => by decide⟩

def overflowingLengths : Datagram :=
  ⟨[0, 36, 8, 1, 16, 255, 255, 3, 24, 0, 32, 1, 40, 255, 255, 255, 255, 15, 48, 1, 58, 16]
    ++ List.replicate 16 7, by decide⟩

def shortUUID : Datagram :=
  ⟨[0, 18, 8, 1, 16, 2, 24, 0, 32, 0, 40, 0, 48, 1, 58, 4, 7, 7, 7, 7], by decide⟩

theorem not_bounded_of_overflow
    : (∃ read ∈ (twoUsers.processDatagram .protobuf overflowingLengths (fun _ => 0) (fun _ => 0) 0).reads,
        overflowingLengths.val.length < read.start + read.length)
        ∧ ¬ Bounded twoUsers .protobuf overflowingLengths (fun _ => 0) (fun _ => 0)
        (twoUsers.processDatagram .protobuf overflowingLengths (fun _ => 0) (fun _ => 0) 0)
        ∧ ¬ Bounded twoUsers .protobuf shortUUID (fun _ => 0) (fun _ => 0)
        (twoUsers.processDatagram .protobuf shortUUID (fun _ => 0) (fun _ => 0) 0) := by
  have hheader : (receiveHeader .protobuf (Memory.ofList overflowingLengths.val (fun _ => 0))
    overflowingLengths.val.length).2
      = some (36, ⟨1, 65535, 0, 1, 4294967295, 1, List.replicate 16 7⟩) := by decide +kernel
  have hshort : (receiveHeader .protobuf (Memory.ofList shortUUID.val (fun _ => 0))
    shortUUID.val.length).2
      = some (18, ⟨1, 2, 0, 0, 0, 1, [7, 7, 7, 7]⟩) := by decide +kernel
  have hread : ∃ read ∈ (twoUsers.processDatagram .protobuf overflowingLengths (fun _ => 0) (fun _ => 0) 0).reads,
      overflowingLengths.val.length < read.start + read.length := by
    have hprocessed := @processOTAMessage_of_accepted _ _ _ twoUsers _
      (fun _ => 0) _ 0 hheader (by decide)
    refine ⟨⟨.packet, 39, 4294967295⟩, ?_, by decide⟩
    unfold processDatagram
    rw [hprocessed.reads]
    simp
  refine ⟨hread, ?_, ?_⟩
  . intro hbounded
    obtain ⟨read, hmem, hlt⟩ := hread
    exact absurd (hbounded.reads read hmem) (Nat.not_le.mpr hlt)
  . intro hbounded
    have hprocessed := @processOTAMessage_of_accepted _ _ _ twoUsers _ (fun _ => 0) _ 0 hshort (by decide)
    have hlength := (hbounded.uuid _ _ hprocessed.uuid).1
    exact absurd hlength (by decide)

end OTAManager
end Emane

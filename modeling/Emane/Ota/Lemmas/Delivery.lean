import Emane.Ota.Lemmas.Bounds

/-!
This module contains the two ways of a packet to an NEM: through the manager that it is sent with,
and as a datagram through another one.
-/

namespace Emane
namespace OTAManager

section

variable (m : OTAManager) (codec : OTACodec) (pkt : DownstreamPacket)
  (msgs : List SerializedControlMessage) (sequenceNumber : UInt64)

def headerOf : OTAHeader where
  source := pkt.info.source.toUInt32
  destination := pkt.info.destination.toUInt32
  dataLength := .ofNat pkt.length
  controlLength := .ofNat (ControlMessageSerializer.getLength msgs)
  eventLength := .ofNat (codec.encodeEvents pkt.attachedEvents).length
  sequenceNumber := sequenceNumber
  uuid := m.uuid

theorem encodeEvents_eq
    : (if pkt.attachedEvents.isEmpty then [] else codec.encodeEvents pkt.attachedEvents)
        = codec.encodeEvents pkt.attachedEvents := by
  cases hevents : pkt.attachedEvents with
  | nil => exact codec.encodeEvents_nil.symm
  | cons event events => rfl

theorem flatten_vectorIO_eq
    : ( m.vectorIO codec pkt msgs sequenceNumber).flatten
        =
      lengthPrefix (codec.encodeHeader (m.headerOf codec pkt msgs sequenceNumber)).length
        ++
      (codec.encodeHeader (m.headerOf codec pkt msgs sequenceNumber)
        ++
      (codec.encodeEvents pkt.attachedEvents
          ++ (( ControlMessageSerializer.getVectorIO msgs).flatten ++ pkt.bytes))) := by
  have hsegment : (if (codec.encodeEvents pkt.attachedEvents).isEmpty then []
    else [codec.encodeEvents pkt.attachedEvents]).flatten
      = codec.encodeEvents pkt.attachedEvents := by
    cases hevents : codec.encodeEvents pkt.attachedEvents with
    | nil => rfl
    | cons b bs => simp
  unfold OTAManager.vectorIO
  simp only [encodeEvents_eq]
  rw [List.flatten_append, List.flatten_append, List.flatten_append, hsegment]
  simp [headerOf, DownstreamPacket.bytes]

end

structure Arrived (m : OTAManager) (codec : OTACodec) (pkt : DownstreamPacket)
    (msgs : List SerializedControlMessage) (h : OTAHeader)
    (headerLength : Nat) (mem : Nat → UInt8) : Prop where
  header : codec.parseHeader (Memory.load mem 2 headerLength) = some h
  events : Memory.Holds mem (2 + headerLength) (codec.encodeEvents pkt.attachedEvents)
  control : Memory.Holds mem (2 + headerLength + h.eventLength.toNat)
    ( ControlMessageSerializer.getVectorIO msgs).flatten
  data : Memory.Holds mem (2 + headerLength + h.eventLength.toNat + h.controlLength.toNat) pkt.bytes
  eventLength : h.eventLength.toNat = (codec.encodeEvents pkt.attachedEvents).length
  controlLength : h.controlLength.toNat = ( ControlMessageSerializer.getVectorIO msgs).flatten.length
  dataLength : h.dataLength.toNat = pkt.bytes.length
  prefixLength : ntohs (Memory.load mem 0 2) = headerLength
  source : h.source = pkt.info.source.toUInt32
  destination : h.destination = pkt.info.destination.toUInt32
  uuid : h.uuid = m.uuid
  small : 2 + headerLength + h.eventLength.toNat + h.controlLength.toNat + h.dataLength.toNat < 2^16

theorem toNat_ofNat_of_lt {n : Nat} (h : n < 2^16) : (UInt32.ofNat n).toNat = n := by
  rw [UInt32.toNat_ofNat']
  omega

theorem arrived_of_vectorIO {m : OTAManager} {codec : OTACodec} {pkt : DownstreamPacket}
    {msgs : List SerializedControlMessage}
    {sequenceNumber : UInt64} (hfits : ( m.vectorIO codec pkt msgs sequenceNumber).flatten.length
      < 2^16) (stale : Nat → UInt8)
    : ∃ h headerLength,
        Arrived m codec pkt msgs h headerLength
          (Memory.ofList ( m.vectorIO codec pkt msgs sequenceNumber).flatten stale)
          ∧ ( m.vectorIO codec pkt msgs sequenceNumber).flatten.length
          =
        2 + headerLength + h.eventLength.toNat + h.controlLength.toNat + h.dataLength.toNat := by
  have hholds := Memory.holds_ofList ( m.vectorIO codec pkt msgs sequenceNumber).flatten stale
  generalize hmem : Memory.ofList ( m.vectorIO codec pkt msgs sequenceNumber).flatten stale
    = mem at hholds ⊢
  have hcontrol := ControlMessageSerializer.getLength_eq msgs
  have hdata := pkt.length_eq
  rw [flatten_vectorIO_eq] at hholds hfits ⊢
  generalize hheader : codec.encodeHeader (m.headerOf codec pkt msgs sequenceNumber)
    = header at hholds hfits ⊢
  have hparse := codec.parseHeader_encodeHeader (m.headerOf codec pkt msgs sequenceNumber) m.uuid.property
  rw [hheader] at hparse
  simp only [List.length_append, length_lengthPrefix] at hfits ⊢
  have heventLength : (m.headerOf codec pkt msgs sequenceNumber).eventLength.toNat
      = (codec.encodeEvents pkt.attachedEvents).length := toNat_ofNat_of_lt (by omega)
  have hcontrolLength : (m.headerOf codec pkt msgs sequenceNumber).controlLength.toNat
      = ( ControlMessageSerializer.getVectorIO msgs).flatten.length := by
    rw [← hcontrol]
    exact toNat_ofNat_of_lt (by omega)
  have hdataLength : (m.headerOf codec pkt msgs sequenceNumber).dataLength.toNat = pkt.bytes.length := by
    rw [← hdata]
    exact toNat_ofNat_of_lt (by omega)
  simp only [Memory.holds_append_iff, length_lengthPrefix, Nat.zero_add] at hholds
  obtain ⟨hlength, hload, hevents, hcontrols, hpayload⟩ := hholds
  refine ⟨m.headerOf codec pkt msgs sequenceNumber, header.length, ?_, by omega⟩
  constructor
  . rw [show Memory.load mem 2 header.length = header from hload]
    exact hparse
  . exact hevents
  . rw [heventLength]
    exact hcontrols
  . rw [heventLength, hcontrolLength]
    exact hpayload
  . exact heventLength
  . exact hcontrolLength
  . exact hdataLength
  . unfold Memory.Holds at hlength
    rw [length_lengthPrefix] at hlength
    rw [hlength]
    exact foldl_lengthPrefix (by omega)
  . rfl
  . rfl
  . rfl
  . omega

theorem parseTransmitters_of_serialize {codec : OTACodec} {msgs : List ControlMessage}
    {serialized : List SerializedControlMessage}
    (hserialize : ControlMessageSerializer.serialize codec.encodeTransmitters msgs = some serialized)
    (hlengths : ∀ msg ∈ serialized, msg.serialization.length < 2^31)
    : parseTransmitters codec serialized = .ok (otaTransmitters msgs) := by
  unfold parseTransmitters otaTransmitters
  generalize (∅ : OTATransmitters) = transmitters
  unfold ControlMessageSerializer.serialize at hserialize
  induction msgs generalizing serialized transmitters with
  | nil =>
    simp only [List.mapM_nil, Option.pure_def, Option.some.injEq] at hserialize
    rw [← hserialize]
    rfl
  | cons msg msgs ih =>
    simp only [List.mapM_cons, Option.bind_eq_bind, Option.bind_eq_some_iff, Option.pure_def,
      Option.some.injEq] at hserialize
    obtain ⟨first, ⟨serialization, hfirst, rfl⟩, rest, hrest, rfl⟩ := hserialize
    have hlength := hlengths _ List.mem_cons_self
    have ih := fun transmitters => ih hrest (fun s hs => hlengths s (List.mem_cons_of_mem _ hs))
      transmitters
    rw [List.foldlM_cons, List.foldl_cons]
    cases msg with
    | otaTransmitter transmitters' =>
      cases hfirst
      simp only [ControlMessage.getId, ↓reduceIte, codec.parseTransmitters_encodeTransmitters _ hlength]
      exact ih transmitters'
    | other id serialization' =>
      have hid : (ControlMessage.other id serialization').getId
        ≠ EMANE_CONTROL_MEASSGE_OTA_TRANSMITTER := id.property
      simp only [if_neg hid]
      exact ih transmitters

section

variable {m r : OTAManager} {codec : OTACodec} {pkt : DownstreamPacket} {msgs : List ControlMessage}
  {serialized : List SerializedControlMessage} {h : OTAHeader} {headerLength : Nat}
    {mem beyond : Nat → UInt8} {now : Nat}

theorem Arrived.receiveHeader (harrived : Arrived m codec pkt serialized h headerLength mem)
    : (OTAManager.receiveHeader codec mem
        (2 + headerLength + h.eventLength.toNat + h.controlLength.toNat + h.dataLength.toNat)).2
        =
      some (headerLength, h) := by
  have hsmall := harrived.small
  unfold OTAManager.receiveHeader
  rw [if_pos (by omega)]
  simp only [harrived.prefixLength, harrived.header]
  rw [if_pos (by omega), if_pos]
  omega

theorem Arrived.copyUUID (harrived : Arrived m codec pkt serialized h headerLength mem)
    : OTAManager.copyUUID h.uuid beyond = m.uuid := by
  have hlength := m.uuid.property
  apply Subtype.ext
  rw [harrived.uuid]
  change Memory.load (Memory.ofList m.uuid.val beyond) 0 16 = m.uuid.val
  rw [Memory.load_ofList beyond (by omega), List.drop_zero, List.take_of_length_le (by omega)]

theorem Arrived.receiveEvents (harrived : Arrived m codec pkt serialized h headerLength mem)
    : (r.receiveEvents codec mem (2 + headerLength) h.eventLength.toNat).2
        =
      pkt.attachedEvents.flatMap (fun event =>
        processEventMessage r.eventRegistrationMap event.nemId event.eventId event.serialization 0) := by
  have hsmall := harrived.small
  have hlength := harrived.eventLength
  have hparse := codec.parseEvents_encodeEvents pkt.attachedEvents (by omega)
  have hload : Memory.load mem (2 + headerLength) h.eventLength.toNat
      = codec.encodeEvents pkt.attachedEvents := by
    rw [hlength]
    exact harrived.events
  unfold OTAManager.receiveEvents
  split
  . rw [hload, hparse]
  . next hzero =>
    have hnil : codec.encodeEvents pkt.attachedEvents = [] := by
      apply List.eq_nil_of_length_eq_zero
      omega
    have hempty := codec.parseEvents_encodeEvents [] (by rw [codec.encodeEvents_nil]; decide)
    rw [codec.encodeEvents_nil, ← hnil, hparse, Option.some.injEq] at hempty
    rw [hempty]
    rfl

theorem Arrived.receiveControl (harrived : Arrived m codec pkt serialized h headerLength mem)
    (hserialize : ControlMessageSerializer.serialize codec.encodeTransmitters msgs = some serialized)
    : (OTAManager.receiveControl codec mem
        (2 + headerLength + h.eventLength.toNat) h.controlLength.toNat).2
        =
      .ok (otaTransmitters msgs) := by
  have hsmall := harrived.small
  have hcontrol := harrived.controlLength
  have hlength := ControlMessageSerializer.getLength_eq serialized
  have hcount := ControlMessageSerializer.length_lt_getLength serialized
  have heq : h.controlLength.toNat = ControlMessageSerializer.getLength serialized := by omega
  have hcreate := ControlMessageSerializer.create_of_holds (by omega) harrived.control
  rw [← heq] at hcreate
  have hpos : h.controlLength.toNat ≠ 0 := by omega
  unfold OTAManager.receiveControl
  rw [if_pos hpos]
  simp only [hcreate]
  apply parseTransmitters_of_serialize hserialize
  intro msg hmsg
  have hlt := ControlMessageSerializer.length_serialization_lt_getLength hmsg
  omega

theorem Arrived.processOTAMessage (harrived : Arrived m codec pkt serialized h headerLength mem)
    (hserialize : ControlMessageSerializer.serialize codec.encodeTransmitters msgs
      = some serialized) (huuid : m.uuid ≠ r.uuid)
    : (r.processOTAMessage codec mem beyond
        (2 + headerLength + h.eventLength.toNat + h.controlLength.toNat + h.dataLength.toNat) now).outputs
        =
      pkt.attachedEvents.flatMap (fun event =>
        processEventMessage r.eventRegistrationMap event.nemId event.eventId event.serialization 0)
        ++ (r.nemUserMap.filter (fun user => user ∉ otaTransmitters msgs)).map (fun user =>
          .processOTAPacket user
            (.create ⟨pkt.info.source, pkt.info.destination, 0, now, m.uuid⟩ pkt.bytes))
        ∧ (r.processOTAMessage codec mem beyond
        (2 + headerLength + h.eventLength.toNat + h.controlLength.toNat + h.dataLength.toNat)
            now).exception = none := by
  have hsmall := harrived.small
  have heventIndex : (2 + headerLength) % 2^16 = 2 + headerLength := Nat.mod_eq_of_lt (by omega)
  have hcontrolIndex : (2 + headerLength + h.eventLength.toNat) % 2^16 = 2 + headerLength
      + h.eventLength.toNat :=
    Nat.mod_eq_of_lt (by omega)
  have hpacketIndex : (2 + headerLength + h.eventLength.toNat + h.controlLength.toNat) % 2^16
      = 2 + headerLength + h.eventLength.toNat + h.controlLength.toNat := Nat.mod_eq_of_lt (by omega)
  have hload : Memory.load mem (2 + headerLength + h.eventLength.toNat + h.controlLength.toNat)
      h.dataLength.toNat = pkt.bytes := by
    rw [harrived.dataLength]
    exact harrived.data
  have hsource : h.source.toUInt16 = pkt.info.source := by
    rw [harrived.source, UInt16.toUInt16_toUInt32]
  have hdestination : h.destination.toUInt16 = pkt.info.destination := by
    rw [harrived.destination, UInt16.toUInt16_toUInt32]
  unfold OTAManager.processOTAMessage
  simp only [harrived.receiveHeader, harrived.copyUUID, if_pos huuid, heventIndex, hcontrolIndex,
    hpacketIndex, hload, hsource,
    hdestination, harrived.receiveControl hserialize, harrived.receiveEvents]
  exact ⟨trivial, trivial⟩

end

inductive Received where
  | event (registration : EventRegistration) (serialization : Bytes)
  | packet (source destination : NEMId) (priority : UInt8) (uuid : UUID) (payload : Bytes)
  deriving DecidableEq

def receivedBy (n : NEMId) (outputs : List Output) : List Received :=
  outputs.filterMap (fun output =>
    match output with
    | .processEvent registration serialization =>
      if registration.nemId = n then some (.event registration serialization) else none
    | .processOTAPacket user pkt =>
      if user = n then
        some (.packet pkt.info.source pkt.info.destination pkt.info.priority pkt.info.uuid pkt.get)
      else
        none)

theorem receivedBy_append (n : NEMId) (outputs outputs' : List Output)
    : receivedBy n (outputs ++ outputs') = receivedBy n outputs ++ receivedBy n outputs' := by
  exact List.filterMap_append

theorem receivedBy_processEventMessage {n ignoreNEM : NEMId} (hignore : ignoreNEM = 0 ∨ ignoreNEM ≠ n)
    (registrations : List EventRegistration) (nemId : NEMId) (eventId : EventId) (serialization : Bytes)
    : receivedBy n (processEventMessage registrations nemId eventId serialization ignoreNEM)
        =
      ((registrations.filter (fun registration => registration.nemId = n)).filter (fun registration =>
        registration.eventId = eventId ∧ (nemId = 0 ∨ nemId = n))).map
            (fun registration => .event registration serialization) := by
  unfold receivedBy processEventMessage
  rw [List.filterMap_map, List.filterMap_filter, List.filterMap_filter, ← List.filterMap_eq_map,
    List.filterMap_filter,
    List.filterMap_filter]
  apply List.filterMap_congr
  intro registration _
  by_cases hn : registration.nemId = n
  . have hnemId : n = nemId ↔ nemId = n := eq_comm
    simp only [Function.comp_apply, hn, hignore, hnemId]
    by_cases heventId : registration.eventId = eventId
    . simp only [heventId, decide_true, true_and, ↓reduceIte]
    . simp [heventId]
  . simp [hn]

theorem receivedBy_users {n : NEMId} {users : List NEMId} (hn : n ∈ users) (hnodup : users.Nodup)
    (p : NEMId → Bool)
    (pkt : UpstreamPacket)
    : receivedBy n ((users.filter p).map (fun user => .processOTAPacket user pkt))
        =
      if p n then
        [.packet pkt.info.source pkt.info.destination pkt.info.priority pkt.info.uuid pkt.get]
      else
        [] := by
  unfold receivedBy
  rw [List.filterMap_map, List.filterMap_filter]
  induction users with
  | nil => exact absurd hn List.not_mem_nil
  | cons user users ih =>
    rw [List.nodup_cons] at hnodup
    rw [List.filterMap_cons]
    rw [List.mem_cons] at hn
    rcases hn with rfl | hn
    . have hrest : users.filterMap (fun user => if p user then
          (if user = n
            then some (.packet pkt.info.source pkt.info.destination pkt.info.priority
              pkt.info.uuid pkt.get) else none)
          else none) = ([] : List Received) := by
        rw [List.filterMap_eq_nil_iff]
        intro user huser
        have hne : user ≠ n := by
          rintro rfl
          exact hnodup.1 huser
        simp [hne]
      by_cases hp : p n
      . simp only [Function.comp_apply, ↓reduceIte, hp]
        exact congrArg _ hrest
      . simp only [Function.comp_apply, hp]
        exact hrest
    . have hne : user ≠ n := by
        rintro rfl
        exact hnodup.1 hn
      simp only [Function.comp_apply, hne, ↓reduceIte, ite_self]
      exact ih hn hnodup.2

section

variable {m r : OTAManager} {codec : OTACodec} {n id : NEMId} {pkt : DownstreamPacket}
  {msgs : List ControlMessage} {now : Nat}
  {outputs : List Output} {iov : List Bytes} {m' : OTAManager}

theorem sendOTAPacket_eq_some (h : m.sendOTAPacket codec id pkt msgs now = (outputs, some iov, m'))
    : ∃ serialized,
        ControlMessageSerializer.serialize codec.encodeTransmitters msgs = some serialized
          ∧ iov = m.vectorIO codec pkt serialized (m.sequenceNumber + 1)
          ∧ outputs = pkt.attachedEvents.flatMap (fun event =>
          processEventMessage m.eventRegistrationMap event.nemId event.eventId event.serialization id)
            ++ m.bounce id pkt (otaTransmitters msgs) now := by
  unfold sendOTAPacket at h
  split at h
  . cases hserialize : ControlMessageSerializer.serialize codec.encodeTransmitters msgs with
    | none => simp [hserialize] at h
    | some serialized =>
      simp only [hserialize, Prod.mk.injEq, Option.some.injEq] at h
      obtain ⟨houtputs, hiov, _⟩ := h
      exact ⟨serialized, rfl, hiov.symm, houtputs.symm⟩
  . simp at h

theorem receivedBy_bounce (hn : n ∈ m.nemUserMap) (hid : id ∈ m.nemUserMap) (hne : n ≠ id)
    (transmitters : OTATransmitters)
    : receivedBy n (m.bounce id pkt transmitters now)
        =
      if n ∉ transmitters then
        [.packet pkt.info.source pkt.info.destination pkt.info.priority m.uuid pkt.bytes]
      else
        [] := by
  have hnodup : m.nemUserMap.Nodup := m.increasing.imp ne_of_lt
  have htwo : m.nemUserMap.length > 1 := by
    match husers : m.nemUserMap with
    | [] => simp [husers] at hn
    | [user] => simp_all
    | user :: user' :: users => simp
  unfold bounce
  rw [if_pos htwo]
  simp only [receivedBy_users hn hnodup]
  simp [hne, UpstreamPacket.create, UpstreamPacket.get, DownstreamPacket.bytes]

/--
An NEM that hears the packet from another emulator instead of its own one: all is the same but for
the priority.
-/
theorem receivedBy_remote_iff (hn : n ∈ m.nemUserMap) (hid : id ∈ m.nemUserMap) (hne : n ≠ id)
    (hr : n ∈ r.nemUserMap)
    (huuid : m.uuid ≠ r.uuid)
    (hregistrations : r.eventRegistrationMap.filter (fun registration => registration.nemId = n)
      = m.eventRegistrationMap.filter (fun registration => registration.nemId = n))
    (hsend : m.sendOTAPacket codec id pkt msgs now = (outputs, some iov, m'))
    (hfits : iov.flatten.length < 2^16)
    (stale beyond : Nat → UInt8) (now' : Nat)
    : (r.processDatagram codec ⟨iov.flatten, hfits⟩ stale beyond now').exception = none
        ∧ (receivedBy n (r.processDatagram codec ⟨iov.flatten, hfits⟩ stale beyond now').outputs
          = receivedBy n outputs
        ↔
      pkt.info.priority = 0 ∨ n ∈ otaTransmitters msgs) := by
  obtain ⟨serialized, hserialize, rfl, rfl⟩ := sendOTAPacket_eq_some hsend
  obtain ⟨h, headerLength, harrived, hlength⟩ := arrived_of_vectorIO hfits stale
  have hprocessed := @Arrived.processOTAMessage m r codec pkt msgs serialized h headerLength _
    beyond now' harrived hserialize huuid
  rw [← hlength] at hprocessed
  obtain ⟨houtputs, hexception⟩ := hprocessed
  have hevents : receivedBy n (pkt.attachedEvents.flatMap (fun event =>
      processEventMessage r.eventRegistrationMap event.nemId event.eventId event.serialization 0))
      = receivedBy n (pkt.attachedEvents.flatMap (fun event =>
        processEventMessage m.eventRegistrationMap event.nemId event.eventId
            event.serialization id)) := by
    induction pkt.attachedEvents with
    | nil => rfl
    | cons event events ih =>
      rw [List.flatMap_cons, List.flatMap_cons, receivedBy_append, receivedBy_append, ih,
        receivedBy_processEventMessage (.inl rfl), receivedBy_processEventMessage (.inr hne.symm),
          hregistrations]
  have hnodup : r.nemUserMap.Nodup := r.increasing.imp ne_of_lt
  refine ⟨hexception, ?_⟩
  unfold processDatagram
  rw [houtputs, receivedBy_append, receivedBy_append, hevents, List.append_cancel_left_eq,
    receivedBy_users hr hnodup,
    receivedBy_bounce hn hid hne]
  by_cases hmem : n ∈ otaTransmitters msgs
  . simp [hmem]
  . simp [hmem, UpstreamPacket.create, UpstreamPacket.get, eq_comm]

end

def otherEmulator : OTAManager where
  uuid := .ofByte 7
  nemUserMap := [2, 3]
  increasing := by decide
  eventRegistrationMap := [⟨9, 1, 2⟩]
  bOpen := true
  sequenceNumber := 0

def broadcast (priority : UInt8) : DownstreamPacket where
  info := ⟨1, NEM_BROADCAST_MAC_ADDRESS, priority, 5, .ofByte 0⟩
  segment := [1, 2, 3]
  segments := [[9]]
  attachedEvents := [⟨2, 9, [5, 6]⟩]

def oneByteMessage : ControlMessage :=
  .other ⟨102, ControlMessage.ne_otaTransmitter⟩ (some [4])

def broadcastMessage : List Bytes :=
  [[0, 32], [8, 1, 16, 255, 255, 3, 24, 10, 32, 7, 40, 4, 48, 1, 58, 16] ++ List.replicate 16 0,
    [10, 8, 8, 2, 16, 9, 26, 2, 5, 6], [0, 1], [0, 102, 0, 1], [4], [9], [1, 2, 3]]

theorem receivedBy_remote_example
    : receivedBy 2 (otherEmulator.processDatagram .protobuf ⟨broadcastMessage.flatten, by decide⟩
        (fun _ => 0) (fun _ => 0) 9).outputs
        =
      receivedBy 2 (twoUsers.sendOTAPacket .protobuf 1 (broadcast 0) [oneByteMessage] 6).1
        ∧ (receivedBy 2 (twoUsers.sendOTAPacket .protobuf 1 (broadcast 0)
            [oneByteMessage] 6).1).length = 2 := by
  have hiov : (twoUsers.sendOTAPacket .protobuf 1 (broadcast 0) [oneByteMessage] 6).2.1
      = some broadcastMessage := by
    decide +kernel
  have hremote := @receivedBy_remote_iff twoUsers otherEmulator .protobuf 2 1 (broadcast 0)
    [oneByteMessage] 6 _ broadcastMessage _
    (by decide) (by decide) (by decide) (by decide) (by decide) (by decide)
      (Prod.ext rfl (Prod.ext hiov rfl)) (by decide)
    (fun _ => 0) (fun _ => 0) 9
  exact ⟨hremote.2.mpr (.inl rfl), by decide +kernel⟩

theorem receivedBy_remote_counterexample
    : (twoUsers.sendOTAPacket .protobuf 1 (broadcast 46) [oneByteMessage] 6).2.1 = some broadcastMessage
        ∧
      receivedBy 2 (otherEmulator.processDatagram .protobuf ⟨broadcastMessage.flatten, by decide⟩
        (fun _ => 0) (fun _ => 0) 9).outputs
        ≠
      receivedBy 2 (twoUsers.sendOTAPacket .protobuf 1 (broadcast 46) [oneByteMessage] 6).1 := by
  constructor
  . decide +kernel
  . decide +kernel

end OTAManager
end Emane

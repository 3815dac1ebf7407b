import Emane.Ota.Impl.ControlMessageSerializer

/-!
This module contains the manager of what goes over the air: a packet of an NEM goes to the other
NEMs of the same emulator, and as a datagram to the managers of other emulators, which take it
apart again.
-/

namespace Emane

structure OTAHeader where
  source : UInt32
  destination : UInt32
  eventLength : UInt32
  controlLength : UInt32
  dataLength : UInt32
  sequenceNumber : UInt64
  uuid : Bytes
  deriving DecidableEq

/--
What has been serialized is parsed again if it is not too long for this. Identifiers that have been
parsed are cut to 16 bits.
-/
structure OTACodec where
  encodeHeader : OTAHeader → Bytes
  parseHeader : Bytes → Option OTAHeader
  encodeEvents : List AttachedEvent → Bytes
  parseEvents : Bytes → Option (List AttachedEvent)
  encodeTransmitters : OTATransmitters → Bytes
  parseTransmitters : Bytes → Option OTATransmitters
  parseHeader_encodeHeader : ∀ h, h.uuid.length = 16 → parseHeader (encodeHeader h) = some h
  parseEvents_encodeEvents : ∀ events, (encodeEvents events).length < 2^31
    → parseEvents (encodeEvents events) = some events
  parseTransmitters_encodeTransmitters : ∀ transmitters, (encodeTransmitters transmitters).length < 2^31 →
    parseTransmitters (encodeTransmitters transmitters) = some transmitters
  encodeEvents_nil : encodeEvents [] = []
  uuid_isInfix : ∀ bytes h, parseHeader bytes = some h → h.uuid <:+: bytes
  serialization_isInfix : ∀ bytes events, parseEvents bytes = some events → ∀ event ∈ events,
    event.serialization <:+: bytes

abbrev Datagram := {bytes : Bytes // bytes.length < 2^16}

structure EventRegistration where
  eventId : EventId
  buildId : Nat
  nemId : NEMId
  deriving DecidableEq

structure OTAManager where
  uuid : UUID
  nemUserMap : List NEMId
  increasing : nemUserMap.Pairwise (· < ·)
  eventRegistrationMap : List EventRegistration
  bOpen : Bool
  sequenceNumber : UInt64

namespace OTAManager

inductive Output where
  | processEvent (registration : EventRegistration) (serialization : Bytes)
  | processOTAPacket (id : NEMId) (pkt : UpstreamPacket)
  deriving DecidableEq

def processEventMessage (registrations : List EventRegistration) (nemId : NEMId) (eventId : EventId)
    (serialization : Bytes)
    (ignoreNEM : NEMId)
    : List Output :=
  ((registrations.filter (fun registration => registration.eventId = eventId)).filter (fun registration =>
    (ignoreNEM = 0 ∨ ignoreNEM ≠ registration.nemId)
        ∧ (nemId = 0 ∨ registration.nemId = nemId))).map (fun registration =>
      .processEvent registration serialization)

def otaTransmitters (msgs : List ControlMessage) : OTATransmitters :=
  msgs.foldl
    (fun transmitters msg =>
      match msg with
      | .otaTransmitter otaTransmitters => otaTransmitters
      | .other _ _ => transmitters)
    ∅

def bounce (m : OTAManager) (id : NEMId) (pkt : DownstreamPacket) (transmitters : OTATransmitters)
    (now : Nat) : List Output :=
  if m.nemUserMap.length > 1 then
    let info := ⟨pkt.info.source, pkt.info.destination, pkt.info.priority, now, m.uuid⟩
    let upstreamPacket := UpstreamPacket.create info pkt.getVectorIO.flatten
    (m.nemUserMap.filter (fun user => user ≠ id ∧ user ∉ transmitters)).map
      (fun user => .processOTAPacket user upstreamPacket)
  else
    []

def vectorIO (m : OTAManager) (codec : OTACodec) (pkt : DownstreamPacket)
    (msgs : List SerializedControlMessage)
    (sequenceNumber : UInt64)
    : List Bytes :=
  let eventSerialization := if pkt.attachedEvents.isEmpty then [] else codec.encodeEvents
    pkt.attachedEvents
  let header := codec.encodeHeader {
    source := pkt.info.source.toUInt32
    destination := pkt.info.destination.toUInt32
    dataLength := .ofNat pkt.length
    controlLength := .ofNat (ControlMessageSerializer.getLength msgs)
    eventLength := .ofNat eventSerialization.length
    sequenceNumber := sequenceNumber
    uuid := m.uuid
  }
  [lengthPrefix header.length, header]
    ++ (if eventSerialization.isEmpty then [] else [eventSerialization])
    ++ ControlMessageSerializer.getVectorIO msgs ++ pkt.getVectorIO

def sendOTAPacket (m : OTAManager) (codec : OTACodec) (id : NEMId) (pkt : DownstreamPacket)
    (msgs : List ControlMessage) (now : Nat)
    : List Output × Option (List Bytes) × OTAManager :=
  let events := pkt.attachedEvents.flatMap (fun event =>
    processEventMessage m.eventRegistrationMap event.nemId event.eventId event.serialization id)
  let outputs := events ++ m.bounce id pkt (otaTransmitters msgs) now
  if m.bOpen then
    match ControlMessageSerializer.serialize codec.encodeTransmitters msgs with
    | some serialized =>
      (outputs, some (m.vectorIO codec pkt serialized (m.sequenceNumber + 1)),
        { m with sequenceNumber := m.sequenceNumber + 1 })
    | none => (outputs, none, m)
  else
    (outputs, none, m)

inductive Part where
  | length
  | header
  | events
  | control
  | packet
  deriving DecidableEq

structure Read where
  part : Part
  start : Nat
  length : Nat
  deriving DecidableEq

inductive Exception where
  | controlMessageSerializer (exception : ControlMessageSerializerException)
  | serialization
  deriving DecidableEq

structure Reception where
  reads : List Read := []
  uuid : Option (Bytes × UUID) := none
  outputs : List Output := []
  exception : Option Exception := none
  deriving DecidableEq

def copyUUID (field : Bytes) (beyond : Nat → UInt8) : UUID :=
  ⟨Memory.load (Memory.ofList field beyond) 0 16, Memory.length_load _ _ _⟩

def receiveHeader (codec : OTACodec) (mem : Nat → UInt8) (len : Nat)
    : List Read × Option (Nat × OTAHeader) :=
  -- The header of a message with the right length. The lengths are added with 32 bits.
  if len ≥ 2 then
    let headerLength := ntohs (Memory.load mem 0 2)
    let len := len - 2
    if len ≥ headerLength then
      let reads := [⟨.length, 0, 2⟩, ⟨.header, 2, headerLength⟩]
      match codec.parseHeader (Memory.load mem 2 headerLength) with
      | some h =>
        if len = (h.dataLength.toNat + h.controlLength.toNat + h.eventLength.toNat + headerLength)
            % 2^32 then
          (reads, some (headerLength, h))
        else
          (reads, none)
      | none => (reads, none)
    else
      ([⟨.length, 0, 2⟩], none)
  else
    ([], none)

def receiveEvents (m : OTAManager) (codec : OTACodec) (mem : Nat → UInt8)
    (eventIndex eventLength : Nat) : List Read × List Output :=
  if eventLength ≠ 0 then
    let outputs :=
      match codec.parseEvents (Memory.load mem eventIndex eventLength) with
      | some events =>
        events.flatMap (fun event =>
          processEventMessage m.eventRegistrationMap event.nemId event.eventId event.serialization 0)
      | none => []
    ([⟨.events, eventIndex, eventLength⟩], outputs)
  else
    ([], [])

def parseTransmitters (codec : OTACodec) (msgs : List SerializedControlMessage)
    : Except Exception OTATransmitters :=
  msgs.foldlM
    (fun transmitters msg =>
      if msg.serializedId = EMANE_CONTROL_MEASSGE_OTA_TRANSMITTER then
        match codec.parseTransmitters msg.serialization with
        | some otaTransmitters => .ok otaTransmitters
        | none => .error .serialization
      else
        .ok transmitters)
    ∅

def receiveControl (codec : OTACodec) (mem : Nat → UInt8) (controlIndex controlLength : Nat)
    : List Read × Except Exception OTATransmitters :=
  if controlLength ≠ 0 then
    let (accesses, msgs) := ControlMessageSerializer.create mem controlIndex controlLength
    let reads := accesses.map (fun access => ⟨.control, access.start, access.length⟩)
    match msgs with
    | .ok msgs => (reads, parseTransmitters codec msgs)
    | .error e => (reads, .error (.controlMessageSerializer e))
  else
    ([], .ok ∅)

def processOTAMessage (m : OTAManager) (codec : OTACodec) (mem beyond : Nat → UInt8) (len now : Nat)
    : Reception :=
  -- One turn of the loop, with a message of length `len` in the buffer. The indices have 16 bits.
  -- An exception is not caught.
  let (reads, header) := receiveHeader codec mem len
  match header with
  | some (headerLength, h) =>
    let eventIndex := (2 + headerLength) % 2^16
    let controlIndex := (eventIndex + h.eventLength.toNat) % 2^16
    let packetIndex := (controlIndex + h.controlLength.toNat) % 2^16
    let remoteUUID := copyUUID h.uuid beyond
    if remoteUUID ≠ m.uuid then
      let (eventReads, events) := m.receiveEvents codec mem eventIndex h.eventLength.toNat
      let info := ⟨h.source.toUInt16, h.destination.toUInt16, 0, now, remoteUUID⟩
      let pkt := UpstreamPacket.create info (Memory.load mem packetIndex h.dataLength.toNat)
      let (controlReads, transmitters) := receiveControl codec mem controlIndex h.controlLength.toNat
      let reads := reads ++ eventReads ++ [⟨.packet, packetIndex, h.dataLength.toNat⟩] ++ controlReads
      match transmitters with
      | .ok transmitters => {
          reads := reads
          uuid := some (h.uuid, remoteUUID)
          outputs := events ++ (m.nemUserMap.filter (fun user => user ∉ transmitters)).map
            (fun user => .processOTAPacket user pkt)
        }
      | .error e => { reads := reads, uuid := some (h.uuid, remoteUUID), outputs := events, exception := some e }
    else
      { reads := reads, uuid := some (h.uuid, remoteUUID) }
  | none => { reads := reads }

def processDatagram (m : OTAManager) (codec : OTACodec) (msg : Datagram)
    (stale beyond : Nat → UInt8) (now : Nat) : Reception :=
  m.processOTAMessage codec (Memory.ofList msg.val stale) beyond msg.val.length now

structure Arrival where
  msg : Datagram
  stale : Nat → UInt8
  beyond : Nat → UInt8
  now : Nat

def Arrival.process (arrival : Arrival) (m : OTAManager) (codec : OTACodec) : Reception :=
  m.processDatagram codec arrival.msg arrival.stale arrival.beyond arrival.now

end OTAManager
end Emane

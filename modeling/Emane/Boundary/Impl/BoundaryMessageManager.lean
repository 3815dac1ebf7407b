import Emane.Ota.Impl.OTAManager

/-!
This module contains the messages between an NEM and its transport: packets and control messages
go as datagrams from the one to the other.
-/

namespace Emane

def NETADAPTER_DATA_MSG : Nat := 1

def NETADAPTER_CTRL_MSG : Nat := 2

def NETADAPTER_BROADCAST_ADDRESS : UInt16 := 0xFFFF

def UUID.clear : UUID :=
  .ofByte 0

structure NetAdapterDataMessage where
  src : UInt16
  dst : UInt16
  dataLen : Nat
  ctrlLen : Nat
  priority : UInt8
  deriving DecidableEq

namespace BoundaryMessageManager

def headerToNet (id length : Nat) : Bytes :=
  BigEndian.digits 2 id ++ BigEndian.digits 2 length

def dataMessageToNet (msg : NetAdapterDataMessage) : Bytes :=
  BigEndian.digits 2 msg.src.toNat ++ BigEndian.digits 2 msg.dst.toNat ++ BigEndian.digits 2 msg.dataLen
    ++ BigEndian.digits 2 msg.ctrlLen ++ [msg.priority]

def dataMessageToHost (mem : Nat → UInt8) (start : Nat) : NetAdapterDataMessage where
  src := .ofNat (ntohs (Memory.load mem start 2))
  dst := .ofNat (ntohs (Memory.load mem (start + 2) 2))
  dataLen := ntohs (Memory.load mem (start + 4) 2)
  ctrlLen := ntohs (Memory.load mem (start + 6) 2)
  priority := mem (start + 8)

def sendPacketMessage (encodeTransmitters : OTATransmitters → Bytes) (packetInfo : PacketInfo)
    (packetVector : List Bytes)
    (packetDataLength : Nat) (msgs : List ControlMessage)
    : Option (List Bytes) := do
  let serialized ← ControlMessageSerializer.serialize encodeTransmitters msgs
  let controlLength := ControlMessageSerializer.getLength serialized
  let dataMessage := dataMessageToNet {
    src := packetInfo.source
    dst := packetInfo.destination
    priority := packetInfo.priority
    dataLen := packetDataLength
    ctrlLen := controlLength
  }
  let header := headerToNet NETADAPTER_DATA_MSG (4 + 9 + packetDataLength + controlLength)
  return [header, dataMessage] ++ packetVector ++ ControlMessageSerializer.getVectorIO serialized

def sendControlMessage (encodeTransmitters : OTATransmitters → Bytes) (msgs : List ControlMessage)
    : Option (List Bytes) := do
  let serialized ← ControlMessageSerializer.serialize encodeTransmitters msgs
  let controlLength := ControlMessageSerializer.getLength serialized
  let header := headerToNet NETADAPTER_CTRL_MSG (4 + controlLength + 2)
  return [header, BigEndian.digits 2 controlLength] ++ ControlMessageSerializer.getVectorIO serialized

inductive Output where
  | processPacketMessage (packetInfo : PacketInfo) (packetData : Bytes)
    (msgs : List SerializedControlMessage)
  | processControlMessage (msgs : List SerializedControlMessage)
  deriving DecidableEq

structure Reception where
  outputs : List Output := []
  exception : Option ControlMessageSerializerException := none
  deriving DecidableEq

def receiveDataMessage (mem : Nat → UInt8) (len now : Nat) : Reception :=
  if len ≥ 9 then
    let msg := dataMessageToHost mem 4
    let len := len - 9
    let dstNemId := if msg.dst = NETADAPTER_BROADCAST_ADDRESS then NEM_BROADCAST_MAC_ADDRESS else msg.dst
    if len ≥ msg.dataLen then
      let pinfo := ⟨msg.src, dstNemId, msg.priority, now, UUID.clear⟩
      let len := len - msg.dataLen
      if len = msg.ctrlLen then
        match (ControlMessageSerializer.create mem (13 + msg.dataLen) msg.ctrlLen).2 with
        | .ok controlMessages =>
          { outputs := [.processPacketMessage pinfo
          (Memory.load mem 13 msg.dataLen) controlMessages] }
        | .error e => { exception := some e }
      else
        {}
    else
      {}
  else
    {}

def receiveControlMessage (mem : Nat → UInt8) (len : Nat) : Reception :=
  if len ≥ 2 then
    let ctrlLen := ntohs (Memory.load mem 4 2)
    let len := len - 2
    if len = ctrlLen then
      match (ControlMessageSerializer.create mem 6 ctrlLen).2 with
      | .ok controlMessages => { outputs := [.processControlMessage controlMessages] }
      | .error e => { exception := some e }
    else
      {}
  else
    {}

def processNetworkMessage (mem : Nat → UInt8) (len now : Nat) : Reception :=
  if len ≥ 4 then
    let id := ntohs (Memory.load mem 0 2)
    if len = ntohs (Memory.load mem 2 2) then
      let len := len - 4
      if id = NETADAPTER_DATA_MSG then
        receiveDataMessage mem len now
      else if id = NETADAPTER_CTRL_MSG then
        receiveControlMessage mem len
      else
        {}
    else
      {}
  else
    {}

def processDatagram (msg : Datagram) (now : Nat) : Reception :=
  processNetworkMessage (Memory.ofList msg.val (fun _ => 0)) msg.val.length now

end BoundaryMessageManager
end Emane

import Mathlib.Data.Finset.Basic
import Emane.Packet.Impl.Packet

/-!
This module contains control messages as they go along with a packet over the air: how they are
written, and how they are read from the memory that a message has been received in.
-/

namespace Emane

abbrev ControlMessageId := UInt16

abbrev OTATransmitters := Finset NEMId

def EMANE_CONTROL_MEASSGE_OTA_TRANSMITTER : ControlMessageId := 108

/--
A kind of message that does not say how it is serialized throws an exception when it is asked to.
-/
inductive ControlMessage where
  | otaTransmitter (otaTransmitters : OTATransmitters)
  | other (id : {id : ControlMessageId // id ≠ EMANE_CONTROL_MEASSGE_OTA_TRANSMITTER})
    (serialization : Option Bytes)
  deriving DecidableEq

namespace ControlMessage

def getId : ControlMessage → ControlMessageId
  | otaTransmitter _ => EMANE_CONTROL_MEASSGE_OTA_TRANSMITTER
  | other id _ => id

def serialize (encodeTransmitters : OTATransmitters → Bytes) : ControlMessage → Option Bytes
  | otaTransmitter otaTransmitters => some (encodeTransmitters otaTransmitters)
  | other _ serialization => serialization

end ControlMessage

structure SerializedControlMessage where
  serializedId : ControlMessageId
  serialization : Bytes
  deriving DecidableEq

inductive ControlMessageSerializerException where
  | headerLengthMismatch
  | dataLengthMismatch
  | countMismatch
  | serializerHeaderLengthMismatch
  deriving DecidableEq

structure Access where
  start : Nat
  length : Nat
  deriving DecidableEq

structure VectorAccess where
  segment : Nat
  start : Nat
  length : Nat
  deriving DecidableEq

def ntohs (bytes : Bytes) : Nat :=
  bytes.foldl (BigEndian.shiftIn 16) 0

namespace ControlMessageSerializer

def serialize (encodeTransmitters : OTATransmitters → Bytes) (msgs : List ControlMessage)
    : Option (List SerializedControlMessage) :=
  msgs.mapM (fun msg => do
    let serialization ← msg.serialize encodeTransmitters
    return ⟨msg.getId, serialization⟩)

def getVectorIO (msgs : List SerializedControlMessage) : List Bytes :=
  -- The number of messages, and for each of them its identifier, its length and the message. All
  -- numbers have 16 bits.
  BigEndian.digits 2 msgs.length :: msgs.flatMap (fun msg =>
    [BigEndian.digits 2 msg.serializedId.toNat ++ BigEndian.digits 2 msg.serialization.length,
      msg.serialization])

def getLength (msgs : List SerializedControlMessage) : Nat :=
  2 + (msgs.map (fun msg => 4 + msg.serialization.length)).sum

def create.go (mem : Nat → UInt8)
    : Nat → Nat → Nat
        → List Access × Except ControlMessageSerializerException (List SerializedControlMessage)
  | 0, _, _ => ([], .ok [])
  | count + 1, start, length =>
    if length ≥ 4 then
      let id := UInt16.ofNat (ntohs (Memory.load mem start 2))
      let messageLength := ntohs (Memory.load mem (start + 2) 2)
      if length - 4 ≥ messageLength then
        let msg := ⟨id, Memory.load mem (start + 4) messageLength⟩
        let (accesses, msgs) := create.go mem count (start + 4 + messageLength)
          (length - 4 - messageLength)
        (⟨start, 4⟩ :: ⟨start + 4, messageLength⟩ :: accesses, msgs.map (fun msgs => msg :: msgs))
      else
        ([⟨start, 4⟩], .error .headerLengthMismatch)
    else
      ([], .error .countMismatch)

def create (mem : Nat → UInt8) (start length : Nat)
    : List Access × Except ControlMessageSerializerException (List SerializedControlMessage) :=
  if length ≥ 2 then
    let (accesses, msgs) := create.go mem (ntohs (Memory.load mem start 2)) (start + 2) (length - 2)
    (⟨start, 2⟩ :: accesses, msgs)
  else
    ([], .error .serializerHeaderLengthMismatch)

def createVector.go (iov : List Bytes)
    : Nat → Nat → Option (List VectorAccess × Except ControlMessageSerializerException
        (List SerializedControlMessage))
  -- A segment for each header and one for each message. It is `none` if a segment is asked for
  -- that is not there.
  | 0, _ => some ([], .ok [])
  | count + 1, i => do
    let header ← iov[i * 2 + 1]?
    if header.length = 4 then
      let id := UInt16.ofNat (ntohs (header.take 2))
      let messageLength := ntohs ((header.drop 2).take 2)
      let data ← iov[i * 2 + 2]?
      if data.length = messageLength then
        let msg := ⟨id, data.take messageLength⟩
        let (accesses, msgs) ← createVector.go iov count (i + 1)
        return (⟨i * 2 + 1, 0, 4⟩ :: ⟨i * 2 + 2, 0, messageLength⟩ :: accesses,
          msgs.map (fun msgs => msg :: msgs))
      else
        return ([⟨i * 2 + 1, 0, 4⟩], .error .dataLengthMismatch)
    else
      return ([], .error .headerLengthMismatch)

def createVector (iov : List Bytes)
    : Option (List VectorAccess × Except ControlMessageSerializerException
        (List SerializedControlMessage)) :=
  match iov with
  | [] => some ([], .ok [])
  | header :: _ =>
    if header.length = 2 then
      let count := ntohs header
      if count ≤ (iov.length - 1) / 2 then do
        let (accesses, msgs) ← createVector.go iov count 0
        return (⟨0, 0, 2⟩ :: accesses, msgs)
      else
        some ([⟨0, 0, 2⟩], .error .countMismatch)
    else
      some ([], .error .serializerHeaderLengthMismatch)

end ControlMessageSerializer
end Emane

import Emane.Dlep.Impl.DataItem
import Emane.Lib.Framing

/-!
This module contains signals and messages as bytes: how they are built from a header and data
items, also if a call throws, how they are parsed again, and how the stream of a session is cut
into messages. A signal has a prefix in front of its header.
-/

namespace Emane
namespace Dlep

abbrev SignalIdType := UInt32

inductive Exception where
  | error (e : Error)
  | badSignalName (what : String)
  | badSignalId (what : String)
  | signalIdNotInitialized (what : String)
  | assertion
  deriving DecidableEq

structure IdNameMap where
  entries : List (SignalIdType × String)
  nodup_ids : (entries.map Prod.fst).Nodup
  nodup_names : (entries.map Prod.snd).Nodup
  deriving DecidableEq

namespace IdNameMap

def left (map : IdNameMap) (id : SignalIdType) : Option String :=
  (map.entries.find? (fun entry => entry.1 = id)).map Prod.snd

def right (map : IdNameMap) (name : String) : Option SignalIdType :=
  (map.entries.find? (fun entry => entry.2 = name)).map Prod.fst

end IdNameMap

structure MessageConfig extends ProtocolConfig where
  signalLengthSize : FieldSizeInBytes
  signalIdSize : FieldSizeInBytes
  signalPrefix : Bytes
  signalMap : IdNameMap
  messageMap : IdNameMap
  deriving DecidableEq

namespace MessageConfig

variable (cfg : MessageConfig)

def getSignalId (name : String) : Except Exception (SignalIdType × Bool) :=
  match cfg.signalMap.right name with
  | some id => .ok (id, true)
  | none =>
    match cfg.messageMap.right name with
    | some id => .ok (id, false)
    | none => .error (.badSignalName name)

def getSignalName (id : SignalIdType) : Except Exception String :=
  match cfg.signalMap.left id with
  | some name => .ok name
  | none => .error (.badSignalId (toString id.toNat))

def getMessageName (id : SignalIdType) : Except Exception String :=
  match cfg.messageMap.left id with
  | some name => .ok name
  | none => .error (.badSignalId (toString id.toNat))

end MessageConfig

def rfc8175Wire : MessageConfig where
  dataItemLengthSize := FieldSizeInBytes.two
  dataItemIdSize := FieldSizeInBytes.two
  extensionIdSize := FieldSizeInBytes.two
  dataItemInfoMap := [
    (1, .div_u8_string), (2, .div_u8_ipv4_u16), (3, .div_u8_ipv6_u16), (4, .div_u8_string), (5, .div_u32),
    (6, .div_v_extid), (7, .div_dlepmac), (8, .div_u8_ipv4), (9, .div_u8_ipv6), (10, .div_u8_ipv4_u8),
    (11, .div_u8_ipv6_u8), (12, .div_u64), (13, .div_u64), (14, .div_u64), (15, .div_u64), (16, .div_u64),
    (17, .div_u8), (18, .div_u8), (19, .div_u8), (20, .div_u8), (21, .div_u8), (22, .div_u16)
  ]
  signalLengthSize := FieldSizeInBytes.two
  signalIdSize := FieldSizeInBytes.two
  -- DLEP
  signalPrefix := [68, 76, 69, 80]
  signalMap := {
    entries := [(1, "Peer_Discovery"), (2, "Peer_Offer")]
    nodup_ids := by decide
    nodup_names := by decide
  }
  messageMap := {
    entries := [
      (1, "Session_Initialization"), (2, "Session_Initialization_Response"), (3, "Session_Update"),
      (4, "Session_Update_Response"), (5, "Session_Termination"), (6, "Session_Termination_Response"),
      (7, "Destination_Up"), (8, "Destination_Up_Response"), (9, "Destination_Announce"),
      (10, "Destination_Announce_Response"), (11, "Destination_Down"), (12, "Destination_Down_Response"),
      (13, "Destination_Update"), (14, "Link_Characteristics_Request"),
        (15, "Link_Characteristics_Response"),
      (16, "Heartbeat")
    ]
    nodup_ids := by decide
    nodup_names := by decide
  }

namespace Wire

def text (bytes : Bytes) : String :=
  String.ofList (bytes.map (fun b => Char.ofNat b.toNat))

structure ProtocolMessage where
  msgbuf : Bytes
  msgLenIndex : Nat
  headerLength : Nat
  signalId : SignalIdType
  signalIdInitialized : Bool
  isSignal : Bool
  dataItems : List DataItem
  deriving DecidableEq

def ProtocolMessage.empty : ProtocolMessage :=
  { msgbuf := [], msgLenIndex := 0, headerLength := 0, signalId := 0, signalIdInitialized := false,
    isSignal := false,
    dataItems := [] }

def lift {α : Type} : Except Error α → Except Exception α
  | .ok a => .ok a
  | .error e => .error (.error e)

def overwrite (buf : Bytes) (index : Nat) (bytes : Bytes) : Except Exception Bytes :=
  if index + bytes.length ≤ buf.length then
    .ok (buf.take index ++ bytes ++ buf.drop (index + bytes.length))
  else
    .error (.error (.lengthError "reached end of output buffer"))

namespace ProtocolMessage

variable (cfg : MessageConfig) (pm : ProtocolMessage)

def getSignalName : Except Exception String :=
  if pm.signalIdInitialized then
    if pm.isSignal then cfg.getSignalName pm.signalId else cfg.getMessageName pm.signalId
  else
    .error (.signalIdNotInitialized (toString pm.signalId.toNat))

def addHeader (name : String) : Except Exception ProtocolMessage := do
  let (signalId, isSignal) ← cfg.getSignalId name
  let msgbuf := if isSignal then pm.msgbuf ++ cfg.signalPrefix else pm.msgbuf
  let idbuf ← lift (serializeSized 4 cfg.signalIdSize signalId.toNat)
  let lengthbuf ← lift (serializeSized 4 cfg.signalLengthSize 0)
  return {
    pm with
    msgbuf := msgbuf ++ idbuf ++ lengthbuf
    msgLenIndex := (msgbuf ++ idbuf).length
    headerLength := (msgbuf ++ idbuf ++ lengthbuf).length
    signalId := signalId
    signalIdInitialized := true
    isSignal := isSignal
  }

def updateMessageLength : Except Exception ProtocolMessage := do
  if pm.msgbuf.length < pm.headerLength ∨ pm.msgbuf.length ≤ pm.msgLenIndex then
    throw .assertion
  else
    let lengthbuf ← lift (serializeSized 8 cfg.signalLengthSize (pm.msgbuf.length - pm.headerLength))
    let msgbuf ← overwrite pm.msgbuf pm.msgLenIndex lengthbuf
    return { pm with msgbuf := msgbuf }

def addDataItem (di : DataItem) : Except Exception ProtocolMessage := do
  let dibuf ← lift (di.serialize cfg.toProtocolConfig)
  let pm ← updateMessageLength cfg { pm with msgbuf := pm.msgbuf ++ dibuf }
  let _ ← lift (cfg.getDataItemValueType di.id)
  let _ ← pm.getSignalName cfg
  return pm

def addDataItems (dataItems : List DataItem) : Except Exception ProtocolMessage :=
  dataItems.foldlM (addDataItem cfg) pm

def deref : Bytes → Except Error UInt8
  | [] => .error .undefinedBehaviour
  | b :: _ => .ok b

def skipPrefix (signalPrefix : Bytes) : Bytes → Bytes → Except Error (Except String Bytes)
  -- The loop over the prefix does not look for the end of the buffer. It ends with a text if there
  -- is a mismatch.
  | [], bytes => return .ok bytes
  | ch :: chs, bytes => do
    let b ← deref bytes
    if b ≠ ch then
      return .error
        ("signal prefix " ++ text signalPrefix ++ " mismatch: " ++ text [b] ++ " != " ++ text [ch])
    else
      skipPrefix signalPrefix chs bytes.tail

def deserializeDataItem : Reader UInt8 Error DataItem := do
  -- The header of the data item is read twice. The end of the data item is `it + di_length`: a
  -- length that is negative as a difference of iterators puts it in front of the data item, the
  -- check that it is not behind the end of the buffer passes, and nothing stops a read at the end
  -- of the buffer.
  let bytes ← get
  let _ ← deserializeSized 4 cfg.dataItemIdSize
  let diLen ← deserializeSized 8 cfg.dataItemLengthSize
  set bytes
  if 2^63 ≤ diLen then
    throw .undefinedBehaviour
  else
    DataItem.deserialize cfg.toProtocolConfig

def parseDataItems : Nat → Bytes → List DataItem → List DataItem × Option Error
  | 0, _, dataItems => (dataItems, none)
  | fuel + 1, bytes, dataItems =>
    if bytes.isEmpty then
      (dataItems, none)
    else
      match (deserializeDataItem cfg).run bytes with
      | .error e => (dataItems, some e)
      | .ok (di, rest) => parseDataItems fuel rest (dataItems ++ [di])

def parseBody (bytes : Bytes) : ProtocolMessage × Option Exception :=
  match (deserializeSized 4 cfg.signalIdSize).run bytes with
  | .error e => (pm, some (.error e))
  | .ok (signalId, bytes) =>
    let pm := { pm with signalId := UInt32.ofNat signalId, signalIdInitialized := true }
    match (deserializeSized 8 cfg.signalLengthSize).run bytes with
    | .error e => (pm, some (.error e))
    | .ok (_, bytes) =>
      match pm.getSignalName cfg with
      | .error e => (pm, some e)
      | .ok _ =>
        let (dataItems, e) := parseDataItems cfg bytes.length bytes []
        ({ pm with dataItems := dataItems }, e.map .error)

def caught : Exception → Except Error String
  | .error (.lengthError what) => .ok what
  | .error (.invalidArgument what) => .ok what
  | .error (.badDataItemId what) => .ok what
  | .error .undefinedBehaviour => .error .undefinedBehaviour
  | .badSignalName what => .ok what
  | .badSignalId what => .ok what
  | .signalIdNotInitialized what => .ok what
  | .assertion => .error .undefinedBehaviour

def bailout (logPrefix err : String) : String :=
  if err ≠ "" then err ++ " " ++ logPrefix else err

def parseBuffer (logPrefix : String) : Except Error (String × ProtocolMessage) := do
  let pm := { pm with dataItems := [] }
  if pm.isSignal ∧ pm.msgbuf.length ≤ cfg.signalPrefix.length then
    let err := "signal is too short to have expected prefix " ++ text cfg.signalPrefix
    return (bailout logPrefix err, pm)
  else
    match ← skipPrefix cfg.signalPrefix (if pm.isSignal then cfg.signalPrefix else []) pm.msgbuf with
    | .error err => return (bailout logPrefix err, pm)
    | .ok bytes =>
      match parseBody cfg pm bytes with
      | (pm, none) => return (bailout logPrefix "", pm)
      | (pm, some e) =>
        let err ← caught e
        return (bailout logPrefix err, pm)

def parse (buf : Bytes) (isSignal : Bool) (logPrefix : String)
    : Except Error (String × ProtocolMessage) :=
  parseBuffer cfg { pm with msgbuf := buf, isSignal := isSignal } logPrefix

end ProtocolMessage

def build (cfg : MessageConfig) (name : String) (dataItems : List DataItem)
    : Except Exception ProtocolMessage := do
  let pm ← ProtocolMessage.empty.addHeader cfg name
  pm.addDataItems cfg dataItems

def isCompleteMessage (cfg : MessageConfig) (bytes : Bytes) : Except Error (Option Nat) :=
  -- There is no prefix in front of a message. The size of the message is a `size_t`, it is given
  -- only if all of the message is there.
  let headerSize := cfg.signalIdSize.val + cfg.signalLengthSize.val
  if bytes.length < headerSize then
    return none
  else do
    let (_, bytes') ← (deserializeSized 4 cfg.signalIdSize).run bytes
    let (signalLen, _) ← (deserializeSized 8 cfg.signalLengthSize).run bytes'
    let msgSize := (headerSize + signalLen) % 2^64
    return if msgSize ≤ bytes.length then some msgSize else none

def maxVectorSize : Nat :=
  2^63 - 1

def overwriteState (buf : Bytes) (index : Nat) (bytes : Bytes) : Bytes × Option Exception :=
  match overwrite buf index bytes with
  | .ok buf => (buf, none)
  | .error e => (buf.take index ++ bytes.take (buf.length - index), some e)

namespace ProtocolMessage

variable (cfg : MessageConfig) (pm : ProtocolMessage)

def updateMessageLengthState : ProtocolMessage × Option Exception :=
  if pm.msgbuf.length < pm.headerLength ∨ pm.msgbuf.length ≤ pm.msgLenIndex then
    (pm, some .assertion)
  else
    match lift (serializeSized 8 cfg.signalLengthSize (pm.msgbuf.length - pm.headerLength)) with
    | .error e => (pm, some e)
    | .ok lengthbuf =>
      let (msgbuf, e) := overwriteState pm.msgbuf pm.msgLenIndex lengthbuf
      ({ pm with msgbuf := msgbuf }, e)

def addDataItemState (di : DataItem) : ProtocolMessage × Option Exception :=
  match lift (di.serialize cfg.toProtocolConfig) with
  | .error e => (pm, some e)
  | .ok dibuf =>
    if maxVectorSize < pm.msgbuf.length + dibuf.length then
      (pm, some (.error (.lengthError "vector::_M_range_insert")))
    else
      match updateMessageLengthState cfg { pm with msgbuf := pm.msgbuf ++ dibuf } with
      | (pm, some e) => (pm, some e)
      | (pm, none) =>
        match lift (cfg.getDataItemValueType di.id) with
        | .error e => (pm, some e)
        | .ok _ =>
          match pm.getSignalName cfg with
          | .error e => (pm, some e)
          | .ok _ => (pm, none)

end ProtocolMessage
end Wire

def maxSignalSize : Nat :=
  1024 * 64

inductive ReceiveFault where
  | thrown (e : Error)
  | outOfBounds
  | endless
  deriving DecidableEq

inductive ReadError where
  | messageSize
  | operationAborted
  | eof
  | other
  deriving DecidableEq

structure Receiver where
  signalRecvBuffer : Buffer UInt8 maxSignalSize
  signalRecvLen : Nat

structure Receiver.Result where
  signals : List Bytes
  receiver : Receiver
  nextRead : Option Nat

namespace Receiver

variable (cfg : MessageConfig) (r : Receiver)

def start : Receiver :=
  { signalRecvBuffer := Buffer.fill maxSignalSize 0, signalRecvLen := 0 }

def inBounds {α : Type} : Option α → Except ReceiveFault α
  | some a => .ok a
  | none => .error .outOfBounds

def uncaught {α : Type} : Except Error α → Except ReceiveFault α
  | .ok a => .ok a
  | .error e => .error (.thrown e)

def room : Nat :=
  maxSignalSize - r.signalRecvLen

def moveToFront (expectedMsgLen remainingBytes : Nat)
    : Except ReceiveFault (Buffer UInt8 maxSignalSize) :=
  if remainingBytes > 0 then
    inBounds (r.signalRecvBuffer.move 0 expectedMsgLen remainingBytes)
  else
    return r.signalRecvBuffer

def handleSignals : Nat → Receiver → Except ReceiveFault (List Bytes × Receiver)
  | 0, _ => .error .endless
  | fuel + 1, r => do
    let bytes ← inBounds (r.signalRecvBuffer.read 0 r.signalRecvLen)
    match ← uncaught (Wire.isCompleteMessage cfg bytes) with
    | none => return ([], r)
    | some expectedMsgLen =>
      let signal ← inBounds (r.signalRecvBuffer.read 0 expectedMsgLen)
      let remainingBytes := r.signalRecvLen - expectedMsgLen
      let buffer ← r.moveToFront expectedMsgLen remainingBytes
      let (signals, r) ← handleSignals fuel
        { signalRecvBuffer := buffer, signalRecvLen := remainingBytes }
      return (signal :: signals, r)

def handleSessionReceive (error : Option ReadError) (bytesRecvd : Nat) : Except ReceiveFault Result :=
  match error with
  -- this peer is shutting down
  | some .operationAborted => return { signals := [], receiver := r, nextRead := none }
  -- nothing more to be read, the peer is stopped
  | some .eof => return { signals := [], receiver := r, nextRead := none }
  | some .other => return { signals := [], receiver := r, nextRead := some r.room }
  -- no error, or one that only says that there was more than fits
  | _ => do
    let signalRecvLen := r.signalRecvLen + bytesRecvd
    let (signals, r) ← handleSignals cfg (signalRecvLen + 1) { r with signalRecvLen := signalRecvLen }
    return { signals := signals, receiver := r, nextRead := some r.room }

def receive (chunk : Bytes) : Except ReceiveFault Result := do
  let buffer ← inBounds (r.signalRecvBuffer.write r.signalRecvLen chunk)
  handleSessionReceive cfg { r with signalRecvBuffer := buffer } none chunk.length

def run : Receiver → List Bytes → Except ReceiveFault (List Bytes × Receiver)
  | r, [] => return ([], r)
  | r, chunk :: chunks => do
    let res ← receive cfg r chunk
    let (signals, r) ← run res.receiver chunks
    return (res.signals ++ signals, r)

def Deliverable : Receiver → List Bytes → Prop
  | _, [] => True
  | r, chunk :: chunks =>
    chunk.length ≤ r.room ∧ ∀ res, receive cfg r chunk = .ok res → Deliverable res.receiver chunks

end Receiver
end Dlep
end Emane

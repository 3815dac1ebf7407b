import Emane.Dlep.Impl.Wire

/-!
This module contains the messages of a session as they are after parsing. The protocol
configuration has the id and the type for the name of a data item.
-/

namespace Emane
namespace Dlep

abbrev DlepMac := Bytes

inductive MessageName where
  | heartbeat
  | sessionInitialization
  | sessionInitializationResponse
  | sessionTermination
  | sessionTerminationResponse
  | sessionUpdate
  | sessionUpdateResponse
  | destinationUp
  | destinationUpResponse
  | destinationAnnounce
  | destinationAnnounceResponse
  | destinationDown
  | destinationDownResponse
  | destinationUpdate
  | linkCharacteristicsRequest
  | linkCharacteristicsResponse
  | other (id : Nat)
  deriving DecidableEq

def MessageName.text : MessageName → String
  | heartbeat => "Heartbeat"
  | sessionInitialization => "Session_Initialization"
  | sessionInitializationResponse => "Session_Initialization_Response"
  | sessionTermination => "Session_Termination"
  | sessionTerminationResponse => "Session_Termination_Response"
  | sessionUpdate => "Session_Update"
  | sessionUpdateResponse => "Session_Update_Response"
  | destinationUp => "Destination_Up"
  | destinationUpResponse => "Destination_Up_Response"
  | destinationAnnounce => "Destination_Announce"
  | destinationAnnounceResponse => "Destination_Announce_Response"
  | destinationDown => "Destination_Down"
  | destinationDownResponse => "Destination_Down_Response"
  | destinationUpdate => "Destination_Update"
  | linkCharacteristicsRequest => "Link_Characteristics_Request"
  | linkCharacteristicsResponse => "Link_Characteristics_Response"
  | other id => toString id

def MessageName.ofText (id : Nat) (text : String) : MessageName :=
  ([heartbeat, sessionInitialization, sessionInitializationResponse, sessionTermination,
    sessionTerminationResponse,
    sessionUpdate, sessionUpdateResponse, destinationUp, destinationUpResponse, destinationAnnounce,
    destinationAnnounceResponse, destinationDown, destinationDownResponse, destinationUpdate,
      linkCharacteristicsRequest,
    linkCharacteristicsResponse].find? (fun name => name.text = text)).getD (other id)

inductive StatusName where
  | success
  | unknownMessage
  | invalidMessage
  | unexpectedMessage
  | requestDenied
  | timedOut
  | invalidData
  | invalidDestination
  | notInterested
  | inconsistentData
  | other (id : Nat)
  deriving DecidableEq

inductive DataItemName where
  | macAddress
  | peerType
  | status
  | heartbeatInterval
  | extensionsSupported
  | experimentalDefinition
  | creditRequest
  | creditGrant
  deriving DecidableEq

structure SignalInfo where
  modemSends : Bool
  routerSends : Bool
  response : Option MessageName
  dataItems : List DataItemIdType
  deriving DecidableEq

structure StatusCodeInfo where
  name : StatusName
  failureModeTerminate : Bool
  deriving DecidableEq

/--
How a call can fail: by an exception that is not caught, by an assertion, by going through a
pointer that is null, or because it does not return.
-/
inductive Fault where
  | nullPeerData
  | building (e : Exception)
  | endless
  | dataItemNotPresent (name : DataItemName)
  | dataItemWrongType (name : DataItemName)
  | badDataItemName (name : DataItemName)
  | badSignalName (name : MessageName)
  | badStatusCodeId (id : Nat)
  | assertion
  deriving DecidableEq

structure SessionConfig extends MessageConfig where
  modem : Bool
  metrics : List DataItemIdType
  dataItemId : DataItemName → Option DataItemIdType
  heartbeatDivisor : Nat
  signalInfo : MessageName → Option SignalInfo
  statusCodeInfo : Nat → Option StatusCodeInfo
  statusCodeId : StatusName → Option UInt8
  extensionIds : List ExtensionIdType
  heartbeatThreshold : Nat
  ackTimeout : Nat
  sendTries : Nat
  destAdvertEnabled : Bool
  initialization_sender : ∀ info, signalInfo .sessionInitialization = some info → info.modemSends = false
  initializationResponse_sender : ∀ info, signalInfo .sessionInitializationResponse = some info
    → info.routerSends = false

namespace SessionConfig

variable (cfg : SessionConfig)

def isMetric (id : DataItemIdType) : Bool :=
  cfg.metrics.contains id

def isIpaddr (id : DataItemIdType) : Bool :=
  match cfg.dataItemInfoMap.lookup id with
  | some .div_u8_ipv4 => true
  | some .div_u8_ipv6 => true
  | some .div_ipv4_u8 => true
  | some .div_ipv6_u8 => true
  | some .div_u8_ipv4_u16 => true
  | some .div_u8_ipv6_u16 => true
  | some .div_u8_ipv4_u8 => true
  | some .div_u8_ipv6_u8 => true
  | _ => false

def getDataItemId (name : DataItemName) : Except Fault DataItemIdType :=
  match cfg.dataItemId name with
  | some id => .ok id
  | none => .error (.badDataItemName name)

def getDataItemValueTypeOf (name : DataItemName) : Except Fault (Option DataItemValueType) := do
  let id ← cfg.getDataItemId name
  return cfg.dataItemInfoMap.lookup id

def getSignalInfo (name : MessageName) : Except Fault SignalInfo :=
  match cfg.signalInfo name with
  | some info => .ok info
  | none => .error (.badSignalName name)

def getMessageResponseName (name : MessageName) : Except Fault (Option MessageName) := do
  let info ← cfg.getSignalInfo name
  return info.response

def getStatusCodeInfo (id : Nat) : Except Fault StatusCodeInfo :=
  match cfg.statusCodeInfo id with
  | some info => .ok info
  | none => .error (.badStatusCodeId id)

def addMac (mac : DlepMac) : Except Fault DataItem := do
  let id ← cfg.getDataItemId .macAddress
  return ⟨id, .div_dlepmac mac⟩

def getStatusCodeId : Nat → StatusName → Except Fault UInt8
  -- For a status that is not configured another one is tried, of which there are no more than
  -- three. Without any of them this does not end.
  | 0, _ => .error .endless
  | tries + 1, statusName =>
    match cfg.statusCodeId statusName with
    | some code => .ok code
    | none =>
      match statusName with
      | .invalidMessage => getStatusCodeId tries .invalidData
      | .invalidDestination | .inconsistentData | .invalidData => getStatusCodeId tries .invalidMessage
      | .notInterested => getStatusCodeId tries .requestDenied
      | _ => getStatusCodeId tries .unknownMessage

def addStatus (statusName : StatusName) : Except Fault DataItem := do
  let code ← cfg.getStatusCodeId 3 statusName
  let id ← cfg.getDataItemId .status
  match cfg.dataItemInfoMap.lookup id with
  | some .div_u8 => return ⟨id, .div_u8 code⟩
  | _ => return ⟨id, .div_u8_string code []⟩

def commonStatus (name : MessageName) : Option StatusName :=
  -- of the data items that are filled in by themselves a message about a destination can only have
  -- the status
  match cfg.signalInfo name, cfg.dataItemId .status with
  | some info, some id => if info.dataItems.contains id then some .success else none
  | _, _ => none

def allowsSender (name : MessageName) (modemSender : Bool) : Bool :=
  match cfg.signalInfo name with
  | some info => if modemSender then info.modemSends else info.routerSends
  | none => false

end SessionConfig

structure ProtocolMessage where
  name : MessageName
  dataItems : List DataItem
  deriving DecidableEq

namespace ProtocolMessage

variable (cfg : SessionConfig) (pm : ProtocolMessage)

def getDataItemValue (name : DataItemName) : Except Fault DataItemValue := do
  let id ← cfg.getDataItemId name
  match pm.dataItems.find? (fun di => di.id = id) with
  | some di => .ok di.value
  | none => .error (.dataItemNotPresent name)

def getDataItemExists (name : DataItemName) : Except Fault Bool := do
  let id ← cfg.getDataItemId name
  return pm.dataItems.any (fun di => di.id = id)

def getMac : Except Fault DlepMac := do
  match ← pm.getDataItemValue cfg .macAddress with
  | .div_dlepmac macAddr => .ok macAddr
  | _ => .error (.dataItemWrongType .macAddress)

def getPeerType : Except Fault Bytes := do
  match ← cfg.getDataItemValueTypeOf .peerType, ← pm.getDataItemValue cfg .peerType with
  | some .div_string, .div_string value => .ok value
  | some .div_string, _ => .error (.dataItemWrongType .peerType)
  | _, .div_u8_string _ field2 => .ok field2
  | _, _ => .error (.dataItemWrongType .peerType)

def getStatus : Except Fault StatusCodeInfo := do
  match ← cfg.getDataItemValueTypeOf .status, ← pm.getDataItemValue cfg .status with
  | some .div_u8, .div_u8 value => cfg.getStatusCodeInfo value.toNat
  | some .div_u8, _ => .error (.dataItemWrongType .status)
  | _, .div_u8_string field1 _ => cfg.getStatusCodeInfo field1.toNat
  | _, _ => .error (.dataItemWrongType .status)

def getExperimentNames : Except Fault (List Bytes) := do
  let id ← cfg.getDataItemId .experimentalDefinition
  (pm.dataItems.filter (fun di => di.id = id)).mapM
    (fun di =>
      match di.value with
      | .div_string value => .ok value
      | _ => .error (.dataItemWrongType .experimentalDefinition))

def getHeartbeatInterval : Except Fault Nat := do
  -- the interval has 16 or 32 bits
  match ← cfg.getDataItemValueTypeOf .heartbeatInterval with
  | some .div_u16 =>
    match ← pm.getDataItemValue cfg .heartbeatInterval with
    | .div_u16 value => .ok value.toNat
    | _ => .error (.dataItemWrongType .heartbeatInterval)
  | some .div_u32 =>
    match ← pm.getDataItemValue cfg .heartbeatInterval with
    | .div_u32 value => .ok value.toNat
    | _ => .error (.dataItemWrongType .heartbeatInterval)
  | _ => .error (.dataItemWrongType .heartbeatInterval)

def getExtensions : Except Fault (List ExtensionIdType) := do
  match ← pm.getDataItemValue cfg .extensionsSupported with
  | .div_v_extid field1 => .ok field1
  | _ => .error (.dataItemWrongType .extensionsSupported)

def getMetricsAndIpaddrs : List DataItem :=
  pm.dataItems.filter (fun di => cfg.isMetric di.id || cfg.isIpaddr di.id)

def getDataItemsNoMac : Except Fault (List DataItem) := do
  let id ← cfg.getDataItemId .macAddress
  return pm.dataItems.filter (fun di => di.id ≠ id)

end ProtocolMessage

def optional {α : Type} : Except Fault α → Except Fault (Option α)
  | .ok a => .ok (some a)
  | .error (.dataItemNotPresent _) => .ok none
  | .error fault => .error fault

def optionalName {α : Type} : Except Fault α → Except Fault (Option α)
  | .error (.badDataItemName _) => .ok none
  | res => optional res

inductive HeartbeatUnits where
  | none
  | seconds
  | milliseconds
  | microseconds
  | other
  deriving DecidableEq

def HeartbeatUnits.divisor : HeartbeatUnits → Nat
  | .milliseconds => 1000
  | .microseconds => 1000000
  | _ => 1

structure HeartbeatConfig extends SessionConfig where
  units : HeartbeatUnits
  heartbeatInterval : UInt32
  divisor : heartbeatDivisor = units.divisor

def HeartbeatConfig.convertedInterval (cfg : HeartbeatConfig) : UInt32 :=
  match cfg.units with
  | .milliseconds => cfg.heartbeatInterval * 1000
  | .microseconds => cfg.heartbeatInterval * 1000000
  | _ => cfg.heartbeatInterval

def ProtocolMessage.addHeartbeatInterval (cfg : HeartbeatConfig) (pm : ProtocolMessage)
    : Except Fault ProtocolMessage := do
  let id ← cfg.getDataItemId .heartbeatInterval
  match cfg.dataItemInfoMap.lookup id with
  | some .div_u16 =>
    return { pm with dataItems := pm.dataItems ++ [⟨id, .div_u16 cfg.convertedInterval.toUInt16⟩] }
  | some .div_u32 =>
    return { pm with dataItems := pm.dataItems ++ [⟨id, .div_u32 cfg.convertedInterval⟩] }
  | _ => return pm

end Dlep
end Emane

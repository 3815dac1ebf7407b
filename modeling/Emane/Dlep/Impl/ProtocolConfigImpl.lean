import Emane.Dlep.Impl.InfoBase

/-!
This module contains the protocol configuration as it is loaded from its file: a sequence of
modules, each with data items, signals and status codes. The first module is the core of the
protocol, the others are extensions that may refer to what has been defined before. The nodes are
those that the schema admits, in the order that it gives them.
-/

namespace Emane
namespace Dlep

namespace IdNameMap

def empty : IdNameMap where
  entries := []
  nodup_ids := by simp
  nodup_names := by simp

def insert (map : IdNameMap) (id : SignalIdType) (name : String) : IdNameMap :=
  if h : id ∉ map.entries.map Prod.fst ∧ name ∉ map.entries.map Prod.snd then
    {
      entries := (id, name) :: map.entries
      nodup_ids := List.nodup_cons.mpr ⟨h.1, map.nodup_ids⟩
      nodup_names := List.nodup_cons.mpr ⟨h.2, map.nodup_names⟩
    }
  else
    map

end IdNameMap

abbrev StatusCodeIdType := UInt32

namespace ProtocolConfigImpl

inductive XmlBoolean where
  | word (val : Bool)
  | digit (val : Bool)
  deriving DecidableEq

def XmlBoolean.extract : XmlBoolean → Bool
  | word val => val
  | digit _ => false

def extractId (n : Nat) : UInt32 :=
  UInt32.ofNat (min n (2^32 - 1))

inductive Sender where
  | modem
  | router
  | both
  deriving DecidableEq

inductive Occurs where
  | one
  | zeroOrOne
  | oneOrMore
  | zeroOrMore
  deriving DecidableEq

inductive Units where
  | seconds
  | milliseconds
  | microseconds
  | bitsPerSecond
  | percentage
  | octets
  deriving DecidableEq

inductive FailureMode where
  | continue
  | terminate
  deriving DecidableEq

structure DataItemNode where
  name : String
  type : DataItemValueType
  id : Nat
  metric : XmlBoolean
  units : Option Units
  deriving DecidableEq

structure SignalDataItemNode where
  name : String
  occurs : Occurs
  deriving DecidableEq

structure SignalNode where
  name : String
  id : Option Nat
  message : Option XmlBoolean
  sender : Option Sender
  response : Option String
  dataItems : List SignalDataItemNode
  deriving DecidableEq

structure StatusCodeNode where
  name : String
  id : Nat
  failureMode : FailureMode
  deriving DecidableEq

structure ModuleNode where
  name : String
  draft : String
  experimentName : String
  extensionId : Nat
  dataItems : List DataItemNode
  signals : List SignalNode
  statusCodes : List StatusCodeNode
  deriving DecidableEq

structure Flags where
  message : Bool
  modemSends : Bool
  routerSends : Bool
  deriving DecidableEq

namespace Flags

def clear (flags mask : Flags) : Flags where
  message := flags.message && !mask.message
  modemSends := flags.modemSends && !mask.modemSends
  routerSends := flags.routerSends && !mask.routerSends

def or (flags other : Flags) : Flags where
  message := flags.message || other.message
  modemSends := flags.modemSends || other.modemSends
  routerSends := flags.routerSends || other.routerSends

end Flags

structure DataItemForSignal where
  id : DataItemIdType
  occurs : Occurs
  deriving DecidableEq

structure SignalInfo where
  name : String
  id : SignalIdType
  flags : Flags
  dataItems : List DataItemForSignal
  responseId : SignalIdType
  module : String
  deriving DecidableEq

structure DataItemInfo where
  name : String
  id : DataItemIdType
  valueType : DataItemValueType
  metric : Bool
  module : String
  units : Option Units
  deriving DecidableEq

structure StatusCodeInfo where
  name : String
  id : StatusCodeIdType
  module : String
  failureMode : FailureMode
  deriving DecidableEq

structure ModuleInfo where
  name : String
  draft : String
  experimentName : String
  extensionId : ExtensionIdType
  dataItems : List DataItemIdType
  signals : List SignalIdType
  messages : List SignalIdType
  statusCodes : List StatusCodeIdType
  deriving DecidableEq

inductive ConfigError where
  | badProtocolConfig (what : String)
  | badSignalName (what : String)
  | badSignalId (what : String)
  | badDataItemName (what : String)
  | badDataItemId (what : String)
  | badStatusCodeId (what : String)
  | signalIdNotInitialized (what : String)
  | assertion
  deriving DecidableEq

end ProtocolConfigImpl

structure ProtocolConfigImpl where
  moduleInfoMap : List ProtocolConfigImpl.ModuleInfo
  signalMap : IdNameMap
  signalInfoMap : SortedMap SignalIdType ProtocolConfigImpl.SignalInfo
  messageMap : IdNameMap
  messageInfoMap : SortedMap SignalIdType ProtocolConfigImpl.SignalInfo
  dataItemMap : IdNameMap
  dataItemInfoMap : SortedMap DataItemIdType ProtocolConfigImpl.DataItemInfo
  statusCodeMap : IdNameMap
  statusCodeInfoMap : SortedMap StatusCodeIdType ProtocolConfigImpl.StatusCodeInfo
  signalPrefix : Bytes
  signalLengthSize : FieldSizeInBytes
  signalIdSize : FieldSizeInBytes
  dataItemLengthSize : FieldSizeInBytes
  dataItemIdSize : FieldSizeInBytes
  extensionIdSize : FieldSizeInBytes

namespace ProtocolConfigImpl

def empty (signalPrefix : Bytes)
    (signalLengthSize signalIdSize dataItemLengthSize dataItemIdSize extensionIdSize : FieldSizeInBytes)
    : ProtocolConfigImpl where
  moduleInfoMap := []
  signalMap := .empty
  signalInfoMap := .empty
  messageMap := .empty
  messageInfoMap := .empty
  dataItemMap := .empty
  dataItemInfoMap := .empty
  statusCodeMap := .empty
  statusCodeInfoMap := .empty
  signalPrefix := signalPrefix
  signalLengthSize := signalLengthSize
  signalIdSize := signalIdSize
  dataItemLengthSize := dataItemLengthSize
  dataItemIdSize := dataItemIdSize
  extensionIdSize := extensionIdSize

variable (cfg : ProtocolConfigImpl)

def idNameMap (isMessage : Bool) : IdNameMap :=
  if isMessage then cfg.messageMap else cfg.signalMap

def idInfoMap (isMessage : Bool) : SortedMap SignalIdType SignalInfo :=
  if isMessage then cfg.messageInfoMap else cfg.signalInfoMap

def setIdNameMap (isMessage : Bool) (map : IdNameMap) : ProtocolConfigImpl :=
  if isMessage then { cfg with messageMap := map } else { cfg with signalMap := map }

def setIdInfoMap (isMessage : Bool) (map : SortedMap SignalIdType SignalInfo) : ProtocolConfigImpl :=
  if isMessage then { cfg with messageInfoMap := map } else { cfg with signalInfoMap := map }

def getSignalId (name : String) : Except ConfigError (SignalIdType × Bool) :=
  match cfg.signalMap.right name with
  | some id => .ok (id, true)
  | none =>
    match cfg.messageMap.right name with
    | some id => .ok (id, false)
    | none => .error (.badSignalName name)

def getSignalName (id : SignalIdType) : Except ConfigError String :=
  match cfg.signalMap.left id with
  | some name => .ok name
  | none => .error (.badSignalId (toString id.toNat))

def getMessageName (id : SignalIdType) : Except ConfigError String :=
  match cfg.messageMap.left id with
  | some name => .ok name
  | none => .error (.badSignalId (toString id.toNat))

def getSignalInfo (sigName : String) : Except ConfigError SignalInfo :=
  match ((cfg.signalInfoMap.toList ++ cfg.messageInfoMap.toList).map (fun e => e.2)).find?
      (fun info => info.name = sigName) with
  | some info => .ok info
  | none => .error (.badSignalName sigName)

def getMessageResponseName (msgName : String) : Except ConfigError String :=
  match cfg.getSignalInfo msgName with
  | .error e => .error e
  | .ok siginfo =>
    if siginfo.responseId = 0 then
      .ok ""
    else if siginfo.flags.message then
      cfg.getMessageName siginfo.responseId
    else
      cfg.getSignalName siginfo.responseId

def getDataItemId (name : String) : Except ConfigError DataItemIdType :=
  match cfg.dataItemMap.right name with
  | some id => .ok id
  | none => .error (.badDataItemName name)

def getDataItemName (id : DataItemIdType) : Except ConfigError String :=
  match cfg.dataItemMap.left id with
  | some name => .ok name
  | none => .error (.badDataItemId (toString id.toNat))

def getDataItemInfo (diName : String) : Except ConfigError DataItemInfo :=
  match (cfg.dataItemInfoMap.toList.map (fun e => e.2)).find? (fun info => info.name = diName) with
  | some info => .ok info
  | none => .error (.badDataItemName diName)

def getStatusCodeName (id : StatusCodeIdType) : Except ConfigError String :=
  match cfg.statusCodeMap.left id with
  | some name => .ok name
  | none => .error (.badStatusCodeId (toString id.toNat))

def insertIdNameMapping (idNameMap : IdNameMap) (id : UInt32) (name mapname : String)
    : Except ConfigError IdNameMap :=
  match (idNameMap.left id).filter (fun other => other ≠ name) with
  | some other =>
    .error (.badProtocolConfig
      (mapname ++ " id " ++ toString id.toNat ++ " has multiple names: " ++ other ++ ", " ++ name))
  | none =>
    match (idNameMap.right name).filter (fun other => other ≠ id) with
    | some other =>
      .error (.badProtocolConfig
        (mapname ++ " name " ++ name ++ " has multiple ids: " ++ toString id.toNat ++ ", "
          ++ toString other.toNat))
    | none => .ok (idNameMap.insert id name)

def extractModuleSignalDataItem (node : SignalDataItemNode) : Except ConfigError DataItemForSignal :=
  (cfg.getDataItemId node.name).map (fun id => { id := id, occurs := node.occurs })

def extractResponse (node : SignalNode) : Except ConfigError SignalIdType :=
  match node.response with
  | none => .ok 0
  | some response =>
    match cfg.getSignalId response with
    | .ok (id, _) => .ok id
    | .error _ =>
      .error (.badProtocolConfig ("undefined response " ++ response ++ " for signal " ++ node.name))

namespace SignalNode

variable (node : SignalNode)

def isMessage : Bool :=
  node.message.any XmlBoolean.extract

def flags : Flags where
  message := node.isMessage
  modemSends := node.sender.any (fun sender => sender ≠ .router)
  routerSends := node.sender.any (fun sender => sender ≠ .modem)

def haveFlags : Flags where
  message := node.message.isSome
  modemSends := node.sender.isSome
  routerSends := node.sender.isSome

end SignalNode

def resolveSignal (node : SignalNode) : Except ConfigError (ProtocolConfigImpl × SignalIdType × Bool) :=
  match node.id with
  | some n =>
    if node.message.isNone then
      .error (.badProtocolConfig
        ("definition of signal/message " ++ node.name ++ " must specify a message element"))
    else if node.sender.isNone then
      .error (.badProtocolConfig
        ("definition of signal/message " ++ node.name ++ " must specify a sender element"))
    else
      let mapname := if node.isMessage then "message" else "signal"
      match insertIdNameMapping (cfg.idNameMap node.isMessage) (extractId n) node.name mapname with
      | .ok map => .ok (cfg.setIdNameMap node.isMessage map, extractId n, node.isMessage)
      | .error e => .error e
  | none =>
    match cfg.getSignalId node.name with
    | .ok (id, isSignal) => .ok (cfg, id, !isSignal)
    | .error _ => .error (.badProtocolConfig ("undefined signal/message " ++ node.name))

def SignalInfo.modify (existing : SignalInfo) (node : SignalNode)
    (dataItems : List DataItemForSignal) : SignalInfo where
  name := existing.name
  id := existing.id
  flags := (existing.flags.clear node.haveFlags).or node.flags
  dataItems := existing.dataItems ++ dataItems
  responseId := existing.responseId
  module := existing.module

def ModuleInfo.addSignal (modinfo : ModuleInfo) (isMessage : Bool) (id : SignalIdType) : ModuleInfo :=
  if isMessage then
    { modinfo with messages := modinfo.messages ++ [id] }
  else
    { modinfo with signals := modinfo.signals ++ [id] }

def storeSignal (modinfo : ModuleInfo) (node : SignalNode) (responseId : SignalIdType)
    (dataItems : List DataItemForSignal) (id : SignalIdType) (isMessage : Bool)
    : Except ConfigError (ProtocolConfigImpl × ModuleInfo) :=
  match (cfg.idInfoMap isMessage).find? id with
  | none =>
    if node.id.isNone then
      .error .assertion
    else
      let siginfo : SignalInfo := {
        name := node.name
        id := id
        flags := node.flags
        dataItems := dataItems
        responseId := responseId
        module := modinfo.name
      }
      .ok (cfg.setIdInfoMap isMessage ((cfg.idInfoMap isMessage).set id siginfo),
        modinfo.addSignal isMessage id)
  | some existing =>
    .ok (cfg.setIdInfoMap isMessage
      ((cfg.idInfoMap isMessage).set id (existing.modify node dataItems)), modinfo)

def extractModuleSignal (s : ProtocolConfigImpl × ModuleInfo) (node : SignalNode)
    : Except ConfigError (ProtocolConfigImpl × ModuleInfo) := do
  let responseId ← s.1.extractResponse node
  let dataItems ← node.dataItems.mapM s.1.extractModuleSignalDataItem
  let (cfg, id, isMessage) ← s.1.resolveSignal node
  cfg.storeSignal s.2 node responseId dataItems id isMessage

def extractModuleDataItem (s : ProtocolConfigImpl × ModuleInfo) (node : DataItemNode)
    : Except ConfigError (ProtocolConfigImpl × ModuleInfo) := do
  let id := extractId node.id
  let map ← insertIdNameMapping s.1.dataItemMap id node.name "data_item"
  if s.1.dataItemInfoMap.contains id then
    throw (.badProtocolConfig ("redefinition of data item " ++ node.name))
  else
    let diInfo : DataItemInfo := {
      name := node.name
      id := id
      valueType := node.type
      metric := node.metric.extract
      module := s.2.name
      units := node.units
    }
    return ({ s.1 with dataItemMap := map, dataItemInfoMap := s.1.dataItemInfoMap.set id diInfo },
      { s.2 with dataItems := s.2.dataItems ++ [id] })

def extractModuleStatusCode (s : ProtocolConfigImpl × ModuleInfo) (node : StatusCodeNode)
    : Except ConfigError (ProtocolConfigImpl × ModuleInfo) := do
  let id := extractId node.id
  let map ← insertIdNameMapping s.1.statusCodeMap id node.name "status_code"
  if s.1.statusCodeInfoMap.contains id then
    throw (.badProtocolConfig ("redefinition of status code " ++ node.name))
  else
    let scInfo : StatusCodeInfo := {
      name := node.name
      id := id
      module := s.2.name
      failureMode := node.failureMode
    }
    return ({ s.1 with statusCodeMap := map, statusCodeInfoMap := s.1.statusCodeInfoMap.set id scInfo },
      { s.2 with statusCodes := s.2.statusCodes ++ [id] })

def ModuleNode.modinfo (node : ModuleNode) : ModuleInfo where
  name := node.name
  draft := node.draft
  experimentName := node.experimentName
  extensionId := extractId node.extensionId
  dataItems := []
  signals := []
  messages := []
  statusCodes := []

def extractModule (node : ModuleNode) : Except ConfigError ProtocolConfigImpl := do
  let s ← node.dataItems.foldlM extractModuleDataItem (cfg, node.modinfo)
  let s ← node.signals.foldlM extractModuleSignal s
  let s ← node.statusCodes.foldlM extractModuleStatusCode s
  if s.1.moduleInfoMap.any (fun modinfo => modinfo.name = node.name) then
    throw (.badProtocolConfig ("redefinition of module " ++ node.name))
  else
    return { s.1 with moduleInfoMap := s.1.moduleInfoMap ++ [s.2] }

def toMessageConfig : MessageConfig where
  dataItemLengthSize := cfg.dataItemLengthSize
  dataItemIdSize := cfg.dataItemIdSize
  extensionIdSize := cfg.extensionIdSize
  dataItemInfoMap := cfg.dataItemInfoMap.toList.map (fun e => (e.1, e.2.valueType))
  signalLengthSize := cfg.signalLengthSize
  signalIdSize := cfg.signalIdSize
  signalPrefix := cfg.signalPrefix
  signalMap := cfg.signalMap
  messageMap := cfg.messageMap

end ProtocolConfigImpl
end Dlep
end Emane

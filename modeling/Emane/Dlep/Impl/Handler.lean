import Emane.Dlep.Impl.Peer

/-!
This module contains the handlers for the messages that a peer sends.
-/

namespace Emane
namespace Dlep

inductive IpConflict where
  | alreadyHas (di : DataItem) (owner : IpOwner)
  | notThere (di : DataItem)
  deriving DecidableEq

namespace Session

variable (ctx : Context)

def findIpOwner (di : DataItem) (s : Session) : List (Nat × Peer) → Except Fault (Option IpOwner)
  | [] => .ok none
  | (number, peer) :: peers =>
    match (if number = ctx.self then s.peer else peer).peerPdp with
    | none => .error .nullPeerData
    | some pdp =>
      match pdp.findIpDataItem di with
      | some owner => .ok (some owner)
      | none => findIpOwner di s peers

def validateIpDataItem (existingIpDataItems : List DataItem) (s : Session) (ndi : DataItem)
    : Except Fault (Option IpConflict) :=
  if ndi.isAdd then
    -- see if the local node already has this address, then if any peer does
    match ctx.localPdp.findIpDataItem ndi with
    | some owner => .ok (some (.alreadyHas ndi owner))
    | none => (findIpOwner ctx ndi s ctx.peers).map (fun owner => owner.map (.alreadyHas ndi))
  else if ndi.findIpDataItem existingIpDataItems then
    .ok none
  else
    .ok (some (.notThere ndi))

def validateIpDataItems (existingIpDataItems : List DataItem) (s : Session)
    : List DataItem → Except Fault (Option IpConflict)
  | [] => .ok none
  | ndi :: newDataItems =>
    if ctx.cfg.isIpaddr ndi.id then
      match validateIpDataItem ctx existingIpDataItems s ndi with
      | .error fault => .error fault
      | .ok (some conflict) => .ok (some conflict)
      | .ok none => validateIpDataItems existingIpDataItems s newDataItems
    else
      validateIpDataItems existingIpDataItems s newDataItems

def storeHeartbeatInterval (pm : ProtocolMessage) (s : Session) : Except Fault Session := do
  -- the interval is rounded to the nearest second, in 32 bits
  let interval ← pm.getHeartbeatInterval ctx.cfg
  let divisor := ctx.cfg.heartbeatDivisor
  let sec := if divisor > 1 then (interval + divisor / 2) % 2^32 / divisor else interval
  return { s with peer :=
    { s.peer with peerHeartbeatInterval := interval, peerHeartbeatIntervalSec := sec } }

def storePeerInfo (pm : ProtocolMessage) (s : Session) : Except Fault Session := do
  let peerType ← optional (pm.getPeerType ctx.cfg)
  let experimentNames ← optionalName (pm.getExperimentNames ctx.cfg)
  storeHeartbeatInterval ctx pm
    { s with
      peer := { s.peer with
        peerType := peerType.getD s.peer.peerType
        experimentNames := experimentNames.getD s.peer.experimentNames } }

def addPeer (initialValues : List DataItem) (s : Session) : Session :=
  { s.setPdp (.create ctx.cfg (some s.peer.peerId) initialValues) with
    infoBase := s.infoBase.set s.peer.peerId ctx.self }

def sendAllDestinations (s : Session) : Except Fault Session :=
  ctx.localPdp.destinationData.toList.foldlM
    (fun s e => s.destinationUp ctx e.1 e.2.items.getAllDataItems) s

def sendPeerInitializationResponse (s : Session) : Except Fault Session := do
  let info ← ctx.cfg.getSignalInfo .sessionInitializationResponse
  let dataItems := ctx.localPdp.items.getAllDataItems.filter (fun di => info.dataItems.contains di.id)
  if ctx.env.sendResponse then
    return s.call (.send { name := .sessionInitializationResponse, mac := none, status := none, dataItems := dataItems })
  else
    return s

def advertisePeer (s : Session) : Session :=
  match ctx.cfg.destAdvertEnabled, ctx.env.peerMac with
  | true, some peerMac => s.call (.advertAddDestination peerMac)
  | _, _ => s

def bringUp (dataItems : List DataItem → List DataItem) (s : Session) : Except Fault Session := do
  let s := s.setState .inSession
  let info ← s.getInfo
  (s.call (.peerUp { info with dataItems := dataItems info.dataItems })).sendAllDestinations ctx

def addMutualExtensions (extensions : List ExtensionIdType) (s : Session) : Session :=
  { s with
    peer := { s.peer with
      mutualExtensions := s.peer.mutualExtensions ++ extensions.filter
        (fun extid => ctx.cfg.extensionIds.contains extid) } }

def setMutualExtensions (extensions : List ExtensionIdType) (s : Session) : Session :=
  { s with peer := { s.peer with mutualExtensions := extensions } }

def acceptInitialization (pm : ProtocolMessage) (s : Session) : Except Fault Session := do
  let s ← s.storePeerInfo ctx pm
  let extensions ← optional (pm.getExtensions ctx.cfg)
  let s := (s.addMutualExtensions ctx (extensions.getD [])).addPeer ctx []
  let s ← s.sendPeerInitializationResponse ctx
  let s ← s.bringUp ctx id
  return s.advertisePeer ctx

def handlePeerInitialization (pm : ProtocolMessage) (s : Session) : Except Fault Session := do
  match ← validateIpDataItems ctx [] s pm.dataItems with
  | some _ => s.terminate ctx .invalidData
  | none => s.acceptInitialization ctx pm

def handlePeerInitializationResponse (pm : ProtocolMessage) (s : Session) : Except Fault Session := do
  let (expected, s) ← s.handleResponse ctx pm
  if expected then
    let s ← s.storePeerInfo ctx pm
    let extensions ← optional (pm.getExtensions ctx.cfg)
    let dataItems := pm.getMetricsAndIpaddrs ctx.cfg
    ((s.setMutualExtensions (extensions.getD s.peer.mutualExtensions)).addPeer ctx
      dataItems).bringUp ctx (fun _ => dataItems)
  else
    return s

def handlePeerUpdate (pm : ProtocolMessage) (s : Session) : Except Fault Session := do
  let pdp ← s.peerPdp
  match ← validateIpDataItems ctx pdp.items.ipDataItems s pm.dataItems with
  | some _ => s.terminate ctx .invalidData
  | none =>
    let (status, pdp) := pdp.updateDataItems ctx.cfg pm.dataItems
    let s := (s.setPdp pdp).call (.peerUpdate s.peer.peerId pm.dataItems)
    let s := if ctx.cfg.destAdvertEnabled
      then pm.dataItems.foldl (fun s di => s.call (.advertAddDataitem di)) s else s
    return s.sendSimpleResponse ctx .sessionUpdateResponse (some status) none

def handlePeerUpdateResponse (pm : ProtocolMessage) (s : Session) : Except Fault Session :=
  (s.handleResponse ctx pm).map (fun res => res.2)

def handlePeerTermination (s : Session) : Session :=
  (s.sendSimpleResponse ctx .sessionTerminationResponse none none).stopPeer ctx

def handlePeerTerminationResponse (pm : ProtocolMessage) (s : Session) : Except Fault Session :=
  if s.peer.pstate = .terminating then do
    let (_, s) ← s.handleResponse ctx pm
    return s.stopPeer ctx
  else
    .ok s

def acceptDestination (mac : DlepMac) (dataItems : List DataItem) (s : Session)
    : Except Fault Session := do
  let s := (s.interested mac).call (.destinationUp s.peer.peerId mac dataItems)
  if ctx.env.clientStatus = .success then
    let pdp ← s.peerPdp
    match pdp.addDestination ctx.cfg mac dataItems with
    | some pdp => return s.setPdp pdp
    | none => throw .assertion
  else
    return s

def handleDestinationUp (pm : ProtocolMessage) (s : Session) : Except Fault Session := do
  let mac ← pm.getMac ctx.cfg
  let pdp ← s.peerPdp
  if pdp.validDestination mac then
    match ← ctx.cfg.getMessageResponseName pm.name with
    | some responseName => return s.sendSimpleResponse ctx responseName (some .invalidMessage) (some mac)
    | none => return s
  else
    let _ ← validateIpDataItems ctx [] s pm.dataItems
    let s ← s.acceptDestination ctx mac pm.dataItems
    match ← ctx.cfg.getMessageResponseName pm.name with
    | some responseName =>
      return s.sendSimpleResponse ctx responseName (some ctx.env.clientStatus) (some mac)
    | none => return s

def handleDestinationUpResponse (pm : ProtocolMessage) (s : Session) : Except Fault Session := do
  let mac ← pm.getMac ctx.cfg
  let (expected, s) ← s.handleResponse ctx pm
  if expected then
    let status ← optional (pm.getStatus ctx.cfg)
    let name := (status.map (fun info => info.name)).getD .success
    let s := if name = .notInterested then s.notInterested mac else s
    if name = .success ∧ !ctx.cfg.modem then s.handleDestinationUp ctx pm else return s
  else
    return s

def answerAnnounce (mac : DlepMac) (responseName : MessageName) (status : StatusName) (s : Session)
    : Except Fault Session :=
  if status = .success then do
    let pdp ← s.peerPdp
    return s.setPdp (pdp.setNeedsResponse mac (some responseName))
  else
    return s.sendSimpleResponse ctx responseName (some status) (some mac)

def handleDestinationAnnounce (pm : ProtocolMessage) (s : Session) : Except Fault Session := do
  let mac ← pm.getMac ctx.cfg
  match ← ctx.cfg.getMessageResponseName pm.name with
  | none => throw .assertion
  | some responseName =>
    let pdp ← s.peerPdp
    match pdp.addDestination ctx.cfg mac pm.dataItems with
    | none => s.answerAnnounce ctx mac responseName .invalidMessage
    | some pdp' =>
      let s := (s.interested mac).setPdp pdp'
      match ctx.localPdp.destinationData.find? mac with
      | some ddp => (s.setPdp (pdp'.setNeedsResponse mac
        (some responseName))).destinationUp ctx mac ddp.items.getAllDataItems
      | none =>
        (s.call (.destinationUp s.peer.peerId mac pm.dataItems)).answerAnnounce ctx mac responseName
          ctx.env.clientStatus

def handleDestinationAnnounceResponse (pm : ProtocolMessage) (s : Session) : Except Fault Session :=
  s.handleDestinationUpResponse ctx pm

def handleDestinationUpdate (pm : ProtocolMessage) (s : Session) : Except Fault Session := do
  let mac ← pm.getMac ctx.cfg
  let pdp ← s.peerPdp
  if pdp.validDestination mac then
    let updates ← pm.getDataItemsNoMac ctx.cfg
    let _ ← validateIpDataItems ctx ctx.localPdp.items.ipDataItems s updates
    match pdp.updateDestination ctx.cfg mac updates with
    | some pdp => return (s.setPdp pdp).call (.destinationUpdate s.peer.peerId mac updates)
    | none => return s
  else if ctx.localPdp.validDestination mac then
    if ← pm.getDataItemExists ctx.cfg .creditRequest then
      return s.call (.creditRequest s.peer.peerId mac)
    else
      s.terminate ctx .invalidMessage
  else
    s.terminate ctx .invalidMessage

def handleDestinationDown (pm : ProtocolMessage) (s : Session) : Except Fault Session := do
  let mac ← pm.getMac ctx.cfg
  let pdp ← s.peerPdp
  match pdp.removeDestination mac with
  | some pdp =>
    return ((s.setPdp pdp).call (.destinationDown s.peer.peerId mac)).sendSimpleResponse ctx
      .destinationDownResponse
      (some .success) (some mac)
  | none =>
    if ctx.localPdp.validDestination mac then
      return ((s.notInterested mac).call (.destinationDown s.peer.peerId mac)).sendSimpleResponse ctx
        .destinationDownResponse (some .success) (some mac)
    else
      s.terminate ctx .invalidDestination

def handleDestinationDownResponse (pm : ProtocolMessage) (s : Session) : Except Fault Session := do
  let _ ← pm.getMac ctx.cfg
  let (_, s) ← s.handleResponse ctx pm
  return s

def handleLinkCharacteristicsRequest (pm : ProtocolMessage) (s : Session) : Except Fault Session := do
  let mac ← pm.getMac ctx.cfg
  let dataItems ← pm.getDataItemsNoMac ctx.cfg
  match ctx.localPdp.destinationData.find? mac with
  | none => s.terminate ctx .invalidDestination
  | some ddp =>
    if dataItems.isEmpty then
      s.linkCharacteristicsResponse ctx mac
        (ddp.items.getAllDataItems.filter (fun di => ctx.cfg.isMetric di.id))
    else
      return s.call (.linkcharRequest s.peer.peerId mac dataItems)

def handleLinkCharacteristicsResponse (pm : ProtocolMessage) (s : Session) : Except Fault Session := do
  let mac ← pm.getMac ctx.cfg
  let (expected, s) ← s.handleResponse ctx pm
  if expected then
    let pdp ← s.peerPdp
    let dataItems ← pm.getDataItemsNoMac ctx.cfg
    match pdp.updateDestination ctx.cfg mac dataItems with
    | some pdp => return (s.setPdp pdp).call (.linkcharReply s.peer.peerId mac dataItems)
    | none => s.terminate ctx .invalidDestination
  else
    return s

def checkStatusCodeFailure (pm : ProtocolMessage) (s : Session) : Except Fault (Bool × Session) :=
  if pm.name = .sessionTermination ∨ pm.name = .sessionTerminationResponse then
    .ok (false, s)
  else do
    match ← optional (pm.getStatus ctx.cfg) with
    | some info =>
      if info.failureModeTerminate then return (true, ← s.terminate ctx info.name)
      else return (false, s)
    | none => return (false, s)

def dispatch (pm : ProtocolMessage) (s : Session) : Except Fault Session :=
  match pm.name with
  | .heartbeat => .ok s
  | .destinationUpdate => s.handleDestinationUpdate ctx pm
  | .destinationUp =>
    if ctx.cfg.modem then s.handleDestinationAnnounce ctx pm else s.handleDestinationUp ctx pm
  | .destinationUpResponse => s.handleDestinationUpResponse ctx pm
  | .destinationAnnounce => s.handleDestinationAnnounce ctx pm
  | .destinationAnnounceResponse => s.handleDestinationAnnounceResponse ctx pm
  | .destinationDown => s.handleDestinationDown ctx pm
  | .destinationDownResponse => s.handleDestinationDownResponse ctx pm
  | .linkCharacteristicsRequest => s.handleLinkCharacteristicsRequest ctx pm
  | .linkCharacteristicsResponse => s.handleLinkCharacteristicsResponse ctx pm
  | .sessionUpdate => s.handlePeerUpdate ctx pm
  | .sessionUpdateResponse => s.handlePeerUpdateResponse ctx pm
  | .sessionInitialization => s.handlePeerInitialization ctx pm
  | .sessionInitializationResponse => s.handlePeerInitializationResponse ctx pm
  | .sessionTermination => .ok (s.handlePeerTermination ctx)
  | .sessionTerminationResponse => s.handlePeerTerminationResponse ctx pm
  -- unhandled signal
  | .other _ => .ok s

def handlePeerSignal (signal : Option ProtocolMessage) (s : Session) : Except Fault Session :=
  match signal with
  | none => s.terminate ctx .invalidMessage
  | some pm =>
    if ctx.cfg.allowsSender pm.name (!ctx.cfg.modem) then do
      let (failed, s) ← s.checkStatusCodeFailure ctx pm
      if failed then return s else s.dispatch ctx pm
    else
      s.terminate ctx .invalidMessage

end Session
end Dlep
end Emane

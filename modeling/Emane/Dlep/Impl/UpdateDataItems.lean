import Emane.Dlep.Impl.Peer
import Emane.Dlep.Impl.Validate

/-!
This module contains an update of the data items of a peer, from the check of its metrics to the
message that is built for every session. A call that throws leaves behind what it has done until
then.
-/

namespace Emane
namespace Dlep

open ProtocolConfigImpl Wire

namespace ProtocolConfigImpl

variable (cfg : ProtocolConfigImpl)

def isMetric (id : DataItemIdType) : Except ConfigError Bool :=
  match cfg.dataItemInfoMap.find? id with
  | some diInfo => .ok diInfo.metric
  | none => .error (.badDataItemId (toString id.toNat))

def isIpaddr (id : DataItemIdType) : Except ConfigError Bool :=
  match cfg.dataItemInfoMap.find? id with
  | some diInfo =>
    .ok (diInfo.valueType = .div_u8_ipv4 ∨ diInfo.valueType = .div_u8_ipv6
      ∨ diInfo.valueType = .div_ipv4_u8
      ∨ diInfo.valueType = .div_ipv6_u8 ∨ diInfo.valueType = .div_u8_ipv4_u16
      ∨ diInfo.valueType = .div_u8_ipv6_u16
      ∨ diInfo.valueType = .div_u8_ipv4_u8 ∨ diInfo.valueType = .div_u8_ipv6_u8)
  | none => .error (.badDataItemId (toString id.toNat))

end ProtocolConfigImpl

namespace Update

inductive UpdateError where
  | message (e : Exception)
  | config (e : ConfigError)
  | dataItemNotPresent (name : String)
  | dataItemWrongType (name : String)
  deriving DecidableEq

def UpdateError.ofMessage {α : Type} : Except Exception α → Except UpdateError α
  | .ok a => .ok a
  | .error e => .error (.message e)

def UpdateError.ofConfig {α : Type} : Except ConfigError α → Except UpdateError α
  | .ok a => .ok a
  | .error e => .error (.config e)

structure ResponsePending where
  responseId : SignalIdType
  responseName : String
  msgBuffer : Bytes
  destination : DlepMac
  sendTime : Nat
  sendTries : Nat
  deriving DecidableEq

structure Peer where
  pstate : PeerState
  responsesPending : SortedMap DlepMac (List ResponsePending)
  notInterestedDestinations : List DlepMac
  sent : List Bytes

structure Node where
  pdp : PeerData
  peers : List Peer

open UpdateError

variable (cfg : ProtocolConfigImpl)

def getMac (dataItems : List DataItem) : Except UpdateError DlepMac := do
  let id ← ofConfig (cfg.getDataItemId "MAC_Address")
  match dataItems.find? (fun di => di.id = id) with
  | none => throw (.dataItemNotPresent "MAC_Address")
  | some di =>
    match di.value with
    | .div_dlepmac mac => return mac
    | _ => throw (.dataItemWrongType "MAC_Address")

def getDestination (dataItems : List DataItem) : Except UpdateError DlepMac :=
  -- the only exception that is caught is that there is no address
  match getMac cfg dataItems with
  | .error (.dataItemNotPresent _) => .ok []
  | mac => mac

namespace ResponsePending

def create (pm : Wire.ProtocolMessage) : Except UpdateError ResponsePending := do
  let signalName ← ofConfig (pm.signalName cfg)
  let siginfo ← ofConfig (cfg.getSignalInfo signalName)
  if siginfo.responseId = 0 then
    throw (.config .assertion)
  else
    let responseName ← ofConfig
      (if pm.isSignal then cfg.getSignalName siginfo.responseId else cfg.getMessageName
        siginfo.responseId)
    let destination ← getDestination cfg pm.dataItems
    return {
      responseId := siginfo.responseId
      responseName := responseName
      msgBuffer := pm.msgbuf
      destination := destination
      sendTime := 0
      sendTries := 0
    }

end ResponsePending

namespace Peer

variable (modem : Bool) (now : Nat) (peer : Peer)

def sendMessageExpectingResponse (rp : ResponsePending) : Peer :=
  if rp.destination ∈ peer.notInterestedDestinations then
    peer
  else
    let destQueue := (peer.responsesPending.find? rp.destination).getD []
    if destQueue.isEmpty then
      let rp' := { rp with sendTime := now, sendTries := rp.sendTries + 1 }
      {
        peer with
        responsesPending := peer.responsesPending.set rp.destination [rp']
        sent := peer.sent ++ [rp.msgBuffer]
      }
    else
      { peer with responsesPending := peer.responsesPending.set rp.destination (destQueue ++ [rp]) }

def buildUpdate (updates : List DataItem) : Except UpdateError Wire.ProtocolMessage := do
  let pm ← ofMessage (Wire.ProtocolMessage.empty.addHeader cfg.toMessageConfig "Session_Update")
  match foldUntil (Wire.ProtocolMessage.addDataItemState cfg.toMessageConfig) updates pm with
  | (_, some e) => throw (.message e)
  | (pm, none) =>
    let (err, pm) ← ofMessage (lift (pm.parseBuffer cfg.toMessageConfig "peer_update"))
    if err = "" then
      let _ ← ofConfig (pm.validate cfg modem)
      return pm
    else
      return pm

def peerUpdate (updates : List DataItem) : Peer × Option UpdateError :=
  if peer.pstate = .inSession then
    match buildUpdate cfg modem updates >>= ResponsePending.create cfg with
    | .error e => (peer, some e)
    | .ok rp => (peer.sendMessageExpectingResponse now rp, none)
  else
    (peer, none)

end Peer

def checkUpdates (metricDataItems : SortedMap DataItemIdType DataItem)
    : List DataItem → Except ConfigError Bool
  | [] => return true
  | di :: updates => do
    if ← cfg.isMetric di.id then
      if (metricDataItems.find? di.id).isNone then
        return false
      else
        checkUpdates metricDataItems updates
    else
      checkUpdates metricDataItems updates

def updateOne (items : Items) (di : DataItem) : Items × Option ConfigError :=
  match cfg.isMetric di.id with
  | .error e => (items, some e)
  | .ok true => ({ items with metricDataItems := items.metricDataItems.set di.id di }, none)
  | .ok false =>
    match cfg.isIpaddr di.id with
    | .error e => (items, some e)
    | .ok true => ({ items with ipDataItems := updateIpDataItems items.ipDataItems di }, none)
    | .ok false => (items, none)

def applyOne (s : Items × List DataItem) (di : DataItem) : (Items × List DataItem) × Option ConfigError :=
  match cfg.isMetric di.id with
  | .ok true => (((updateOne cfg s.1 di).1, s.2 ++ [di]), none)
  | _ => (((updateOne cfg s.1 di).1, s.2), (updateOne cfg s.1 di).2)

def DestinationData.update (updates : List DataItem) (ddp : DestinationData)
    : DestinationData × Option ConfigError :=
  ({ ddp with items := (foldUntil (updateOne cfg) updates ddp.items).1 },
    (foldUntil (updateOne cfg) updates ddp.items).2)

def updateDestination (updates : List DataItem) (pdp : PeerData) (mac : DlepMac)
    : PeerData × Option ConfigError :=
  match pdp.destinationData.find? mac with
  | none => (pdp, none)
  | some ddp =>
    ({ pdp with destinationData :=
      pdp.destinationData.set mac (DestinationData.update cfg updates ddp).1 },
      (DestinationData.update cfg updates ddp).2)

def applyUpdates (updates : List DataItem) (pdp : PeerData) : PeerData × Option ConfigError :=
  match foldUntil (applyOne cfg) updates (pdp.items, []) with
  | ((items, _), some e) => ({ pdp with items := items }, some e)
  | ((items, destinationUpdates), none) =>
    if destinationUpdates.isEmpty then
      ({ pdp with items := items }, none)
    else
      foldUntil (updateDestination cfg destinationUpdates) pdp.getDestinations { pdp with items := items }

def updateDataItems (modem : Bool) (now : Nat) (node : Node) (updates : List DataItem) (tellPeers : Bool)
    : Node × Except UpdateError StatusName :=
  match checkUpdates cfg node.pdp.items.metricDataItems updates with
  | .error e => (node, .error (.config e))
  | .ok false => (node, .ok .invalidMessage)
  | .ok true =>
    match applyUpdates cfg updates node.pdp with
    | (pdp, some e) => ({ node with pdp := pdp }, .error (.config e))
    | (pdp, none) =>
      if tellPeers then
        match mapUntil (fun peer => Peer.peerUpdate cfg modem now peer updates) node.peers with
        | (peers, some e) => ({ pdp := pdp, peers := peers }, .error e)
        | (peers, none) => ({ pdp := pdp, peers := peers }, .ok .success)
      else
        ({ node with pdp := pdp }, .ok .success)

end Update
end Dlep
end Emane

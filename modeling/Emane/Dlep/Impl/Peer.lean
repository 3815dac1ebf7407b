import Emane.Dlep.Impl.InfoBase

/-!
This module contains the session with a peer: the responses that it waits for, what it sends, and
how it handles the messages that it receives.
-/

namespace Emane
namespace Dlep

inductive PeerState where
  | connected
  | inSession
  | terminating
  deriving DecidableEq

structure Outgoing where
  name : MessageName
  mac : Option DlepMac
  status : Option StatusName
  dataItems : List DataItem
  deriving DecidableEq

def Outgoing.build (cfg : SessionConfig) (message : Outgoing) : Except Fault Wire.ProtocolMessage := do
  let macItems ← message.mac.toList.mapM cfg.addMac
  let statusItems ← message.status.toList.mapM cfg.addStatus
  match Wire.build cfg.toMessageConfig message.name.text (macItems ++ message.dataItems ++ statusItems) with
  | .ok pm => return pm
  | .error e => throw (.building e)

def Outgoing.create (cfg : SessionConfig) (name : MessageName) (mac : Option DlepMac)
    (dataItems : List DataItem)
    (status : Option StatusName) : Except Fault Outgoing := do
  -- the bytes of the message are not kept, but it is only there if they can be built
  let message : Outgoing := { name := name, mac := mac, status := status, dataItems := dataItems }
  let _ ← message.build cfg
  return message

structure PeerInfo where
  peerId : PeerId
  peerType : Bytes
  extensions : List ExtensionIdType
  experimentNames : List Bytes
  dataItems : List DataItem
  destinations : List DlepMac
  heartbeatInterval : Nat
  deriving DecidableEq

inductive Call where
  | send (message : Outgoing)
  | peerUp (info : PeerInfo)
  | peerDown (peerId : PeerId)
  | peerUpdate (peerId : PeerId) (dataItems : List DataItem)
  | destinationUp (peerId : PeerId) (mac : DlepMac) (dataItems : List DataItem)
  | destinationUpdate (peerId : PeerId) (mac : DlepMac) (dataItems : List DataItem)
  | destinationDown (peerId : PeerId) (mac : DlepMac)
  | creditRequest (peerId : PeerId) (mac : DlepMac)
  | linkcharRequest (peerId : PeerId) (mac : DlepMac) (dataItems : List DataItem)
  | linkcharReply (peerId : PeerId) (mac : DlepMac) (dataItems : List DataItem)
  | advertAddDestination (mac : DlepMac)
  | advertAddDataitem (di : DataItem)
  | advertClearDestinations
  deriving DecidableEq

structure ResponsePending where
  responseName : MessageName
  destination : DlepMac
  message : Outgoing
  sendTime : Nat
  sendTries : Nat
  deriving DecidableEq

def ResponsePending.create (cfg : SessionConfig) (message : Outgoing) : Except Fault ResponsePending :=
  match cfg.getMessageResponseName message.name with
  | .error fault => .error fault
  | .ok none => .error .assertion
  | .ok (some responseName) =>
    .ok {
      responseName := responseName
      destination := message.mac.getD []
      message := message
      sendTime := 0
      sendTries := 0
    }

structure Peer where
  peerId : PeerId
  peerPdp : Option PeerData
  peerType : Bytes
  experimentNames : List Bytes
  pstate : PeerState
  responsesPending : SortedMap DlepMac (List ResponsePending)
  peerHeartbeatInterval : Nat
  peerHeartbeatIntervalSec : Nat
  lastReceiveTime : Nat
  mutualExtensions : List ExtensionIdType
  notInterestedDestinations : List DlepMac

def Peer.create (peerId : PeerId) (now : Nat) : Peer where
  peerId := peerId
  peerPdp := none
  peerType := []
  experimentNames := []
  pstate := .connected
  responsesPending := .empty
  peerHeartbeatInterval := 0
  peerHeartbeatIntervalSec := 0
  lastReceiveTime := now
  mutualExtensions := []
  notInterestedDestinations := []

structure Env where
  now : Nat
  sendResponse : Bool
  clientStatus : StatusName
  peerMac : Option DlepMac

structure Context where
  cfg : SessionConfig
  env : Env
  self : Nat
  localPdp : PeerData
  peers : List (Nat × Peer)

structure Session where
  peer : Peer
  infoBase : SortedMap PeerId Nat
  calls : List Call

namespace Session

def call (c : Call) (s : Session) : Session :=
  { s with calls := s.calls ++ [c] }

def setPdp (pdp : PeerData) (s : Session) : Session :=
  { s with peer := { s.peer with peerPdp := some pdp } }

def peerPdp (s : Session) : Except Fault PeerData :=
  -- every use of `peer_pdp` goes through the pointer
  match s.peer.peerPdp with
  | some pdp => .ok pdp
  | none => .error .nullPeerData

def setState (pstate : PeerState) (s : Session) : Session :=
  { s with peer := { s.peer with pstate := pstate } }

def setPending (pending : SortedMap DlepMac (List ResponsePending)) (s : Session) : Session :=
  { s with peer := { s.peer with responsesPending := pending } }

def setNotInterested (destinations : List DlepMac) (s : Session) : Session :=
  { s with peer := { s.peer with notInterestedDestinations := destinations } }

def isNotInterested (s : Session) (destination : DlepMac) : Bool :=
  s.peer.notInterestedDestinations.contains destination

def notInterested (destination : DlepMac) (s : Session) : Session :=
  s.setNotInterested (s.peer.notInterestedDestinations.insert destination)

def interested (destination : DlepMac) (s : Session) : Session :=
  s.setNotInterested (s.peer.notInterestedDestinations.erase destination)

variable (ctx : Context)

def sendSimpleResponse (responseName : MessageName) (status : Option StatusName)
    (mac : Option DlepMac) (s : Session)
    : Session :=
  if ctx.env.sendResponse then
    s.call (.send { name := responseName, mac := mac, status := status, dataItems := [] })
  else
    s

def sendHead (destination : DlepMac) (s : Session) : Session :=
  if s.isNotInterested destination then
    s
  else
    match s.peer.responsesPending.find? destination with
    | some (rp :: rest) =>
      let rp' := { rp with sendTime := ctx.env.now, sendTries := rp.sendTries + 1 }
      (s.setPending (s.peer.responsesPending.set destination (rp' :: rest))).call (.send rp.message)
    | _ => s

def enqueue (rp : ResponsePending) (s : Session) : Session :=
  let queue := (s.peer.responsesPending.find? rp.destination).getD []
  let s' := s.setPending (s.peer.responsesPending.set rp.destination (queue ++ [rp]))
  if queue.isEmpty then s'.sendHead ctx rp.destination else s'

def sendMessageExpectingResponse (message : Outgoing) (s : Session) : Except Fault Session :=
  match ResponsePending.create ctx.cfg message with
  | .error fault => .error fault
  | .ok rp => .ok (if s.isNotInterested rp.destination then s else s.enqueue ctx rp)

def setStateTerminating (s : Session) : Session :=
  if s.peer.pstate = .terminating then
    s
  else
    let s' := (s.setState .terminating).call (.peerDown s.peer.peerId)
    if ctx.cfg.destAdvertEnabled then s'.call .advertClearDestinations else s'

def stopPeer (s : Session) : Session :=
  s.setStateTerminating ctx

def removePeer (s : Session) : Session :=
  { s with infoBase := s.infoBase.erase s.peer.peerId }

def terminate (status : StatusName) (s : Session) : Except Fault Session :=
  if s.peer.pstate = .terminating then
    .ok s
  else do
    let s ← (s.stopPeer ctx).sendMessageExpectingResponse ctx
      { name := .sessionTermination, mac := none, status := some status, dataItems := [] }
    return s.removePeer

def popPending (destination : DlepMac) (rest : List ResponsePending) (s : Session) : Session :=
  if rest.isEmpty then
    s.setPending (s.peer.responsesPending.erase destination)
  else
    (s.setPending (s.peer.responsesPending.set destination rest)).sendHead ctx destination

def handleResponse (pm : ProtocolMessage) (s : Session) : Except Fault (Bool × Session) := do
  let destination := (← optional (pm.getMac ctx.cfg)).getD []
  match s.peer.responsesPending.find? destination with
  | some (rp :: rest) =>
    if rp.responseName = pm.name then
      return (true, s.popPending ctx destination rest)
    else
      return (false, ← s.terminate ctx .unexpectedMessage)
  | _ => return (false, ← s.terminate ctx .unexpectedMessage)

def activeTime (s : Session) : Nat :=
  -- the sum is converted to 32 bits
  (s.peer.lastReceiveTime + s.peer.peerHeartbeatIntervalSec * ctx.cfg.heartbeatThreshold % 2^32) % 2^32

def checkForActivity (s : Session) : Except Fault (Bool × Session) :=
  if s.peer.peerHeartbeatIntervalSec = 0 then
    .ok (true, s)
  else if s.activeTime ctx ≤ ctx.env.now then
    (s.terminate ctx .timedOut).map (fun s => (false, s))
  else
    .ok (true, s)

def checkForRetransmits.go : List DlepMac → Session → Except Fault Session
  | [], s => .ok s
  | destination :: destinations, s =>
    match s.peer.responsesPending.find? destination with
    | some (rp :: _) =>
      if rp.sendTime + ctx.cfg.ackTimeout < ctx.env.now then
        if rp.sendTries < ctx.cfg.sendTries then
          checkForRetransmits.go destinations (s.sendHead ctx destination)
        else
          s.terminate ctx .timedOut
      else
        checkForRetransmits.go destinations s
    | _ => checkForRetransmits.go destinations s

def checkForRetransmits (s : Session) : Except Fault Session :=
  checkForRetransmits.go ctx (s.peer.responsesPending.toList.map (fun e => e.1)) s

def handleAcktivityTimeout (s : Session) : Except Fault Session := do
  let (active, s) ← s.checkForActivity ctx
  if active then s.checkForRetransmits ctx else return s

def handleHeartbeatTimeout (s : Session) : Session :=
  if s.peer.pstate = .inSession then
    s.call (.send { name := .heartbeat, mac := none, status := none, dataItems := [] })
  else
    s

def destinationUpName (cfg : SessionConfig) : MessageName :=
  if !cfg.modem && (cfg.signalInfo .destinationAnnounce).isSome then .destinationAnnounce
    else .destinationUp

def destinationUp (mac : DlepMac) (initialDataItems : List DataItem) (s : Session)
    : Except Fault Session := do
  let pdp ← s.peerPdp
  match pdp.needsResponse mac with
  | some responseName =>
    let message ← Outgoing.create ctx.cfg responseName (some mac) initialDataItems
      (ctx.cfg.commonStatus responseName)
    return (s.setPdp (pdp.setNeedsResponse mac none)).call (.send message)
  | none =>
    let name := destinationUpName ctx.cfg
    let message ← Outgoing.create ctx.cfg name (some mac) initialDataItems (ctx.cfg.commonStatus name)
    s.sendMessageExpectingResponse ctx message

def destinationDown (mac : DlepMac) (s : Session) : Except Fault Session := do
  let message ← Outgoing.create ctx.cfg .destinationDown (some mac) [] none
  s.sendMessageExpectingResponse ctx message

def destinationUpdate (mac : DlepMac) (updates : List DataItem) (s : Session) : Except Fault Session :=
  if s.isNotInterested mac then
    .ok s
  else do
    let message ← Outgoing.create ctx.cfg .destinationUpdate (some mac) updates none
    return s.call (.send message)

def peerUpdate (updates : List DataItem) (s : Session) : Except Fault Session :=
  if s.peer.pstate = .inSession then do
    let message ← Outgoing.create ctx.cfg .sessionUpdate none updates none
    s.sendMessageExpectingResponse ctx message
  else
    .ok s

def linkCharacteristicsRequest (mac : DlepMac) (requests : List DataItem) (s : Session)
    : Except Fault Session := do
  let message ← Outgoing.create ctx.cfg .linkCharacteristicsRequest (some mac) requests none
  s.sendMessageExpectingResponse ctx message

def linkCharacteristicsResponse (mac : DlepMac) (updates : List DataItem) (s : Session)
    : Except Fault Session :=
  if ctx.env.sendResponse then do
    let message ← Outgoing.create ctx.cfg .linkCharacteristicsResponse (some mac) updates none
    return s.call (.send message)
  else
    .ok s

def startPeer (s : Session) : Except Fault Session :=
  if ctx.cfg.modem then
    .ok s
  else
    s.sendMessageExpectingResponse ctx
      { name := .sessionInitialization, mac := none, status := none, dataItems := [] }

def getInfo (s : Session) : Except Fault PeerInfo := do
  let pdp ← s.peerPdp
  return {
    peerId := s.peer.peerId
    peerType := s.peer.peerType
    extensions := s.peer.mutualExtensions
    experimentNames := s.peer.experimentNames
    dataItems := pdp.items.getAllDataItems
    destinations := pdp.getDestinations
    heartbeatInterval := s.peer.peerHeartbeatInterval
  }

end Session
end Dlep
end Emane

import Emane.Dlep.Impl.Handler

/-!
This module contains the node: its sessions, the calls that its client can make, and its events. A
peer object is known by its number, it stays when the table of peers no longer refers to it.
-/

namespace Emane
namespace Dlep

inductive ReturnStatus where
  | ok
  | invalidDataItem
  | destinationExists
  | destinationDoesNotExist
  | peerDoesNotExist
  deriving DecidableEq

inductive Advert where
  | notFound
  | up (destinations : List DlepMac) (dataItems : List DataItem)
  | down (destinations : List DlepMac)

structure Node where
  objects : List Peer
  peers : SortedMap PeerId Nat
  localPdp : PeerData
  infoBase : SortedMap PeerId Nat
  calls : List Call

namespace Node

def init (localPdp : PeerData) : Node where
  objects := []
  peers := .empty
  localPdp := localPdp
  infoBase := .empty
  calls := []

def peerList (d : Node) : List (Nat × Peer) :=
  d.peers.toList.filterMap (fun e => (d.objects[e.2]?).map (fun peer => (e.2, peer)))

section

variable (cfg : SessionConfig) (env : Env)

def context (d : Node) (number : Nat) : Context where
  cfg := cfg
  env := env
  self := number
  localPdp := d.localPdp
  peers := d.peerList

def session (d : Node) (peer : Peer) : Session where
  peer := peer
  infoBase := d.infoBase
  calls := d.calls

def close (d : Node) (number : Nat) (s : Session) : Node :=
  { d with objects := d.objects.set number s.peer, infoBase := s.infoBase, calls := s.calls }

def withSession (f : Context → Session → Except Fault Session) (d : Node) (number : Nat)
    : Except Fault Node :=
  match d.objects[number]? with
  | none => .ok d
  | some peer => (f (d.context cfg env number) (d.session peer)).map (fun s => d.close number s)

def forPeers (f : Context → Session → Except Fault Session) (d : Node) : Except Fault Node :=
  (d.peers.toList.map (fun e => e.2)).foldlM (withSession cfg env f) d

def addDestination (mac : DlepMac) (dataItems : List DataItem) (d : Node) : Except Fault (Bool × Node) :=
  match d.localPdp.addDestination cfg mac dataItems with
  | none => .ok (false, d)
  | some pdp =>
    (forPeers cfg env (fun ctx s => s.destinationUp ctx mac dataItems)
      { d with localPdp := pdp }).map (fun d => (true, d))

def updateDestination (mac : DlepMac) (updates : List DataItem) (d : Node) : Except Fault (Bool × Node) :=
  match d.localPdp.updateDestination cfg mac updates with
  | none => .ok (false, d)
  | some pdp =>
    (forPeers cfg env (fun ctx s => s.destinationUpdate ctx mac updates)
      { d with localPdp := pdp }).map (fun d => (true, d))

def removeDestination (mac : DlepMac) (d : Node) : Except Fault (Bool × Node) :=
  match d.localPdp.removeDestination mac with
  | none => .ok (false, d)
  | some pdp =>
    (forPeers cfg env (fun ctx s => s.destinationDown ctx mac) { d with localPdp := pdp }).map
      (fun d => (true, d))

def findPeer.go (mac : DlepMac) : List (Nat × Peer) → Except Fault (Option Nat)
  | [] => .ok none
  | (number, peer) :: peers =>
    match peer.peerPdp with
    | none => .error .nullPeerData
    | some pdp => if pdp.validDestination mac then .ok (some number) else findPeer.go mac peers

def findPeer (mac : DlepMac) (d : Node) : Except Fault (Option Nat) :=
  findPeer.go mac d.peerList

def destinationUp (mac : DlepMac) (dataItems : List DataItem) (advert : Advert) (d : Node)
    : Except Fault (ReturnStatus × Node) :=
  if cfg.destAdvertEnabled then
    match advert with
    | .notFound => .ok (.ok, d)
    | .up _ _ => .ok (.destinationExists, d)
    | .down destinations =>
      (destinations.foldlM
        (fun d dest => (addDestination cfg env dest dataItems d).map (fun res => res.2)) d).map
        (fun d => (.ok, d))
  else
    (addDestination cfg env mac dataItems d).map
      (fun res => (if res.1 then .ok else .destinationExists, res.2))

def updateNotOurs (mac : DlepMac) (dataItems : List DataItem) (d : Node)
    : Except Fault (ReturnStatus × Node) := do
  match ← findPeer mac d with
  | none => return (.destinationDoesNotExist, d)
  | some number =>
    (withSession cfg env (fun ctx s => s.destinationUpdate ctx mac dataItems) d number).map
      (fun d => (.ok, d))

def destinationUpdate (mac : DlepMac) (dataItems : List DataItem) (advert : Advert) (d : Node)
    : Except Fault (ReturnStatus × Node) :=
  if cfg.destAdvertEnabled then
    match advert with
    | .notFound => updateNotOurs cfg env mac dataItems d
    | .up destinations entryDataItems =>
      (destinations.foldlM (fun d dest => (updateDestination cfg env dest entryDataItems d).map
        (fun res => res.2)) d).map
        (fun d => (.ok, d))
    | .down _ => .ok (.ok, d)
  else do
    let (found, d') ← updateDestination cfg env mac dataItems d
    if found then return (.ok, d') else updateNotOurs cfg env mac dataItems d'

def removeFromPeer (mac : DlepMac) (s : Session) : Except Fault Session := do
  let pdp ← s.peerPdp
  match pdp.removeDestination mac with
  | some pdp => return s.setPdp pdp
  | none => throw .assertion

def removeNotOurs (mac : DlepMac) (d : Node) : Except Fault (ReturnStatus × Node) := do
  match ← findPeer mac d with
  | none => return (.destinationDoesNotExist, d)
  | some number =>
    let d ← withSession cfg env (fun _ s => removeFromPeer mac s) d number
    (forPeers cfg env (fun ctx s => s.destinationDown ctx mac) d).map (fun d => (.ok, d))

def removeOurs (mac : DlepMac) (d : Node) : Except Fault (ReturnStatus × Node) := do
  let (found, d') ← removeDestination cfg env mac d
  if found then return (.ok, d') else removeNotOurs cfg env mac d'

def destinationDown (mac : DlepMac) (advert : Advert) (d : Node) : Except Fault (ReturnStatus × Node) :=
  if cfg.destAdvertEnabled then
    match advert with
    | .notFound => removeOurs cfg env mac d
    | .up destinations _ =>
      destinations.foldlM
        (fun res dest =>
          (removeDestination cfg env dest res.2).map
            (fun res' => (if res'.1 then res.1 else .destinationDoesNotExist, res'.2)))
        (.ok, d)
    | .down _ => .ok (.ok, d)
  else
    removeOurs cfg env mac d

def peerUpdate (dataItems : List DataItem) (d : Node) : Except Fault (ReturnStatus × Node) :=
  match d.localPdp.updateDataItems cfg dataItems with
  | (.success, pdp) =>
    (forPeers cfg env (fun ctx s => s.peerUpdate ctx dataItems) { d with localPdp := pdp }).map
      (fun d => (.ok, d))
  | (_, _) => .ok (.invalidDataItem, d)

def getPeerInfo (peerId : PeerId) (d : Node) : Except Fault (Option PeerInfo) :=
  match (d.peers.find? peerId).bind (fun number => d.objects[number]?) with
  | none => .ok none
  | some peer => (d.session peer).getInfo.map some

def getDestinationInfo (peerId : PeerId) (mac : DlepMac) (d : Node)
    : Except Fault (ReturnStatus × List DataItem) :=
  match (d.peers.find? peerId).bind (fun number => d.objects[number]?) with
  | none => .ok (.peerDoesNotExist, [])
  | some peer => do
    let pdp ← (d.session peer).peerPdp
    match pdp.destinationData.find? mac with
    | none => return (.destinationDoesNotExist, [])
    | some ddp => return (.ok, ddp.items.getAllDataItems)

def linkcharRequest (mac : DlepMac) (dataItems : List DataItem) (d : Node)
    : Except Fault (ReturnStatus × Node) := do
  match ← findPeer mac d with
  | none => return (.peerDoesNotExist, d)
  | some number =>
    (withSession cfg env (fun ctx s => s.linkCharacteristicsRequest ctx mac dataItems) d number).map
      (fun d => (.ok, d))

def linkcharReply (peerId : PeerId) (mac : DlepMac) (dataItems : List DataItem) (d : Node)
    : Except Fault (ReturnStatus × Node) :=
  match d.peers.find? peerId with
  | none => .ok (.peerDoesNotExist, d)
  | some number => do
    let d ← withSession cfg env (fun ctx s => s.linkCharacteristicsResponse ctx mac dataItems) d number
    match d.localPdp.updateDestination cfg mac dataItems with
    | some pdp => return (.ok, { d with localPdp := pdp })
    | none => return (.destinationDoesNotExist, d)

def terminate (d : Node) : Except Fault Node := do
  let d ← forPeers cfg env (fun ctx s => s.terminate ctx .success) d
  return { d with peers := .empty }

def connect (peerId : PeerId) (d : Node) : Except Fault Node :=
  let number := d.objects.length
  let d' := { d with objects :=
    d.objects ++ [.create peerId env.now], peers := d.peers.set peerId number }
  withSession cfg env (fun ctx s => s.startPeer ctx) d' number

def cleanupExPeers (d : Node) : Node :=
  { d with
    peers := d.peerList.foldl
      (fun peers e => if e.2.pstate = .terminating then peers.erase e.2.peerId else peers) d.peers }

def receive (signal : Option ProtocolMessage) (d : Node) (number : Nat) : Except Fault Node :=
  withSession cfg env
    (fun ctx s => { s with peer := { s.peer with lastReceiveTime := env.now } }.handlePeerSignal ctx
      signal) d number

end

inductive Event where
  | connect (peerId : PeerId)
  | receive (number : Nat) (signal : Option ProtocolMessage)
  | endOfFile (number : Nat)
  | heartbeatTimeout (number : Nat)
  | acktivityTimeout (number : Nat)
  | cleanupExPeers
  | destinationUp (mac : DlepMac) (dataItems : List DataItem) (advert : Advert)
  | destinationUpdate (mac : DlepMac) (dataItems : List DataItem) (advert : Advert)
  | destinationDown (mac : DlepMac) (advert : Advert)
  | peerUpdate (dataItems : List DataItem)
  | getPeerInfo (peerId : PeerId)
  | getDestinationInfo (peerId : PeerId) (mac : DlepMac)
  | linkcharRequest (mac : DlepMac) (dataItems : List DataItem)
  | linkcharReply (peerId : PeerId) (mac : DlepMac) (dataItems : List DataItem)
  | terminate

def handle (cfg : SessionConfig) (d : Node) (env : Env) : Event → Except Fault Node
  | .connect peerId => connect cfg env peerId d
  | .receive number signal => receive cfg env signal d number
  | .endOfFile number => withSession cfg env (fun ctx s => .ok (s.stopPeer ctx)) d number
  | .heartbeatTimeout number => withSession cfg env (fun _ s => .ok s.handleHeartbeatTimeout) d number
  | .acktivityTimeout number => withSession cfg env (fun ctx s => s.handleAcktivityTimeout ctx) d number
  | .cleanupExPeers => .ok d.cleanupExPeers
  | .destinationUp mac dataItems advert => (destinationUp cfg env mac dataItems advert d).map
    (fun res => res.2)
  | .destinationUpdate mac dataItems advert =>
    (destinationUpdate cfg env mac dataItems advert d).map (fun res => res.2)
  | .destinationDown mac advert => (destinationDown cfg env mac advert d).map (fun res => res.2)
  | .peerUpdate dataItems => (peerUpdate cfg env dataItems d).map (fun res => res.2)
  | .getPeerInfo peerId => (getPeerInfo peerId d).map (fun _ => d)
  | .getDestinationInfo peerId mac => (getDestinationInfo peerId mac d).map (fun _ => d)
  | .linkcharRequest mac dataItems => (linkcharRequest cfg env mac dataItems d).map (fun res => res.2)
  | .linkcharReply peerId mac dataItems => (linkcharReply cfg env peerId mac dataItems d).map
    (fun res => res.2)
  | .terminate => terminate cfg env d

def step (cfg : SessionConfig) (d : Node) (e : Env × Event) : Option Node :=
  (handle cfg d e.1 e.2).toOption

end Node

structure Surroundings where
  env : Env
  number : Nat
  localPdp : PeerData
  peers : List (Nat × Peer)

def Surroundings.context (cfg : SessionConfig) (around : Surroundings) : Context where
  cfg := cfg
  env := around.env
  self := around.number
  localPdp := around.localPdp
  peers := around.peers

namespace Session

inductive Input where
  | startPeer
  | receive (signal : Option ProtocolMessage)
  | endOfFile
  | heartbeatTimeout
  | acktivityTimeout
  | destinationUp (mac : DlepMac) (dataItems : List DataItem)
  | destinationUpdate (mac : DlepMac) (dataItems : List DataItem)
  | destinationDown (mac : DlepMac)
  | removeDestination (mac : DlepMac)
  | peerUpdate (dataItems : List DataItem)
  | linkCharacteristicsRequest (mac : DlepMac) (dataItems : List DataItem)
  | linkCharacteristicsResponse (mac : DlepMac) (dataItems : List DataItem)
  | terminate (status : StatusName)

def received (now : Nat) (s : Session) : Session :=
  { s with peer := { s.peer with lastReceiveTime := now } }

def handle (ctx : Context) (s : Session) : Input → Except Fault Session
  | .startPeer => s.startPeer ctx
  | .receive signal => (s.received ctx.env.now).handlePeerSignal ctx signal
  | .endOfFile => .ok (s.stopPeer ctx)
  | .heartbeatTimeout => .ok s.handleHeartbeatTimeout
  | .acktivityTimeout => s.handleAcktivityTimeout ctx
  | .destinationUp mac dataItems => s.destinationUp ctx mac dataItems
  | .destinationUpdate mac dataItems => s.destinationUpdate ctx mac dataItems
  | .destinationDown mac => s.destinationDown ctx mac
  | .removeDestination mac => Node.removeFromPeer mac s
  | .peerUpdate dataItems => s.peerUpdate ctx dataItems
  | .linkCharacteristicsRequest mac dataItems => s.linkCharacteristicsRequest ctx mac dataItems
  | .linkCharacteristicsResponse mac dataItems => s.linkCharacteristicsResponse ctx mac dataItems
  | .terminate status => s.terminate ctx status

def step (cfg : SessionConfig) (s : Session) (e : Surroundings × Input) : Option Session :=
  (s.handle (e.1.context cfg) e.2).toOption

def create (peerId : PeerId) (now : Nat) (infoBase : SortedMap PeerId Nat) : Session where
  peer := .create peerId now
  infoBase := infoBase
  calls := []

end Session

structure Registry where
  node : Node
  connecting : List PeerId
  offersSent : Nat

namespace Registry

def init (localPdp : PeerData) (connecting : List PeerId) : Registry where
  node := .init localPdp
  connecting := connecting
  offersSent := 0

section

variable (cfg : SessionConfig) (env : Env)

def peerState (peerId : PeerId) (d : Node) : Option PeerState :=
  if cfg.modem then
    d.peers.first?.bind (fun e => (d.objects[e.2]?).map (fun p => p.pstate))
  else
    (d.peers.find? peerId).bind (fun number => (d.objects[number]?).map (fun p => p.pstate))

def handleDiscovery (peerId : PeerId) (r : Registry) : Registry :=
  if !cfg.modem then
    r
  else
    match peerState cfg peerId r.node with
    | some _ => r
    | none => { r with offersSent := r.offersSent + 1 }

def startAsyncConnect (peerId : PeerId) (r : Registry) : Registry :=
  { r with connecting := r.connecting ++ [peerId] }

def handlePeerOffer (peerId : PeerId) (r : Registry) : Registry :=
  if cfg.modem then
    r
  else
    match peerState cfg peerId r.node with
    | some _ => r
    | none => r.startAsyncConnect peerId

def handleAsyncMakePeer (peerId : PeerId) (error : Bool) (r : Registry) : Except Fault Registry :=
  let r := { r with connecting := r.connecting.erase peerId }
  if error then
    .ok r
  else
    (r.node.connect cfg env peerId).map (fun d => { r with node := d })

end

inductive Event where
  | discovery (peerId : PeerId)
  | peerOffer (peerId : PeerId)
  | asyncMakePeer (peerId : PeerId) (error : Bool)
  | node (event : Node.Event)

def step (cfg : SessionConfig) (r : Registry) (e : Env × Event) : Option Registry :=
  match e.2 with
  | .discovery peerId => some (r.handleDiscovery cfg peerId)
  | .peerOffer peerId => some (r.handlePeerOffer cfg peerId)
  | .asyncMakePeer peerId error =>
    if cfg.modem || r.connecting.contains peerId then
      (r.handleAsyncMakePeer cfg e.1 peerId error).toOption
    else
      none
  | .node (.connect _) => none
  | .node event => (r.node.step cfg (e.1, event)).map (fun d => { r with node := d })

end Registry
end Dlep
end Emane

import Emane.Dlep.Impl.Service
import Emane.Dlep.Impl.Validate

/-!
This module contains a modem and a router that are in session with each other, and the messages on
the way between them. A message arrives as its bytes, which are parsed and validated. The client
of the modem adds, updates and removes destinations, the client of the router accepts all of them.
-/

namespace Emane
namespace Dlep

structure Protocol where
  cfg : SessionConfig
  impl : ProtocolConfigImpl
  impl_eq : cfg.toMessageConfig = impl.toMessageConfig
  up_sender : cfg.allowsSender .destinationUp true = true
  up_status : cfg.commonStatus .destinationUp = none
  up_response : cfg.getMessageResponseName .destinationUp = .ok (some .destinationUpResponse)
  upResponse_sender : cfg.allowsSender .destinationUpResponse false = true
  down_sender : cfg.allowsSender .destinationDown true = true
  down_response : cfg.getMessageResponseName .destinationDown = .ok (some .destinationDownResponse)
  downResponse_sender : cfg.allowsSender .destinationDownResponse false = true
  update_sender : cfg.allowsSender .destinationUpdate true = true

namespace Protocol

def modem (protocol : Protocol) : SessionConfig :=
  { protocol.cfg with modem := true }

def router (protocol : Protocol) : SessionConfig :=
  { protocol.cfg with modem := false }

end Protocol

inductive LinkFault where
  | session (fault : Fault)
  | message (e : Exception)
  | config (e : ProtocolConfigImpl.ConfigError)
  deriving DecidableEq

namespace Protocol

def parseAndValidate (protocol : Protocol) (modemSender : Bool) (bytes : Bytes)
    : Except LinkFault (Option Wire.ProtocolMessage) := do
  let (err, pm) ← (Wire.lift (Wire.ProtocolMessage.empty.parse protocol.impl.toMessageConfig bytes
    false "handle_peer_signal")).mapError .message
  if err ≠ "" then
    return none
  else
    let err ← (pm.validate protocol.impl modemSender).mapError .config
    return if err ≠ "" then none else some pm

def received (protocol : Protocol) (modemSender : Bool) (m : Outgoing)
    : Except LinkFault (Option ProtocolMessage) := do
  -- What comes of a message on the other side. There is nothing if it is not valid.
  let pm ← (m.build protocol.cfg).mapError .session
  match ← protocol.parseAndValidate modemSender pm.msgbuf with
  | none => return none
  | some pm =>
    let name ← (pm.signalName protocol.impl).mapError .config
    return some { name := .ofText pm.signalId.toNat name, dataItems := pm.dataItems }

end Protocol

structure Link where
  modem : Node
  router : Node
  toRouter : List Outgoing
  toModem : List Outgoing

namespace Link

def sends (calls : List Call) : List Outgoing :=
  calls.filterMap (fun c =>
    match c with
    | .send message => some message
    | _ => none)

def setModem (link : Link) (d : Node) : Link :=
  { link with modem := { d with calls := [] }, toRouter := link.toRouter ++ sends d.calls }

def setRouter (link : Link) (d : Node) : Link :=
  { link with router := { d with calls := [] }, toModem := link.toModem ++ sends d.calls }

inductive Event where
  | addDestination (mac : DlepMac) (dataItems : List DataItem)
  | updateDestination (mac : DlepMac) (updates : List DataItem)
  | removeDestination (mac : DlepMac)
  | deliverToRouter
  | deliverToModem
  | modemRetransmits
  | routerRetransmits

variable (protocol : Protocol)

def handle (link : Link) (env : Env) : Event → Except LinkFault Link
  | .addDestination mac dataItems =>
    ((Node.addDestination protocol.modem env mac dataItems link.modem).mapError .session).map
      (fun res => link.setModem res.2)
  | .updateDestination mac updates =>
    ((Node.updateDestination protocol.modem env mac updates link.modem).mapError .session).map
      (fun res => link.setModem res.2)
  | .removeDestination mac =>
    ((Node.removeDestination protocol.modem env mac link.modem).mapError .session).map
      (fun res => link.setModem res.2)
  | .deliverToRouter =>
    match link.toRouter with
    | [] => .ok link
    | m :: toRouter => do
      let signal ← protocol.received true m
      let d ← (Node.receive protocol.router { env with clientStatus := .success } signal link.router
        0).mapError .session
      return { link with toRouter := toRouter }.setRouter d
  | .deliverToModem =>
    match link.toModem with
    | [] => .ok link
    | m :: toModem => do
      let signal ← protocol.received false m
      let d ← (Node.receive protocol.modem env signal link.modem 0).mapError .session
      return { link with toModem := toModem }.setModem d
  | .modemRetransmits =>
    ((Node.withSession protocol.modem env (fun ctx s => s.checkForRetransmits ctx) link.modem
      0).mapError .session).map
      (fun d => link.setModem d)
  | .routerRetransmits =>
    ((Node.withSession protocol.router env (fun ctx s => s.checkForRetransmits ctx) link.router
      0).mapError .session).map
      (fun d => link.setRouter d)

def step (link : Link) (e : Env × Event) : Option Link :=
  (handle protocol link e.1 e.2).toOption

end Link
end Dlep
end Emane

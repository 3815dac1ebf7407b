import Mathlib.Algebra.Group.Nat.Defs
import Emane.Lib.Machine

/-!
This module contains the two ends of the flow control between a transport and a MAC layer. The
counters have 16 bits. A control message carries nothing but a number of tokens. Between the two
there is a channel in each direction: token messages go upstream, the echoes of the transport and
its packets go downstream, in the order in which they are sent.
-/

namespace Emane

structure FlowControlManager where
  tokensAvailable : Nat
  totalTokensAvailable : Nat
  shadowTokenCount : Nat
  lastTokensUpdate : Nat
  ackPending : Bool
  deriving DecidableEq

namespace FlowControlManager

def init : FlowControlManager where
  tokensAvailable := 0
  totalTokensAvailable := 0
  shadowTokenCount := 0
  lastTokensUpdate := 0
  ackPending := true

def sendFlowControlResponseMessage (m : FlowControlManager) : List Nat × FlowControlManager :=
  (
    [m.tokensAvailable],
    { m with
      shadowTokenCount := m.tokensAvailable
      lastTokensUpdate := m.tokensAvailable
      ackPending := true }
  )

def start (m : FlowControlManager) (totalTokensAvailable : Nat) : List Nat × FlowControlManager :=
  sendFlowControlResponseMessage
    { m with
      totalTokensAvailable := totalTokensAvailable
      tokensAvailable := totalTokensAvailable }

def stop (m : FlowControlManager) : FlowControlManager :=
  { m with
    totalTokensAvailable := 0
    tokensAvailable := 0
    shadowTokenCount := 0 }

def addToken (m : FlowControlManager) (tokens : Nat) : Bool × List Nat × FlowControlManager :=
  -- The sum in the test is not one of 16 bits. Either all tokens are added or none.
  let status := m.tokensAvailable + tokens ≤ m.totalTokensAvailable
  let m' := if status then { m with tokensAvailable := (m.tokensAvailable + tokens) % 2^16 } else m
  if m'.shadowTokenCount = 0 ∧ m'.tokensAvailable > 0 then
    (status, m'.sendFlowControlResponseMessage)
  else
    (status, [], m')

def removeToken (m : FlowControlManager) : Bool × FlowControlManager :=
  if m.ackPending then
    (false, m)
  else if m.tokensAvailable = 0 then
    (false, m)
  else
    (
      true,
      { m with
        tokensAvailable := m.tokensAvailable - 1
        shadowTokenCount := (m.shadowTokenCount + (2^16 - 1)) % 2^16 }
    )

def processFlowControlMessage (m : FlowControlManager) (tokens : Nat) : List Nat × FlowControlManager :=
  if m.ackPending = false then
    -- upstream layer start or restart condition detected
    m.sendFlowControlResponseMessage
  else if tokens = m.lastTokensUpdate then
    ([], { m with ackPending := false })
  else
    -- upstream layer missed the initial token message
    m.sendFlowControlResponseMessage

end FlowControlManager

structure FlowControlClient where
  tokensAvailable : Nat
  deriving DecidableEq

namespace FlowControlClient

def init : FlowControlClient where
  tokensAvailable := 0

def start (c : FlowControlClient) : List Nat :=
  [c.tokensAvailable]

def removeToken (c : FlowControlClient) : Option FlowControlClient :=
  if c.tokensAvailable = 0 then
    none
  else
    some { c with tokensAvailable := c.tokensAvailable - 1 }

def processFlowControlMessage (c : FlowControlClient) (tokens : Nat) : List Nat × FlowControlClient :=
  ([tokens], { c with tokensAvailable := tokens })

end FlowControlClient

inductive DownstreamMessage where
  | flowControl (tokens : Nat)
  | packet
  deriving DecidableEq

structure Handshake where
  client : FlowControlClient
  taken : Nat
  upstream : List Nat
  downstream : List DownstreamMessage
  manager : FlowControlManager
  held : Nat
  deriving DecidableEq

namespace Handshake

def init (totalTokensAvailable : Nat) : Handshake :=
  let (messages, manager) := FlowControlManager.init.start totalTokensAvailable
  {
    client := .init
    taken := 0
    upstream := messages
    downstream := []
    manager := manager
    held := 0
  }

inductive Event where
  | start
  | removeToken
  | sendDownstreamPacket
  | deliverUpstream
  | deliverDownstream
  | addToken (tokens : Nat)
  deriving DecidableEq

def start (s : Handshake) : Handshake :=
  { s with downstream := s.downstream ++ s.client.start.map .flowControl }

def processDownstream (s : Handshake) : DownstreamMessage → Handshake
  | .flowControl tokens =>
    let (messages, manager) := s.manager.processFlowControlMessage tokens
    { s with upstream := s.upstream ++ messages, manager := manager }
  | .packet =>
    let (status, manager) := s.manager.removeToken
    if status then
      { s with manager := manager, held := s.held + 1 }
    else
      -- the packet is dropped
      { s with manager := manager }

def processUpstream (s : Handshake) (tokens : Nat) : Handshake :=
  let (messages, client) := s.client.processFlowControlMessage tokens
  { s with client := client, downstream := s.downstream ++ messages.map .flowControl }

def addToken (s : Handshake) (tokens : Nat) : Handshake :=
  let (_, messages, manager) := s.manager.addToken tokens
  { s with upstream := s.upstream ++ messages, manager := manager, held := s.held - tokens }

def step (s : Handshake) : Event → Option Handshake
  | .start => some s.start
  | .removeToken => do
    let client ← s.client.removeToken
    return { s with client := client, taken := s.taken + 1 }
  | .sendDownstreamPacket =>
    if s.taken = 0 then
      none
    else
      some { s with taken := s.taken - 1, downstream := s.downstream ++ [.packet] }
  | .deliverUpstream =>
    match s.upstream with
    | [] => none
    | tokens :: upstream => some ({ s with upstream := upstream }.processUpstream tokens)
  | .deliverDownstream =>
    match s.downstream with
    | [] => none
    | message :: downstream => some ({ s with downstream := downstream }.processDownstream message)
  | .addToken tokens => if 0 < tokens ∧ tokens ≤ s.held then some (s.addToken tokens) else none

end Handshake
end Emane

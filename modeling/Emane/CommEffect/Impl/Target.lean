import Emane.Packet.Impl.Packet

/-!
This module contains the targets of filters: rules for Ethernet frames, with rules for what is in
them. A rule looks into the buffer with a frame, what it reads there and how it shortens the
length is in the log.
-/

namespace Emane
namespace CommEffect

open NetUtils

inductive IPProtocolRule where
  | udp (srcPort dstPort : UInt16)
  | simple (type : UInt8)
  deriving DecidableEq

structure EthernetProtocolIPv4Rule where
  src : UInt32
  dst : UInt32
  len : UInt16
  tos : UInt8
  ttl : UInt8
  rules : List IPProtocolRule
  deriving DecidableEq

structure Target where
  rules : List EthernetProtocolIPv4Rule
  deriving DecidableEq

abbrev Frame := {bytes : List UInt8 // bytes.length < 2^64}

def differs (care : Nat) (f : Field) (mem : Nat → UInt8) (header : Nat) : Logged BufferStep Bool :=
  if care ≠ 0 then do
    let value ← f.read mem header
    return value ≠ care
  else
    return false

namespace IPProtocolRule

def matchUDP (srcPort dstPort : UInt16) (mem : Nat → UInt8) (buf len type : Nat)
    : Logged BufferStep Bool := do
  if type ≠ IP_PROTO_UDP then
    return false
  else if srcPort = 0 ∧ dstPort = 0 then
    return true
  else if len < UDP_HEADER_LEN then
    return false
  else if ← differs srcPort.toNat UdpHeader.src mem buf then
    return false
  else if ← differs dstPort.toNat UdpHeader.dst mem buf then
    return false
  else
    return true

def matchSimple (ownType : UInt8) (type : Nat) : Logged BufferStep Bool :=
  return type = ownType.toNat

def matchBuf (rule : IPProtocolRule) (mem : Nat → UInt8) (buf len type : Nat) : Logged BufferStep Bool :=
  match rule with
  | .udp srcPort dstPort => matchUDP srcPort dstPort mem buf len type
  | .simple ownType => matchSimple ownType type

end IPProtocolRule

namespace EthernetProtocolIPv4Rule

def bCare (rule : EthernetProtocolIPv4Rule) : Bool :=
  ¬(rule.src = 0 ∧ rule.dst = 0 ∧ rule.len = 0 ∧ rule.tos = 0 ∧ rule.ttl = 0 ∧ rule.rules = [])

def matchNested (rule : EthernetProtocolIPv4Rule) (mem : Nat → UInt8) (buf len : Nat)
    : Logged BufferStep Bool := do
  let vhl ← Ip4Header.vhl.read mem buf
  let offset := (vhl &&& 0x0F) <<< 2
  let rest ← BufferStep.sub 64 len offset
  let proto ← Ip4Header.proto.read mem buf
  Logged.findIf (fun nested => nested.matchBuf mem (buf + offset) rest proto) rule.rules

def matchFields (rule : EthernetProtocolIPv4Rule) (mem : Nat → UInt8) (buf : Nat)
    (behind : Logged BufferStep Bool)
    : Logged BufferStep Bool := do
  if ← differs rule.src.toNat Ip4Header.src mem buf then
    return false
  else if ← differs rule.dst.toNat Ip4Header.dst mem buf then
    return false
  else if ← differs rule.len.toNat Ip4Header.len mem buf then
    return false
  else if ← differs rule.tos.toNat Ip4Header.tos mem buf then
    return false
  else if ← differs rule.ttl.toNat Ip4Header.hops mem buf then
    return false
  else
    behind

def matchBuf (rule : EthernetProtocolIPv4Rule) (mem : Nat → UInt8) (buf len type : Nat)
    : Logged BufferStep Bool :=
  if type ≠ ETH_P_IPV4 then
    return false
  else if rule.bCare = false then
    return true
  else if len < IPV4_HEADER_LEN then
    return false
  else
    rule.matchFields mem buf (if rule.rules.isEmpty then return true else rule.matchNested mem buf len)

end EthernetProtocolIPv4Rule

namespace Target

def matchBuf (target : Target) (mem : Nat → UInt8) (buf len : Nat) : Logged BufferStep Bool := do
  if target.rules.isEmpty then
    return true
  else if len < ETH_HEADER_LEN then
    return false
  else
    let rest ← BufferStep.sub 64 len ETH_HEADER_LEN
    let proto ← EtherHeader.proto.read mem buf
    Logged.findIf (fun rule => rule.matchBuf mem (buf + ETH_HEADER_LEN) rest proto) target.rules

def matchFrame (target : Target) (frame : Frame) (beyond : Nat → UInt8) : Logged BufferStep Bool :=
  target.matchBuf (Memory.ofList frame.val beyond) 0 frame.val.length

end Target

end CommEffect
end Emane

import Emane.Lib.SortedMap
import Emane.Packet.Impl.Packet

/-!
This module contains the transport of Ethernet frames between the layers and a device of the
kernel. What is read from the buffer with a frame is in the log.
-/

namespace Emane
namespace Transport

open NetUtils

def ETH_ARPOP_REQUEST : Nat :=
  0x0001

def ETH_ARPOP_REPLY : Nat :=
  0x0002

def IP6_ICMP_NEIGH_SOLICIT : Nat :=
  135

def IP6_ICMP_NEIGH_ADVERT : Nat :=
  136

abbrev EtherAddr := Nat

structure EthernetTransport where
  bBroadcastMode : Bool
  bArpCacheMode : Bool
  macCache : SortedMap EtherAddr NEMId

def addrToId (multicast : List UInt8) (addr : List UInt8) : NEMId :=
  if addr.take multicast.length = multicast then
    NEM_BROADCAST_MAC_ADDRESS
  else if addr = List.replicate 6 0xFF then
    NEM_BROADCAST_MAC_ADDRESS
  else
    .ofNat (networkOrder (addr.drop 4))

def ethaddr4ToId (addr : List UInt8) : NEMId :=
  addrToId [0x01, 0x00, 0x5E] addr

def ethaddr6ToId (addr : List UInt8) : NEMId :=
  addrToId [0x33, 0x33] addr

def verifyFrame (mem : Nat → UInt8) (buf len : Nat) : Logged BufferStep Int := do
  -- A negative number for an error. A protocol that is not known is none.
  if len < ETH_HEADER_LEN then
    return -1
  else
    let ethProtocol ← EtherHeader.proto.read mem buf
    let len ← BufferStep.sub 64 len ETH_HEADER_LEN
    if ethProtocol = ETH_P_IPV4 then
      if len < IPV4_HEADER_LEN then return -1 else return 0
    else if ethProtocol = ETH_P_IPV6 then
      if len < IPV6_HEADER_LEN then return -1 else return 0
    else if ethProtocol = ETH_P_ARP then
      if len < ETHARP_HEADER_LEN then return -1 else return 0
    else
      return 1

namespace EthernetTransport

variable (t : EthernetTransport)

def lookupArpCache (addr : EtherAddr) : NEMId :=
  (t.macCache.find? addr).getD NEM_BROADCAST_MAC_ADDRESS

def addEntry (addr : EtherAddr) (nemId : NEMId) : EthernetTransport :=
  match t.macCache.find? addr with
  | none => { t with macCache := t.macCache.insert addr nemId }
  | some nemId' => if nemId' ≠ nemId then { t with macCache := t.macCache.set addr nemId } else t

def destination (mem : Nat → UInt8) (ethHeader : Nat) (toId : List UInt8 → NEMId)
    : Logged BufferStep NEMId := do
  if t.bBroadcastMode then
    return NEM_BROADCAST_MAC_ADDRESS
  else
    let addr ← EtherHeader.dst.bytes mem ethHeader
    if t.bArpCacheMode then
      return t.lookupArpCache (networkOrder addr)
    else
      return toId addr

def parseFrame (mem : Nat → UInt8) (ethHeader : Nat) : Logged BufferStep (Int × NEMId × Nat) := do
  let ethProtocol ← EtherHeader.proto.read mem ethHeader
  let ipHeader := ethHeader + ETH_HEADER_LEN
  if ethProtocol = ETH_P_IPV4 then
    let nemDestination ← t.destination mem ethHeader ethaddr4ToId
    let tos ← Ip4Header.tos.read mem ipHeader
    return (0, nemDestination, tos >>> 2)
  else if ethProtocol = ETH_P_IPV6 then
    let nemDestination ← t.destination mem ethHeader ethaddr6ToId
    let ver ← Ip6Header.ver.read mem ipHeader
    let clas ← Ip6Header.clas.read mem ipHeader
    return (0, nemDestination, ((ver &&& 0x0F) <<< 2) ||| (clas >>> 6))
  else if ethProtocol = ETH_P_ARP then
    let nemDestination ← t.destination mem ethHeader ethaddr4ToId
    return (0, nemDestination, 48)
  else
    let nemDestination ← t.destination mem ethHeader (fun addr => .ofNat (networkOrder (addr.drop 4)))
    return (1, nemDestination, 0)

def updateArpCache (mem : Nat → UInt8) (ethHeader : Nat) (nemId : NEMId)
    : Logged BufferStep EthernetTransport := do
  if t.bBroadcastMode then
    return t
  else if ¬t.bArpCacheMode then
    return t
  else
    let ethProtocol ← EtherHeader.proto.read mem ethHeader
    if ethProtocol = ETH_P_ARP then
      let arpHeader := ethHeader + ETH_HEADER_LEN
      let code ← EtherArpHeader.code.read mem arpHeader
      if code = ETH_ARPOP_REPLY ∨ code = ETH_ARPOP_REQUEST then
        let addr ← EtherArpHeader.srcHwAddr.read mem arpHeader
        return t.addEntry addr nemId
      else
        return t
    else if ethProtocol = ETH_P_IPV6 then
      let ip6Header := ethHeader + ETH_HEADER_LEN
      let next ← Ip6Header.next.read mem ip6Header
      if next = IPV6_P_ICMP then
        let icmpv6Type ← IP6ICMPHeader.type.read mem (ip6Header + IPV6_HEADER_LEN)
        if icmpv6Type = IP6_ICMP_NEIGH_SOLICIT ∨ icmpv6Type = IP6_ICMP_NEIGH_ADVERT then
          let addr ← EtherHeader.src.read mem ethHeader
          return t.addEntry addr nemId
        else
          return t
      else
        return t
    else
      return t

end EthernetTransport

inductive Call where
  | updateArpCache (nemId : NEMId)
  | writev (frame : List UInt8)
  deriving DecidableEq

abbrev Frame := {bytes : List UInt8 // bytes.length < 2^64}

namespace VirtualTransport

def processUpstreamPacket (t : EthernetTransport) (frame : Frame) (beyond : Nat → UInt8) (source : NEMId)
    : Logged BufferStep (EthernetTransport × List Call) := do
  let mem := Memory.ofList frame.val beyond
  let _ ← verifyFrame mem 0 frame.val.length
  let t ← t.updateArpCache mem 0 source
  return (t, [.updateArpCache source, .writev frame.val])

def readDevice (t : EthernetTransport) (frame : Frame) (beyond : Nat → UInt8)
    : Logged BufferStep (Option (NEMId × Nat)) := do
  let mem := Memory.ofList frame.val beyond
  if (← verifyFrame mem 0 frame.val.length) < 0 then
    return none
  else
    let (result, nemDestination, dscp) ← t.parseFrame mem 0
    if result < 0 then return none else return some (nemDestination, dscp)

end VirtualTransport
end Transport
end Emane

import Mathlib.Order.Defs.LinearOrder
import Emane.Lib.Digits
import Emane.Lib.Protobuf
import Emane.Lib.Logged

/-!
This module contains the packets that go through a stack of layers, and the headers of frames. On
the way down a layer puts its header in front of a packet, on the way up it strips the header off
again. A field is given by its place in the header, a number in it is in network byte order.
-/

namespace Emane

abbrev Bytes := List UInt8
abbrev NEMId := UInt16
abbrev EventId := UInt16
abbrev RegistrationId := UInt16
abbrev UUID := {bytes : Bytes // bytes.length = 16}

def UUID.ofByte (b : UInt8) : UUID :=
  ⟨List.replicate 16 b, List.length_replicate⟩

instance instLinearOrderUInt16 : LinearOrder UInt16 where
  le_refl _ := UInt16.le_refl _
  le_trans _ _ _ := UInt16.le_trans
  lt_iff_le_not_ge _ _ := UInt16.lt_iff_le_and_ne.trans (by
    rw [and_congr_right_iff]
    intro hle
    exact ⟨fun hne hge => hne (UInt16.le_antisymm hle hge), fun hge heq => hge (heq ▸ UInt16.le_refl _)⟩)
  le_antisymm _ _ := UInt16.le_antisymm
  le_total _ _ := UInt16.le_total _ _
  toDecidableLE := inferInstance

def NEM_BROADCAST_MAC_ADDRESS : NEMId := 0xFFFF

structure PacketInfo where
  source : NEMId
  destination : NEMId
  priority : UInt8
  creationTime : Nat
  uuid : UUID
  deriving DecidableEq

structure AttachedEvent where
  nemId : NEMId
  eventId : EventId
  serialization : Bytes
  deriving DecidableEq

structure DownstreamPacket where
  info : PacketInfo
  segment : Bytes
  segments : List Bytes
  attachedEvents : List AttachedEvent
  deriving DecidableEq

def lengthPrefix (length : Nat) : Bytes :=
  -- A length in network byte order. It has 16 bits.
  BigEndian.digits 2 length

namespace DownstreamPacket

def create (info : PacketInfo) (segment : Bytes) : DownstreamPacket where
  info := info
  segment := segment
  segments := []
  attachedEvents := []

def prepend (pkt : DownstreamPacket) (buf : Bytes) : DownstreamPacket :=
  { pkt with segments := buf :: pkt.segments }

def prependLengthPrefixFraming (pkt : DownstreamPacket) (length : Nat) : DownstreamPacket :=
  pkt.prepend (lengthPrefix length)

def getVectorIO (pkt : DownstreamPacket) : List Bytes :=
  pkt.segments ++ [pkt.segment]

def bytes (pkt : DownstreamPacket) : Bytes :=
  pkt.getVectorIO.flatten

def length (pkt : DownstreamPacket) : Nat :=
  (pkt.segments.map List.length).sum + pkt.segment.length

def attachEvent (pkt : DownstreamPacket) (event : AttachedEvent) : DownstreamPacket :=
  { pkt with attachedEvents := pkt.attachedEvents ++ [event] }

end DownstreamPacket

structure UpstreamPacket where
  info : PacketInfo
  packetSegment : Bytes
  head : Nat
  deriving DecidableEq

namespace UpstreamPacket

def create (info : PacketInfo) (buf : Bytes) : UpstreamPacket where
  info := info
  packetSegment := buf
  head := 0

def get (pkt : UpstreamPacket) : Bytes :=
  pkt.packetSegment.drop pkt.head

def length (pkt : UpstreamPacket) : Nat :=
  pkt.packetSegment.length - pkt.head

def strip (pkt : UpstreamPacket) (size : Nat) : UpstreamPacket :=
  if pkt.head + size < pkt.packetSegment.length then
    { pkt with head := pkt.head + size }
  else
    { pkt with head := pkt.head + (pkt.packetSegment.length - pkt.head) }

def stripLengthPrefixFraming (pkt : UpstreamPacket) : Nat × UpstreamPacket :=
  if pkt.head + 2 < pkt.packetSegment.length then
    ((pkt.get.take 2).foldl (BigEndian.shiftIn 16) 0, { pkt with head := pkt.head + 2 })
  else
    (0, pkt)

end UpstreamPacket

structure CommonMACHeader where
  registrationId : RegistrationId
  sequenceNumber : UInt64
  deriving DecidableEq

namespace CommonMACHeader

variable (codec : Codec CommonMACHeader)

def prependTo (hdr : CommonMACHeader) (pkt : DownstreamPacket) : DownstreamPacket :=
  let serialization := codec.encode hdr
  (pkt.prepend serialization).prependLengthPrefixFraming serialization.length

def take (pkt : UpstreamPacket) : Option (CommonMACHeader × UpstreamPacket) :=
  -- the header at the front of a packet, without it there is an exception
  if pkt.length ≥ 2 then
    let (headerLength, pkt') := pkt.stripLengthPrefixFraming
    if pkt'.length ≥ headerLength then
      (codec.decode (pkt'.get.take headerLength)).map (fun hdr => (hdr, pkt'.strip headerLength))
    else
      none
  else
    none

end CommonMACHeader

namespace NetUtils

structure Field where
  offset : Nat
  width : Nat

def networkOrder (bytes : List UInt8) : Nat :=
  bytes.foldl (BigEndian.shiftIn (8 * bytes.length)) 0

namespace Field

def bytes (f : Field) (mem : Nat → UInt8) (header : Nat) : Logged BufferStep (List UInt8) :=
  BufferStep.load mem (header + f.offset) f.width

def read (f : Field) (mem : Nat → UInt8) (header : Nat) : Logged BufferStep Nat := do
  let bytes ← f.bytes mem header
  return networkOrder bytes

def slice (f : Field) (bytes : List UInt8) : List UInt8 :=
  (bytes.drop f.offset).take f.width

def get (f : Field) (bytes : List UInt8) : Nat :=
  networkOrder (f.slice bytes)

variable {f : Field}

theorem result_bytes {packet : List UInt8} {beyond : Nat → UInt8} {header : Nat}
    (h : header + f.offset + f.width ≤ packet.length)
    : (f.bytes (Memory.ofList packet beyond) header).result = f.slice (packet.drop header) := by
  unfold bytes slice
  rw [BufferStep.result_load, Memory.load_ofList beyond h, List.drop_drop]

theorem result_read {packet : List UInt8} {beyond : Nat → UInt8} {header : Nat}
    (h : header + f.offset + f.width ≤ packet.length)
    : (f.read (Memory.ofList packet beyond) header).result = f.get (packet.drop header) := by
  unfold read get
  rw [Logged.result_bind, Logged.result_pure, result_bytes h]

@[simp]
theorem within_bytes_iff (mem : Nat → UInt8) (header : Nat) (p : BufferStep → Prop)
    : (f.bytes mem header).Within p ↔ p (.read (header + f.offset) f.width) := by
  simp [bytes]

@[simp]
theorem within_read_iff (mem : Nat → UInt8) (header : Nat) (p : BufferStep → Prop)
    : (f.read mem header).Within p ↔ p (.read (header + f.offset) f.width) := by
  simp [read]

end Field

def ETH_HEADER_LEN : Nat :=
  14

def ETHARP_HEADER_LEN : Nat :=
  28

def IPV4_HEADER_LEN : Nat :=
  20

def IPV6_HEADER_LEN : Nat :=
  40

def UDP_HEADER_LEN : Nat :=
  8

def ETH_P_IPV4 : Nat :=
  0x0800

def ETH_P_ARP : Nat :=
  0x0806

def ETH_P_IPV6 : Nat :=
  0x86DD

def IP_PROTO_UDP : Nat :=
  0x11

def IPV6_P_ICMP : Nat :=
  0x3A

namespace EtherHeader

def dst : Field :=
  ⟨0, 6⟩

def src : Field :=
  ⟨6, 6⟩

def proto : Field :=
  ⟨12, 2⟩

end EtherHeader

namespace Ip4Header

def vhl : Field :=
  ⟨0, 1⟩

def tos : Field :=
  ⟨1, 1⟩

def len : Field :=
  ⟨2, 2⟩

def hops : Field :=
  ⟨8, 1⟩

def proto : Field :=
  ⟨9, 1⟩

def src : Field :=
  ⟨12, 4⟩

def dst : Field :=
  ⟨16, 4⟩

end Ip4Header

namespace UdpHeader

def src : Field :=
  ⟨0, 2⟩

def dst : Field :=
  ⟨2, 2⟩

end UdpHeader

namespace Ip6Header

def ver : Field :=
  ⟨0, 1⟩

def clas : Field :=
  ⟨1, 1⟩

def next : Field :=
  ⟨6, 1⟩

end Ip6Header

namespace IP6ICMPHeader

def type : Field :=
  ⟨0, 1⟩

end IP6ICMPHeader

namespace EtherArpHeader

def code : Field :=
  ⟨6, 2⟩

def srcHwAddr : Field :=
  ⟨8, 6⟩

end EtherArpHeader

end NetUtils
end Emane

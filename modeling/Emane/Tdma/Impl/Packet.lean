import Mathlib.Data.List.Basic
import Mathlib.Algebra.BigOperators.Group.List.Basic
import Mathlib.Algebra.GroupWithZero.Nat

/-!
This module contains the packets that the TDMA radio model queues and the message components it
cuts them into.
-/

namespace Emane
namespace Tdma

abbrev NEMId := Nat
abbrev Priority := Nat
abbrev Bytes := List UInt8

def NEM_BROADCAST_MAC_ADDRESS : NEMId := 65535

structure PacketInfo where
  source : NEMId
  destination : NEMId
  priority : Priority
  creationTime : Nat
  uuid : Nat
  deriving DecidableEq

structure DownstreamPacket where
  info : PacketInfo
  vectorIO : List Bytes
  deriving DecidableEq

namespace DownstreamPacket

def bytes (pkt : DownstreamPacket) : Bytes :=
  pkt.vectorIO.flatten

def length (pkt : DownstreamPacket) : Nat :=
  (pkt.vectorIO.map List.length).sum

theorem length_bytes (pkt : DownstreamPacket) : pkt.bytes.length = pkt.length := by
  simp [bytes, length, List.length_flatten]

end DownstreamPacket

structure UpstreamPacket where
  info : PacketInfo
  data : Bytes
  deriving DecidableEq

inductive MessageComponent.Kind where
  | data
  | control
  deriving DecidableEq

structure MessageComponent where
  type : MessageComponent.Kind
  destination : NEMId
  priority : Priority
  data : Bytes
  fragmentIndex : Nat
  fragmentOffset : Nat
  fragmentSequence : Nat
  moreFragments : Bool
  deriving DecidableEq

abbrev MessageComponents := List MessageComponent

namespace MessageComponent

def isFragment (c : MessageComponent) : Bool :=
  c.fragmentOffset ≠ 0 || c.moreFragments

def size (c : MessageComponent) : Nat :=
  c.data.length

end MessageComponent

def MessageComponents.size (cs : MessageComponents) : Nat :=
  (cs.map MessageComponent.size).sum

@[simp]
theorem MessageComponents.size_nil : MessageComponents.size [] = 0 := by
  rfl

@[simp]
theorem MessageComponents.size_append (cs ds : MessageComponents)
    : MessageComponents.size (cs ++ ds) = MessageComponents.size cs + MessageComponents.size ds := by
  simp [MessageComponents.size]

@[simp]
theorem MessageComponents.size_cons (c : MessageComponent) (cs : MessageComponents)
    : MessageComponents.size (c :: cs) = c.size + MessageComponents.size cs := by
  simp [MessageComponents.size]

end Tdma
end Emane

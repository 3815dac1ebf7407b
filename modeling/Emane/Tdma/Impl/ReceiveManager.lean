import Mathlib.Data.Finset.Card
import Mathlib.Data.Finset.Range
import Mathlib.Data.Prod.Lex
import Emane.Tdma.Fifo

/-!
This module contains the receive side of the TDMA radio model: one pending message per slot, the
reassembly of fragments, and a lossless channel from the queue of another radio.
-/

namespace Emane
namespace Tdma

structure BaseModelMessage where
  absoluteSlotIndex : Nat
  dataRate : Nat
  messages : MessageComponents
  deriving DecidableEq

inductive InboundAction where
  | ACCEPT_GOOD
  | DROP_SPECTRUM_SERVICE
  | DROP_SINR
  | DROP_DESTINATION_MAC
  | DROP_MISS_FRAGMENT
  deriving DecidableEq

structure PacketMetaInfo where
  source : NEMId
  absoluteSlotIndex : Nat
  dataRate : Nat
  deriving DecidableEq

inductive Reception where
  | spectrumServiceError
  | lost
  | received
  deriving DecidableEq

structure PendingInfo where
  message : BaseModelMessage
  info : PacketInfo
  startOfReception : Nat
  deriving DecidableEq

abbrev FragmentKey := NEMId ×ₗ Priority ×ₗ Nat

abbrev FragmentParts := SortedMap Nat Bytes

structure FragmentInfo where
  indexSet : Finset Nat
  parts : FragmentParts
  lastFragmentTime : Nat
  destination : NEMId
  priority : Priority

abbrev FragmentStore := SortedMap FragmentKey FragmentInfo

structure ReceiveManager where
  id : NEMId
  promiscuousMode : Bool
  fragmentCheckThreshold : Nat
  fragmentTimeoutThreshold : Nat
  pendingAbsoluteSlotIndex : Nat
  pendingInfo : PendingInfo
  fragmentStore : FragmentStore
  lastFragmentCheckTime : Nat

namespace ReceiveManager

inductive Output where
  | sendUpstreamPacket (pkt : UpstreamPacket)
  | processPacketMetaInfo (metaInfo : PacketMetaInfo)
  | processSchedulerPacket (pkt : UpstreamPacket) (metaInfo : PacketMetaInfo)
  | inbound (source destination : NEMId) (priority : Priority) (size : Nat) (action : InboundAction)
  deriving DecidableEq

def inbound (source : NEMId) (message : MessageComponent) (action : InboundAction) : Output :=
  .inbound source message.destination message.priority message.size action

def init (id : NEMId) (promiscuousMode : Bool)
    (fragmentCheckThreshold fragmentTimeoutThreshold : Nat) : ReceiveManager where
  id := id
  promiscuousMode := promiscuousMode
  fragmentCheckThreshold := fragmentCheckThreshold
  fragmentTimeoutThreshold := fragmentTimeoutThreshold
  pendingAbsoluteSlotIndex := 0
  pendingInfo := ⟨⟨0, 0, []⟩, ⟨0, 0, 0, 0, 0⟩, 0⟩
  fragmentStore := .empty
  lastFragmentCheckTime := 0

def accepts (m : ReceiveManager) (dst : NEMId) : Bool :=
  m.promiscuousMode || dst = m.id || dst = NEM_BROADCAST_MAC_ADDRESS

def fragmentKey (source : NEMId) (message : MessageComponent) : FragmentKey :=
  toLex (source, toLex (message.priority, message.fragmentSequence))

def FragmentParts.data (parts : FragmentParts) : Bytes :=
  parts.toList.flatMap Prod.snd

def forward (info : PacketInfo) (metaInfo : PacketMetaInfo) (message : MessageComponent)
    (data : Bytes) : List Output :=
  let pkt : UpstreamPacket := {
    info := { info with destination := message.destination, priority := message.priority }
    data := data
  }
  match message.type with
  | .data => [.sendUpstreamPacket pkt, .processPacketMetaInfo metaInfo]
  | .control => [.processSchedulerPacket pkt metaInfo]

def receiveFragment (store : FragmentStore) (now : Nat) (info : PacketInfo) (metaInfo : PacketMetaInfo)
    (message : MessageComponent)
    : FragmentStore × List Output :=
  let key := fragmentKey info.source message
  match store.find? key with
  | some assembly =>
    if message.fragmentIndex ∈ assembly.indexSet then
      (store, [])
    else
      let assembly' := {
        assembly with
        indexSet := insert message.fragmentIndex assembly.indexSet
        parts := assembly.parts.insert message.fragmentOffset message.data
        lastFragmentTime := now
      }
      -- check that all previous fragments have been received
      if assembly'.indexSet.card = message.fragmentIndex + 1 then
        if message.moreFragments then
          (store.set key assembly', [])
        else
          let data := FragmentParts.data assembly'.parts
          (
            store.erase key,
            .inbound info.source message.destination message.priority data.length .ACCEPT_GOOD
              :: forward info metaInfo message data
          )
      else
        let totalBytes := message.size + (FragmentParts.data assembly'.parts).length
        (
          store.erase key,
          [.inbound info.source message.destination message.priority totalBytes .DROP_MISS_FRAGMENT]
        )
  | none =>
    -- if the first fragment received is not index 0, fragments were lost
    if message.fragmentIndex = 0 then
      let assembly := {
        indexSet := {message.fragmentIndex}
        parts := SortedMap.empty.insert message.fragmentOffset message.data
        lastFragmentTime := now
        destination := message.destination
        priority := message.priority
      }
      (store.insert key assembly, [])
    else
      (store, [inbound info.source message .DROP_MISS_FRAGMENT])

def receive (m : ReceiveManager) (now : Nat) (info : PacketInfo) (metaInfo : PacketMetaInfo)
    (message : MessageComponent)
    : ReceiveManager × List Output :=
  if m.accepts message.destination then
    if message.isFragment then
      let (store, outputs) := receiveFragment m.fragmentStore now info metaInfo message
      ({ m with fragmentStore := store }, outputs)
    else
      (m, inbound info.source message .ACCEPT_GOOD :: forward info metaInfo message message.data)
  else
    (m, [inbound info.source message .DROP_DESTINATION_MAC])

def receiveAll (m : ReceiveManager) (now : Nat) (info : PacketInfo) (metaInfo : PacketMetaInfo)
    : MessageComponents → ReceiveManager × List Output
  | [] => (m, [])
  | message :: messages =>
    let (m', outputs) := m.receive now info metaInfo message
    let (m'', outputs') := m'.receiveAll now info metaInfo messages
    (m'', outputs ++ outputs')

def timedOut (m : ReceiveManager) (now : Nat) (assembly : FragmentInfo) : Bool :=
  assembly.lastFragmentTime + m.fragmentTimeoutThreshold ≤ now

def checkFragments (m : ReceiveManager) (now : Nat) : ReceiveManager × List Output :=
  if m.lastFragmentCheckTime + m.fragmentCheckThreshold ≤ now then
    let abandoned := m.fragmentStore.toList.filter (fun entry => m.timedOut now entry.2)
    (
      { m with fragmentStore :=
        abandoned.foldl (fun store entry => store.erase entry.1) m.fragmentStore },
      abandoned.map (fun entry =>
        .inbound (ofLex entry.1).1 entry.2.destination entry.2.priority
          (FragmentParts.data entry.2.parts).length .DROP_MISS_FRAGMENT)
    )
  else
    (m, [])

def process (m : ReceiveManager) (absoluteSlotIndex now : Nat) (reception : Reception)
    : ReceiveManager × List Output :=
  if m.pendingAbsoluteSlotIndex + 1 = absoluteSlotIndex then
    let m := { m with pendingAbsoluteSlotIndex := 0 }
    let message := m.pendingInfo.message
    let info := m.pendingInfo.info
    match reception with
    | .spectrumServiceError =>
      (m, message.messages.map (fun c => inbound info.source c .DROP_SPECTRUM_SERVICE))
    | .lost =>
      (m, message.messages.map (fun c => inbound info.source c .DROP_SINR))
    | .received =>
      let metaInfo := ⟨info.source, absoluteSlotIndex - 1, message.dataRate⟩
      let (m', outputs) := m.receiveAll now info metaInfo message.messages
      let (m'', outputs') := m'.checkFragments now
      (m'', outputs ++ outputs')
  else
    m.checkFragments now

def enqueue (m : ReceiveManager) (pending : PendingInfo) (now : Nat) (reception : Reception)
    : Bool × ReceiveManager × List Output :=
  let slot := pending.message.absoluteSlotIndex
  if m.pendingAbsoluteSlotIndex = 0 then
    (true, { m with pendingAbsoluteSlotIndex := slot, pendingInfo := pending }, [])
  else if m.pendingAbsoluteSlotIndex < slot then
    let (m', outputs) := m.process slot now reception
    (true, { m' with pendingAbsoluteSlotIndex := slot, pendingInfo := pending }, outputs)
  else if m.pendingAbsoluteSlotIndex > slot then
    (true, { m with pendingAbsoluteSlotIndex := slot, pendingInfo := pending }, [])
  else if m.pendingInfo.startOfReception < pending.startOfReception then
    (false, { m with pendingInfo := pending }, [])
  else
    (false, m, [])

end ReceiveManager

namespace ReceiveManager

def takes (m : ReceiveManager) (info : PendingInfo) : Bool :=
  m.pendingAbsoluteSlotIndex = 0 || m.pendingAbsoluteSlotIndex ≠ info.message.absoluteSlotIndex
    || m.pendingInfo.startOfReception < info.startOfReception

end ReceiveManager

structure Call where
  number : Nat
  info : PendingInfo
  deriving DecidableEq

def Call.slot (c : Call) : Nat :=
  c.info.message.absoluteSlotIndex

structure Processing where
  call : Call
  outputs : List ReceiveManager.Output
  deriving DecidableEq

structure ReceivePipeline where
  manager : ReceiveManager
  timers : List Nat
  calls : List PendingInfo
  pending : Option Call
  processed : List Processing
  lost : List Call

namespace ReceivePipeline

def init (manager : ReceiveManager) : ReceivePipeline where
  manager := manager
  timers := []
  calls := []
  pending := none
  processed := []
  lost := []

def isProcessed (s : ReceivePipeline) (c : Call) : Bool :=
  s.processed.any (fun p => p.call.number = c.number)

def record (s : ReceivePipeline) (outputs : List ReceiveManager.Output) : ReceivePipeline :=
  { s with processed := s.processed ++ s.pending.toList.map (fun c => ⟨c, outputs⟩) }

def replace (s : ReceivePipeline) (c : Call) : ReceivePipeline :=
  { s with
    pending := some c
    lost := s.lost ++ s.pending.toList.filter (fun old => old.slot ≠ c.slot && !s.isProcessed old) }

def process (s : ReceivePipeline) (absoluteSlotIndex now : Nat) (reception : Reception)
    : ReceivePipeline :=
  let (manager, outputs) := s.manager.process absoluteSlotIndex now reception
  let s' := if s.manager.pendingAbsoluteSlotIndex + 1 = absoluteSlotIndex then s.record outputs else s
  { s' with manager := manager }

def enqueue (s : ReceivePipeline) (info : PendingInfo) (now : Nat) (reception : Reception)
    : ReceivePipeline :=
  let slot := info.message.absoluteSlotIndex
  let (status, manager, outputs) := s.manager.enqueue info now reception
  let s' :=
    if s.manager.pendingAbsoluteSlotIndex ≠ 0 ∧ s.manager.pendingAbsoluteSlotIndex + 1 = slot
      then s.record outputs else s
  let s'' := if s.manager.takes info then s'.replace ⟨s.calls.length, info⟩ else s'
  { s'' with
    manager := manager
    calls := s.calls ++ [info]
    timers := if status then s.timers ++ [slot + 1] else s.timers }

inductive Event where
  | enqueue (info : PendingInfo) (now : Nat) (reception : Reception)
  | timer (index : Nat) (now : Nat) (reception : Reception)
  deriving DecidableEq

def step (s : ReceivePipeline) : Event → Option ReceivePipeline
  | .enqueue info now reception => some (s.enqueue info now reception)
  | .timer index now reception =>
    match s.timers[index]? with
    | some absoluteSlotIndex =>
      some ({ s with timers := s.timers.eraseIdx index }.process absoluteSlotIndex now reception)
    | none => none

end ReceivePipeline

structure Delivery where
  type : MessageComponent.Kind
  destination : NEMId
  priority : Priority
  data : Bytes
  deriving DecidableEq

def ReceiveManager.Output.delivery : ReceiveManager.Output → Option Delivery
  | .sendUpstreamPacket pkt => some ⟨.data, pkt.info.destination, pkt.info.priority, pkt.data⟩
  | .processSchedulerPacket pkt _ => some ⟨.control, pkt.info.destination, pkt.info.priority, pkt.data⟩
  | .processPacketMetaInfo _ => none
  | .inbound _ _ _ _ _ => none

structure Link where
  history : Queue.History
  receiver : ReceiveManager
  delivered : List Delivery

namespace Link

inductive Event where
  | enqueue (pkt : DownstreamPacket)
  | transmit (requestedBytes : Nat) (destination : NEMId) (drop : Bool) (slot dataRate now : Nat)
    (info : PacketInfo)
  deriving DecidableEq

def init (cfg : QueueConfig) (receiver : ReceiveManager) : Link where
  history := .init cfg
  receiver := receiver
  delivered := []

def step (source : NEMId) (l : Link) : Event → Option Link
  | .enqueue pkt => do
    let history ← l.history.step (.enqueue pkt)
    return { l with history := history }
  | .transmit requestedBytes destination drop slot dataRate now info => do
    let (r, queue) ← l.history.queue.dequeue requestedBytes destination drop
    let pending := ⟨⟨slot, dataRate, r.components⟩, { info with source := source }, now⟩
    let (_, receiver, outputs) := l.receiver.enqueue pending now .received
    let (receiver, outputs') := receiver.process (slot + 1) now .received
    return {
      history := l.history.dequeued r queue
      receiver := receiver
      delivered := l.delivered ++ (outputs ++ outputs').filterMap ReceiveManager.Output.delivery
    }

def deliveryOf (enqueued : List DownstreamPacket) (c : MessageComponent) : Option Delivery :=
  enqueued[c.fragmentSequence]?.map
    (fun pkt => ⟨c.type, pkt.info.destination, pkt.info.priority, pkt.bytes⟩)

def completed (l : Link) : MessageComponents :=
  l.history.components.filter (fun c => !c.moreFragments && l.receiver.accepts c.destination)

structure Reassembled (l : Link) : Prop where
  delivered : l.delivered = l.completed.filterMap (deliveryOf l.history.enqueued)
  completed : ∀ seq pkt, l.history.enqueued[seq]? = some pkt → l.receiver.accepts pkt.info.destination →
    (withKey MessageComponent.fragmentSequence seq l.completed).length
      =
    if (l.history.componentsOf seq).flatMap MessageComponent.data = pkt.bytes then 1 else 0

end Link
end Tdma
end Emane

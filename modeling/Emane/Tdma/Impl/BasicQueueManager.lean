import Mathlib.Data.Fin.Basic
import Emane.Lib.Machine
import Emane.Tdma.Impl.Queue

/-!
This module contains the queue manager of the TDMA radio model: four queues for user traffic and
one for the scheduler, and the way in which they share a slot.
-/

namespace Emane
namespace Tdma

abbrev MAX_QUEUES : Nat := 5

instance instNeZeroMaxQueues : NeZero MAX_QUEUES := ⟨by decide⟩

abbrev QueueIndex := Fin MAX_QUEUES

structure QueueManagerConfig where
  queueDepth : Nat
  aggregationEnable : Bool
  fragmentationEnable : Bool
  strictDequeueEnable : Bool
  aggregationThreshold : Nat → Nat

inductive OutboundAction where
  | ACCEPT_GOOD
  | DROP_TOO_BIG
  | DROP_OVERFLOW
  | DROP_FLOW_CONTROL
  deriving DecidableEq

inductive DropReason where
  | DROP_OVERFLOW
  | DROP_TOOBIG
  deriving DecidableEq

inductive Report where
  | outbound (source destination : NEMId) (priority : Priority) (size : Nat) (action : OutboundAction)
  | enqueue (queue : QueueIndex)
  | dequeue (requestQueue actualQueue : QueueIndex) (components : MessageComponents)
  | drop (queue : QueueIndex) (reason : DropReason) (count : Nat)
  deriving DecidableEq

structure BasicQueueManager extends QueueManagerConfig where
  id : NEMId
  queues : QueueIndex → Queue

namespace BasicQueueManager

def queueConfig (cfg : QueueManagerConfig) (i : QueueIndex) : QueueConfig where
  queueDepth := cfg.queueDepth
  fragment := cfg.fragmentationEnable
  aggregate := cfg.aggregationEnable
  isControl := i = 4

def configure (id : NEMId) (cfg : QueueManagerConfig) : BasicQueueManager where
  toQueueManagerConfig := cfg
  id := id
  queues := fun i => .init (queueConfig cfg i)

def outbound (pkt : DownstreamPacket) (action : OutboundAction) : Report :=
  .outbound pkt.info.source pkt.info.destination pkt.info.priority pkt.length action

def enqueue (m : BasicQueueManager) (queueIndex : Nat) (pkt : DownstreamPacket)
    : Option (Nat × List Report × BasicQueueManager) :=
  if h : queueIndex < MAX_QUEUES then do
    let i : QueueIndex := ⟨queueIndex, h⟩
    let (dropped, queue) ← (m.queues i).enqueue pkt
    let m' := { m with queues := Function.update m.queues i queue }
    match dropped with
    | some d => return (1, [.drop i .DROP_OVERFLOW 1, outbound d.packet .DROP_OVERFLOW, .enqueue i], m')
    | none => return (0, [.enqueue i], m')
  else
    return (0, [], m)

namespace dequeue

structure State where
  queues : QueueIndex → Queue
  components : MessageComponents
  totalLength : Nat
  reports : List Report

def record (requestQueue actualQueue : QueueIndex) (r : Queue.dequeue.Result) (queue : Queue)
    (s : State) : State :=
  let s := { s with queues := Function.update s.queues actualQueue queue }
  if r.totalBytes ≠ 0 then
    { s with
      totalLength := s.totalLength + r.totalBytes
      reports := s.reports ++ [.dequeue requestQueue actualQueue r.components]
      components := s.components ++ r.components }
  else
    s

def reportDrops (queue : QueueIndex) (dropped : List OwnedPacket) (s : State) : State :=
  { s with
    reports := s.reports ++ dropped.flatMap
      (fun d => [outbound d.packet .DROP_TOO_BIG, .drop queue .DROP_TOOBIG 1]) }

def mayAggregate (cfg : QueueManagerConfig) (requestedBytes totalLength : Nat) : Bool :=
  (totalLength = 0 || (totalLength ≠ 0 && cfg.aggregationEnable)) && totalLength
    ≤ cfg.aggregationThreshold requestedBytes

def others (cfg : QueueManagerConfig) (requestQueue : QueueIndex) (requestedBytes : Nat)
    (destination : NEMId)
    : List QueueIndex → State → Option State
  | [], s => some s
  | i :: is, s =>
    if mayAggregate cfg requestedBytes s.totalLength then
      if i ≠ requestQueue then do
        let (r, queue) ← (s.queues i).dequeue (requestedBytes - s.totalLength) destination false
        others cfg requestQueue requestedBytes destination is (record requestQueue i r queue s)
      else
        others cfg requestQueue requestedBytes destination is s
    else
      some s

def order : List QueueIndex :=
  (List.finRange MAX_QUEUES).reverse

def collect (m : BasicQueueManager) (queueIndex requestedBytes : Nat) (destination : NEMId)
    : Option State :=
  if h : queueIndex < MAX_QUEUES then do
    let i : QueueIndex := ⟨queueIndex, h⟩
    let (r, queue) ← (m.queues i).dequeue requestedBytes destination true
    let s := reportDrops i r.dropped (record i i r queue ⟨m.queues, [], 0, []⟩)
    -- if allowed, check the other queues to see if they have components that will fit in the slot
    if m.strictDequeueEnable then
      some s
    else
      others m.toQueueManagerConfig i requestedBytes destination order s
  else
    some ⟨m.queues, [], 0, []⟩

end dequeue

structure Dequeued where
  components : MessageComponents
  totalLength : Nat
  reports : List Report

def dequeue (m : BasicQueueManager) (queueIndex requestedBytes : Nat) (destination : NEMId)
    : Option (Dequeued × BasicQueueManager) := do
  let s ← dequeue.collect m queueIndex requestedBytes destination
  let accepted := s.components.map
    (fun c => Report.outbound m.id c.destination c.priority c.size .ACCEPT_GOOD)
  return (⟨s.components, s.totalLength, s.reports ++ accepted⟩, { m with queues := s.queues })

inductive Call where
  | enqueue (queueIndex : Nat) (pkt : DownstreamPacket)
  | dequeue (queueIndex requestedBytes : Nat) (destination : NEMId)
  deriving DecidableEq

def step (m : BasicQueueManager) : Call → Option BasicQueueManager
  | .enqueue queueIndex pkt => (m.enqueue queueIndex pkt).map (fun res => res.2.2)
  | .dequeue queueIndex requestedBytes destination =>
    (m.dequeue queueIndex requestedBytes destination).map Prod.snd

end BasicQueueManager
end Tdma
end Emane

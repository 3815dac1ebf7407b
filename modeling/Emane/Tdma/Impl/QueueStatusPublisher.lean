import Emane.Tdma.Impl.BasicQueueManager

/-!
This module contains the publisher of the queue status table. It counts the packets of every queue
from what it is told of the queue manager, and estimates the latency.
-/

namespace Emane
namespace Tdma

structure QueueStatus where
  enqueued : UInt64
  dequeued : UInt64
  overflow : UInt64
  toobig : UInt64
  requested : QueueIndex → UInt64

structure QueueStatusPublisher where
  statusTableInfo : QueueIndex → QueueStatus
  fragmentHistogram : QueueIndex → Fin 10 → UInt64
  depthQueueInfo : QueueIndex → UInt64
  highWaterMarkQueueInfo : QueueIndex → UInt64

namespace QueueStatusPublisher

def init : QueueStatusPublisher where
  statusTableInfo := fun _ => ⟨0, 0, 0, 0, fun _ => 0⟩
  fragmentHistogram := fun _ _ => 0
  depthQueueInfo := fun _ => 0
  highWaterMarkQueueInfo := fun _ => 0

def drop (p : QueueStatusPublisher) (queue : QueueIndex) (reason : DropReason) (count : Nat)
    : QueueStatusPublisher :=
  let row := p.statusTableInfo queue
  let row' :=
    match reason with
    | .DROP_OVERFLOW => { row with overflow := row.overflow + .ofNat count }
    | .DROP_TOOBIG => { row with toobig := row.toobig + .ofNat count }
  { p with
    statusTableInfo := Function.update p.statusTableInfo queue row'
    depthQueueInfo := Function.update p.depthQueueInfo queue (p.depthQueueInfo queue - .ofNat count) }

def histogramIndex (fragmentIndex : Nat) : Fin 10 :=
  let parts := fragmentIndex + 1
  if h : parts ≤ 9 then ⟨parts - 1, by omega⟩ else Fin.last 9

def countFragments (histogram : Fin 10 → UInt64) (components : MessageComponents) : Fin 10 → UInt64 :=
  components.foldl
    (fun histogram c =>
      if !c.moreFragments then
        let index := histogramIndex c.fragmentIndex
        Function.update histogram index (histogram index + 1)
      else
        histogram)
    histogram

def dequeue (p : QueueStatusPublisher) (requestQueue actualQueue : QueueIndex)
    (components : MessageComponents)
    : QueueStatusPublisher :=
  let row := p.statusTableInfo actualQueue
  let packetsCompletedSend : UInt64 := .ofNat (components.filter (fun c => !c.moreFragments)).length
  let row' :=
    { row with
      dequeued := row.dequeued + packetsCompletedSend
      requested :=
        Function.update row.requested requestQueue
          (row.requested requestQueue + .ofNat components.length) }
  { p with
    statusTableInfo := Function.update p.statusTableInfo actualQueue row'
    fragmentHistogram :=
      Function.update p.fragmentHistogram actualQueue
        (countFragments (p.fragmentHistogram actualQueue) components)
    depthQueueInfo :=
      Function.update p.depthQueueInfo actualQueue (p.depthQueueInfo actualQueue - packetsCompletedSend) }

def enqueue (p : QueueStatusPublisher) (queue : QueueIndex) : QueueStatusPublisher :=
  let row := p.statusTableInfo queue
  let depth := p.depthQueueInfo queue + 1
  let highWaterMark :=
    if depth > p.highWaterMarkQueueInfo queue then depth else p.highWaterMarkQueueInfo queue
  { p with
    statusTableInfo := Function.update p.statusTableInfo queue { row with enqueued := row.enqueued + 1 }
    depthQueueInfo := Function.update p.depthQueueInfo queue depth
    highWaterMarkQueueInfo := Function.update p.highWaterMarkQueueInfo queue highWaterMark }

def report (p : QueueStatusPublisher) : Report → QueueStatusPublisher
  | .outbound _ _ _ _ _ => p
  | .enqueue queue => p.enqueue queue
  | .dequeue requestQueue actualQueue components => p.dequeue requestQueue actualQueue components
  | .drop queue reason count => p.drop queue reason count

def reports (p : QueueStatusPublisher) (rs : List Report) : QueueStatusPublisher :=
  rs.foldl report p

end QueueStatusPublisher

structure QueueAudit where
  manager : BasicQueueManager
  publisher : QueueStatusPublisher
  peak : QueueIndex → Nat
  overflowed : QueueIndex → Nat
  tooLarge : QueueIndex → Nat

namespace QueueAudit

def configure (id : NEMId) (cfg : QueueManagerConfig) : QueueAudit where
  manager := .configure id cfg
  publisher := .init
  peak := fun _ => 0
  overflowed := fun _ => 0
  tooLarge := fun _ => 0

def packets (m : BasicQueueManager) (i : QueueIndex) : Nat :=
  (m.queues i).queue.size

def returned (m : BasicQueueManager) (queueIndex requestedBytes : Nat) (destination : NEMId)
    (i : QueueIndex) : Nat :=
  -- The packets that the queue returns as too large. Only the queue that was asked for is allowed
  -- to drop any.
  if i.val = queueIndex then
    (((m.queues i).dequeue requestedBytes destination true).map (fun res => res.1.dropped.length)).getD 0
  else
    0

def step (a : QueueAudit) : BasicQueueManager.Call → Option QueueAudit
  | .enqueue queueIndex pkt => do
    let (dropped, rs, m) ← a.manager.enqueue queueIndex pkt
    return {
      manager := m
      publisher := a.publisher.reports rs
      peak := fun i => max (a.peak i) (packets m i)
      overflowed := fun i => a.overflowed i + if i.val = queueIndex then dropped else 0
      tooLarge := a.tooLarge
    }
  | .dequeue queueIndex requestedBytes destination => do
    let (d, m) ← a.manager.dequeue queueIndex requestedBytes destination
    return {
      manager := m
      publisher := a.publisher.reports d.reports
      peak := fun i => max (a.peak i) (packets m i)
      overflowed := a.overflowed
      tooLarge := fun i => a.tooLarge i + returned a.manager queueIndex requestedBytes destination i
    }

end QueueAudit

structure QueueDelayPublisher extends QueueStatusPublisher where
  enqueuedQueues : QueueIndex → Fin 64 → Int
  us64delays : QueueIndex → Fin 64 → Int
  avgQueueDelay : QueueIndex → Int

namespace QueueDelayPublisher

def init : QueueDelayPublisher where
  toQueueStatusPublisher := .init
  enqueuedQueues := fun _ _ => 0
  us64delays := fun _ _ => 0
  avgQueueDelay := fun _ => 0

def packetId (count : UInt64) : Fin 64 :=
  ⟨(count % 64).toNat, UInt64.lt_iff_toNat_lt.mp (UInt64.mod_lt count (by decide))⟩

def microseconds (nanoseconds : Int) : Int :=
  nanoseconds.tdiv 1000

def toInt (x : Int) : Option Int :=
  if -2^31 ≤ x ∧ x < 2^31 then some x else none

structure Last where
  d1 : Int
  d2 : Int
  d3 : Int

def Last.visit (last : Last) (delay : Int) : Option Last :=
  if delay ≠ 0 then do
    let d1 ← toInt delay
    let d2 := d1
    let d3 := d2
    return ⟨d1, d2, d3⟩
  else
    some last

def average (delays : Fin 64 → Int) : Option Int := do
  let last ← (List.ofFn delays).foldlM Last.visit ⟨0, 0, 0⟩
  -- check that the delays are NOT 0 (for division)
  let ifValInitialized : Int := (if last.d1 > 0 then 1 else 0) + (if last.d2 > 0 then 1 else 0)
    + if last.d3 > 0 then 1 else 0
  if ifValInitialized ≠ 0 then do
    let d12 ← toInt (last.d1 + last.d2)
    let d123 ← toInt (d12 + last.d3)
    return d123.tdiv ifValInitialized
  else
    return 0

def updatedelaystat (p : QueueDelayPublisher) (ifenqueued : Bool) (queue : QueueIndex) (now : Int)
    : Option QueueDelayPublisher :=
  if ifenqueued then
    let enqueuedid := packetId (p.statusTableInfo queue).enqueued
    some { p with
      enqueuedQueues := Function.update p.enqueuedQueues queue
        (Function.update (p.enqueuedQueues queue) enqueuedid now)
      us64delays := Function.update p.us64delays queue
        (Function.update (p.us64delays queue) enqueuedid 0) }
  else do
    let dequeuedid := packetId (p.statusTableInfo queue).dequeued
    let us := microseconds (now - p.enqueuedQueues queue dequeuedid)
    let delays := Function.update (p.us64delays queue) dequeuedid us
    let avg ← average delays
    return { p with
      us64delays := Function.update p.us64delays queue delays
      avgQueueDelay := Function.update p.avgQueueDelay queue avg }

def enqueue (p : QueueDelayPublisher) (queue : QueueIndex) (now : Int) : Option QueueDelayPublisher :=
  { p with toQueueStatusPublisher := p.toQueueStatusPublisher.enqueue queue }.updatedelaystat
    true queue now

def dequeue (p : QueueDelayPublisher) (requestQueue actualQueue : QueueIndex)
    (components : MessageComponents) (now : Int)
    : Option QueueDelayPublisher :=
  { p with
    toQueueStatusPublisher := p.toQueueStatusPublisher.dequeue requestQueue actualQueue components
  }.updatedelaystat false actualQueue now

def drop (p : QueueDelayPublisher) (queue : QueueIndex) (reason : DropReason) (count : Nat)
    : QueueDelayPublisher :=
  { p with toQueueStatusPublisher := p.toQueueStatusPublisher.drop queue reason count }

def report (p : QueueDelayPublisher) (now : Int) : Report → Option QueueDelayPublisher
  | .outbound _ _ _ _ _ => some p
  | .enqueue queue => p.enqueue queue now
  | .dequeue requestQueue actualQueue components => p.dequeue requestQueue actualQueue components now
  | .drop queue reason count => some (p.drop queue reason count)

end QueueDelayPublisher

def BasicQueueManager.reports (m : BasicQueueManager) : List BasicQueueManager.Call → Option (List Report)
  | [] => some []
  | .enqueue queueIndex pkt :: calls => do
    let (_, rs, m') ← m.enqueue queueIndex pkt
    let rs' ← m'.reports calls
    return rs ++ rs'
  | .dequeue queueIndex requestedBytes destination :: calls => do
    let (d, m') ← m.dequeue queueIndex requestedBytes destination
    let rs' ← m'.reports calls
    return d.reports ++ rs'

structure QueueDelayAudit where
  publisher : QueueDelayPublisher
  enqueueTimes : QueueIndex → List Int
  delays : QueueIndex → List Int
  latest : QueueIndex → Nat

namespace QueueDelayAudit

def init : QueueDelayAudit where
  publisher := .init
  enqueueTimes := fun _ => []
  delays := fun _ => []
  latest := fun _ => 0

def wait (a : QueueDelayAudit) (queue : QueueIndex) (now : Int) (c : MessageComponent) : Int :=
  QueueDelayPublisher.microseconds (now - (a.enqueueTimes queue).getD c.fragmentSequence 0)

def completed (components : MessageComponents) : MessageComponents :=
  components.filter (fun c => !c.moreFragments)

def step (a : QueueDelayAudit) (event : Int × Report) : Option QueueDelayAudit := do
  let publisher ← a.publisher.report event.1 event.2
  match event.2 with
  | .enqueue queue =>
    return {
      publisher := publisher
      enqueueTimes := Function.update a.enqueueTimes queue (a.enqueueTimes queue ++ [event.1])
      delays := a.delays
      latest := Function.update a.latest queue 0 }
  | .dequeue _ queue components =>
    return {
      publisher := publisher
      enqueueTimes := a.enqueueTimes
      delays := Function.update a.delays queue
        (a.delays queue ++ (completed components).map (a.wait queue event.1))
      latest := Function.update a.latest queue (completed components).length }
  | _ => return { a with publisher := publisher }

end QueueDelayAudit
end Tdma
end Emane

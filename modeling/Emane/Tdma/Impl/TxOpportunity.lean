import Emane.Tdma.Impl.EventScheduler
import Emane.Tdma.Impl.BaseModel

/-!
This module contains the transmit opportunities of the TDMA radio model: the timer that is set for
the next slot to transmit in, what is done when it goes off, and what becomes of all of this when
the schedule changes.
-/

namespace Emane
namespace Tdma

structure Timer where
  id : Nat
  scheduleIndex : Nat
  timePoint : TimePoint
  deriving DecidableEq

inductive SlotStatus where
  | TX_GOOD
  | TX_MISSED
  deriving DecidableEq

structure SlotStatusUpdate where
  scheduleIndex : Nat
  slot : Scheduler.TxSlotInfo
  status : SlotStatus
  deriving DecidableEq

structure Transmission where
  scheduleIndex : Nat
  scheduler : EventScheduler
  slot : Scheduler.TxSlotInfo
  message : BaseModelMessage
  now : Nat
  time : Nat

structure Transmitter where
  scheduler : EventScheduler
  model : BaseModel
  bytesAvailable : Nat → Nat → Nat → Nat
  scheduleIndex : Nat
  transmitTimedEventId : Nat
  frequencies : Finset Nat
  bandwidth : Nat
  slotDuration : Nat
  slotOverhead : Nat
  pendingTxSlotInfo : Scheduler.TxSlotInfo
  txSlotInfos : Scheduler.TxSlotInfos
  nextMultiFrameTime : TimePoint
  lastTimerId : Nat
  timers : List Timer
  callbacks : List Nat
  clock : Nat
  start : Nat
  statuses : List SlotStatusUpdate
  transmissions : List Transmission

namespace Transmitter

def init (model : BaseModel) (bytesAvailable : Nat → Nat → Nat → Nat) : Transmitter where
  scheduler := {}
  model := model
  bytesAvailable := bytesAvailable
  scheduleIndex := 0
  transmitTimedEventId := 0
  frequencies := ∅
  bandwidth := 0
  slotDuration := 0
  slotOverhead := 0
  pendingTxSlotInfo := ⟨0, 0, 0, 0, 0, 0, 0, 0, 0, 0⟩
  txSlotInfos := []
  nextMultiFrameTime := 0
  lastTimerId := 0
  timers := []
  callbacks := []
  clock := 0
  start := 0
  statuses := []
  transmissions := []

def update (s : Transmitter) (status : SlotStatus) : Transmitter :=
  { s with statuses := s.statuses ++ [⟨s.scheduleIndex, s.pendingTxSlotInfo, status⟩] }

def schedule (s : Transmitter) : Transmitter :=
  { s with
    transmitTimedEventId := s.lastTimerId + 1
    lastTimerId := s.lastTimerId + 1
    timers := s.timers ++ [⟨s.lastTimerId + 1, s.scheduleIndex, s.pendingTxSlotInfo.timePoint⟩] }

def cancelTimedEvent (s : Transmitter) : Transmitter :=
  if s.transmitTimedEventId ≠ 0 then
    { s with timers :=
      s.timers.filter (fun t => t.id ≠ s.transmitTimedEventId), transmitTimedEventId := 0 }
  else
    s

def requestTxSlotInfo (s : Transmitter) (time : TimePoint) : Option Transmitter := do
  let ((txSlotInfos, nextMultiFrameTime), scheduler) ← s.scheduler.getTxSlotInfo time 1
  return { s with scheduler := scheduler, txSlotInfos := txSlotInfos, nextMultiFrameTime :=
    nextMultiFrameTime }

def notifyScheduleChange (s : Transmitter) (change : Scheduler.ScheduleChange) (now : Nat)
    : Option Transmitter := do
  let s := cancelTimedEvent { s with scheduleIndex := s.scheduleIndex + 1 }
  let s := {
    s with
    frequencies := change.frequencies
    bandwidth := change.bandwidth
    slotDuration := change.slotDuration
    slotOverhead := change.slotOverhead
    start := now
  }
  let s ← s.requestTxSlotInfo now
  match s.txSlotInfos with
  | [] => return s
  | tx :: txSlotInfos => return { s with pendingTxSlotInfo := tx, txSlotInfos := txSlotInfos }.schedule

def sendDownstreamPacket (s : Transmitter) (now time : Nat) : Option Transmitter := do
  let slot := s.pendingTxSlotInfo
  let bytesAvailable := s.bytesAvailable s.slotDuration s.slotOverhead slot.dataRate
  let (d, _) ← s.model.queueManager.dequeue slot.queueId bytesAvailable slot.destination
  let (outputs, model) ←
    s.model.sendDownstreamPacket
      ⟨slot.absoluteSlotIndex, slot.dataRate, slot.queueId, slot.destination, bytesAvailable⟩
  let sent := (outputs.filterMap BaseModel.Output.message).map (fun message =>
    ⟨s.scheduleIndex, s.scheduler, slot, message, now, time⟩)
  let s := { s with model := model, transmissions := s.transmissions ++ sent }
  -- also if there is nothing to transmit
  if d.totalLength ≤ bytesAvailable then
    return s.update .TX_GOOD
  else
    return s

namespace processTxOpportunity

def refill (s : Transmitter) : Option Transmitter :=
  if s.txSlotInfos.isEmpty then
    s.requestTxSlotInfo s.nextMultiFrameTime
  else
    some s

def catchUp (nowSlotIndex now time : Nat)
    : Scheduler.TxSlotInfos → Transmitter → Option (Bool × Transmitter)
  | [], s => some (false, { s with txSlotInfos := [] })
  | tx :: txSlotInfos, s =>
    let s := { s with pendingTxSlotInfo := tx, txSlotInfos := txSlotInfos }
    if nowSlotIndex < tx.absoluteSlotIndex then
      some (true, s.schedule)
    else if tx.absoluteSlotIndex < nowSlotIndex then
      catchUp nowSlotIndex now time txSlotInfos (s.update .TX_MISSED)
    else do
      let s ← s.sendDownstreamPacket now time
      catchUp nowSlotIndex now time txSlotInfos s

def findNext (nowSlotIndex now time : Nat) : Nat → Transmitter → Option Transmitter
  | 0, _ => none
  | fuel + 1, s =>
    if s.txSlotInfos.isEmpty then
      some s
    else do
      let (bFoundTXSlot, s) ← catchUp nowSlotIndex now time s.txSlotInfos s
      let s ← refill s
      if bFoundTXSlot then some s else findNext nowSlotIndex now time fuel s

end processTxOpportunity

def processTxOpportunity (s : Transmitter) (scheduleIndex now time : Nat) : Option Transmitter :=
  if scheduleIndex ≠ s.scheduleIndex then
    some s
  else do
    let nowSlotInfo ← s.scheduler.getSlotInfoAt now
    let s ←
      if nowSlotInfo.absoluteSlotIndex = s.pendingTxSlotInfo.absoluteSlotIndex then
        s.sendDownstreamPacket now time
      else
        some (s.update .TX_MISSED)
    let s ← processTxOpportunity.refill s
    processTxOpportunity.findNext nowSlotInfo.absoluteSlotIndex now time
      (nowSlotInfo.absoluteSlotIndex + 2) s

inductive Event where
  | scheduleEvent (msg : Option Events.TDMAScheduleEvent.Message) (now : Nat)
  | expire (timer : Timer) (now : Nat)
  | callback (scheduleIndex now time : Nat)
  | model (event : BaseModel.Event)
  deriving DecidableEq

def step (s : Transmitter) : Event → Option Transmitter
  | .scheduleEvent msg now =>
    if s.clock ≤ now then do
      let (_, change, scheduler) ← s.scheduler.processEvent msg
      let s := { s with scheduler := scheduler, clock := now }
      match change with
      | some change => s.notifyScheduleChange change now
      | none => return s
    else
      none
  | .expire timer now =>
    if s.clock ≤ now ∧ timer ∈ s.timers ∧ timer.timePoint ≤ now then
      some {
        s with
        clock := now
        timers := s.timers.erase timer
        callbacks := s.callbacks ++ [timer.scheduleIndex]
      }
    else
      none
  | .callback scheduleIndex now time =>
    if s.clock ≤ now ∧ now ≤ time ∧ scheduleIndex ∈ s.callbacks then
      processTxOpportunity { s with clock := time, callbacks := s.callbacks.erase scheduleIndex }
        scheduleIndex now time
    else
      none
  | .model (.txOpportunity _) => none
  | .model event => do
    let (_, model) ← s.model.react event
    return { s with model := model }

end Transmitter
end Tdma
end Emane

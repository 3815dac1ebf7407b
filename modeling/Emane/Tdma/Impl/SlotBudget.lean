import Mathlib.Algebra.Order.Ring.Unbundled.Rat
import Emane.Lib.Attempt
import Emane.Tdma.Impl.TxOpportunity

/-!
This module contains the scheduler together with its user, the radio model, and their functions
with a log of the arithmetic that they do: what they divide by, and the number of bytes that a slot
has room for.
-/

namespace Emane
namespace Tdma

inductive Arithmetic where
  | divide (divisor : Nat)
  | budget (bytes : Option ℚ)
  deriving DecidableEq

namespace Arithmetic

def Defined : Arithmetic → Prop
  | .divide divisor => divisor ≠ 0
  | .budget bytes => ∃ b, bytes = some b ∧ 0 ≤ b

def div (n divisor : Nat) : Attempt Arithmetic Nat := do
  Attempt.note (.divide divisor)
  if divisor = 0 then failure else return n / divisor

def mod (n divisor : Nat) : Attempt Arithmetic Nat := do
  Attempt.note (.divide divisor)
  if divisor = 0 then failure else return n % divisor

end Arithmetic

namespace Slotter

def getAbsoluteIndex.noted (s : Slotter) (time : TimePoint) : Attempt Arithmetic (Nat × Nat × Nat) := do
  let count := (time.tdiv 1000 % 2^64).toNat
  let slotIndex ← Arithmetic.div count s.slotSizeMicroseconds
  let frameIndex ← Arithmetic.div slotIndex s.slotsPerFrame
  let multiFrameIndex ← Arithmetic.div frameIndex s.framesPerMultiFrame
  return (slotIndex, frameIndex, multiFrameIndex)

def getRelativeIndex.noted (s : Slotter) (slotIndex : Nat) : Attempt Arithmetic (Nat × Nat) := do
  let relativeSlotIndex ← Arithmetic.mod slotIndex s.slotsPerFrame
  let frameIndex ← Arithmetic.div slotIndex s.slotsPerFrame
  let relativeFrameIndex ← Arithmetic.mod frameIndex s.framesPerMultiFrame
  return (relativeSlotIndex, relativeFrameIndex)

end Slotter

namespace EventScheduler

def getSlotInfo.noted (s : EventScheduler) (absoluteSlotIndex : Nat)
    : Attempt Arithmetic Scheduler.SlotInfo :=
  if s.slotInfos.isEmpty then
    return ⟨0, 0, 0, 0, .min, .IDLE⟩
  else do
    let (relativeSlotIndex, relativeFrameIndex) ← Slotter.getRelativeIndex.noted s.slotter
      absoluteSlotIndex
    let index := s.relativeIndex relativeFrameIndex relativeSlotIndex
    let info ← Attempt.ofOption s.slotInfos[index]?
    let time ← Attempt.ofOption (s.slotter.getSlotTime absoluteSlotIndex)
    return ⟨absoluteSlotIndex, index, relativeSlotIndex, relativeFrameIndex, time, info.type⟩

def getSlotInfoAt.noted (s : EventScheduler) (time : TimePoint) : Attempt Arithmetic Scheduler.SlotInfo :=
  if s.slotInfos.isEmpty then
    return ⟨0, 0, 0, 0, .min, .IDLE⟩
  else do
    let (absoluteSlotIndex, _, _) ← Slotter.getAbsoluteIndex.noted s.slotter time
    getSlotInfo.noted s absoluteSlotIndex

def getRxSlotInfo.noted (s : EventScheduler) (time : TimePoint)
    : Attempt Arithmetic (Scheduler.RxSlotInfo × Bool) :=
  if s.slotInfos.isEmpty then
    return (⟨0, 0, 0, 0, .min, 0⟩, false)
  else do
    let (absoluteSlotIndex, _, _) ← Slotter.getAbsoluteIndex.noted s.slotter time
    let (relativeSlotIndex, relativeFrameIndex) ← Slotter.getRelativeIndex.noted s.slotter
      absoluteSlotIndex
    let index := s.relativeIndex relativeFrameIndex relativeSlotIndex
    let info ← Attempt.ofOption s.slotInfos[index]?
    let time ← Attempt.ofOption (s.slotter.getSlotTime absoluteSlotIndex)
    return (⟨absoluteSlotIndex, index, relativeSlotIndex, relativeFrameIndex, time, info.frequency⟩,
      info.type = .RX)

def getTxSlotInfo.requestTime.noted (s : EventScheduler) (time : TimePoint)
    : Attempt Arithmetic TimePoint :=
  if s.waitingFirstTxSlotInfoRequest then do
    let (_, _, multiFrameIndex) ← Slotter.getAbsoluteIndex.noted s.slotter time
    Attempt.ofOption (s.slotter.getMultiFrameTime (multiFrameIndex + 1))
  else
    return time

def getTxSlotInfo.noted (s : EventScheduler) (time : TimePoint) (multiframes : Nat)
    : Attempt Arithmetic ((Scheduler.TxSlotInfos × TimePoint) × EventScheduler) :=
  -- nothing is divided in the loops over the multiframes
  if s.slotInfos.isEmpty then
    return (([], .min), s)
  else do
    let requestTime ← getTxSlotInfo.requestTime.noted s time
    let (absoluteSlotIndex, _, multiFrameIndex) ← Slotter.getAbsoluteIndex.noted s.slotter requestTime
    let (relativeSlotIndex, relativeFrameIndex) ← Slotter.getRelativeIndex.noted s.slotter
      absoluteSlotIndex
    let index := s.relativeIndex relativeFrameIndex relativeSlotIndex
    let txSlotInfos ← Attempt.ofOption
      (getTxSlotInfo.collectAll s.slotter s.slotInfos multiframes absoluteSlotIndex index [])
    let nextTime ← Attempt.ofOption (s.slotter.getMultiFrameTime (multiFrameIndex + multiframes))
    return ((txSlotInfos, nextTime), { s with waitingFirstTxSlotInfoRequest := false })

end EventScheduler

structure SchedulerUser where
  scheduler : EventScheduler := {}
  slotDuration : Nat := 0
  slotOverhead : Nat := 0

namespace SchedulerUser

def notifyScheduleChange (s : SchedulerUser) (change : Scheduler.ScheduleChange) : SchedulerUser :=
  { s with slotDuration := change.slotDuration, slotOverhead := change.slotOverhead }

def count (duration : Nat) : Int :=
  (duration : Int).bmod (2^64)

def budget (s : SchedulerUser) (dataRate : Nat) : Option ℚ :=
  -- The number of bytes before it is rounded. The difference of the durations is none if it does
  -- not fit into 64 bits.
  let duration := count s.slotDuration - count s.slotOverhead
  if -2^63 ≤ duration ∧ duration < 2^63 then some (duration / 1000000 * dataRate / 8) else none

def txSlotInfo (bytes : Nat → Nat → Nat → Nat) (s : SchedulerUser) (slot : Scheduler.TxSlotInfo)
    : TxSlotInfo :=
  ⟨slot.absoluteSlotIndex, slot.dataRate, slot.queueId, slot.destination,
    bytes s.slotDuration s.slotOverhead slot.dataRate⟩

def sendDownstreamPacket (bytes : Nat → Nat → Nat → Nat) (s : SchedulerUser) (slot : Scheduler.TxSlotInfo)
    (model : BaseModel)
    : Option (List BaseModel.Output × BaseModel) :=
  model.sendDownstreamPacket (s.txSlotInfo bytes slot)

def sendDownstreamPacket.noted (bytes : Nat → Nat → Nat → Nat) (s : SchedulerUser)
    (slot : Scheduler.TxSlotInfo)
    (model : BaseModel)
    : Attempt Arithmetic (List BaseModel.Output × BaseModel) := do
  -- the time that the message takes is a quotient as well, it is computed if there is a message
  Attempt.note (.divide 1000000)
  Attempt.note (.divide 8)
  Attempt.note (.budget (s.budget slot.dataRate))
  let bytesAvailable := bytes s.slotDuration s.slotOverhead slot.dataRate
  let (d, queueManager) ← Attempt.ofOption
    (model.queueManager.dequeue slot.queueId bytesAvailable slot.destination)
  let reports := d.reports.map BaseModel.Output.report
  let model' := { model with queueManager := queueManager }
  if d.totalLength ≠ 0 && d.totalLength ≤ bytesAvailable then
    Attempt.note (.divide slot.dataRate)
    let completedPackets := (d.components.filter (fun c => !c.moreFragments)).length
    let (outputs, model'') :=
      if model.flowControlEnable && completedPackets ≠ 0 then model'.addToken completedPackets
        else ([], model')
    let message := ⟨slot.absoluteSlotIndex, slot.dataRate, d.components⟩
    let packet := .sendDownstreamPacket model.sequenceNumber
      (BaseModel.frameDestination d.components) message
    return (reports ++ outputs ++ [packet], { model'' with sequenceNumber := model''.sequenceNumber + 1 })
  else
    return (reports, model')

inductive Call where
  | getSlotInfo (absoluteSlotIndex : Nat)
  | getSlotInfoAt (time : TimePoint)
  | getRxSlotInfo (time : TimePoint)
  | getTxSlotInfo (time : TimePoint) (multiframes : Nat)
  | sendDownstreamPacket (pendingTxSlotInfo : Scheduler.TxSlotInfo) (model : BaseModel)

inductive Answer where
  | slotInfo (slotInfo : Scheduler.SlotInfo)
  | rxSlotInfo (slotInfo : Scheduler.RxSlotInfo) (isRx : Bool)
  | txSlotInfos (slotInfos : Scheduler.TxSlotInfos) (nextTime : TimePoint) (scheduler : EventScheduler)
  | sent (outputs : List BaseModel.Output) (model : BaseModel)

def answer (bytes : Nat → Nat → Nat → Nat) (s : SchedulerUser) : Call → Option Answer
  | .getSlotInfo absoluteSlotIndex => (s.scheduler.getSlotInfo absoluteSlotIndex).map .slotInfo
  | .getSlotInfoAt time => (s.scheduler.getSlotInfoAt time).map .slotInfo
  | .getRxSlotInfo time =>
    (s.scheduler.getRxSlotInfo time).map (fun (slotInfo, isRx) => .rxSlotInfo slotInfo isRx)
  | .getTxSlotInfo time multiframes =>
    (s.scheduler.getTxSlotInfo time multiframes).map (fun ((slotInfos, nextTime), scheduler) =>
      .txSlotInfos slotInfos nextTime scheduler)
  | .sendDownstreamPacket slot model =>
    (s.sendDownstreamPacket bytes slot model).map (fun (outputs, model) => .sent outputs model)

def noted (bytes : Nat → Nat → Nat → Nat) (s : SchedulerUser) : Call → Attempt Arithmetic Answer
  | .getSlotInfo absoluteSlotIndex =>
    Answer.slotInfo <$> EventScheduler.getSlotInfo.noted s.scheduler absoluteSlotIndex
  | .getSlotInfoAt time => Answer.slotInfo <$> EventScheduler.getSlotInfoAt.noted s.scheduler time
  | .getRxSlotInfo time =>
    (fun (slotInfo, isRx) => .rxSlotInfo slotInfo isRx) <$> EventScheduler.getRxSlotInfo.noted
      s.scheduler time
  | .getTxSlotInfo time multiframes =>
    (fun ((slotInfos, nextTime), scheduler) => .txSlotInfos slotInfos nextTime scheduler)
      <$> EventScheduler.getTxSlotInfo.noted s.scheduler time multiframes
  | .sendDownstreamPacket slot model =>
    (fun (outputs, model) => .sent outputs model) <$> sendDownstreamPacket.noted bytes s slot model

inductive Event where
  | schedule (msg : Option Events.TDMAScheduleEvent.Message)
  | txSlotInfoRequest (time : TimePoint) (multiframes : Nat)

def step (s : SchedulerUser) : Event → Option SchedulerUser
  | .schedule msg => do
    let (_, change, scheduler) ← s.scheduler.processEvent msg
    match change with
    | some change => return { s with scheduler := scheduler }.notifyScheduleChange change
    | none => return { s with scheduler := scheduler }
  | .txSlotInfoRequest time multiframes => do
    let (_, scheduler) ← s.scheduler.getTxSlotInfo time multiframes
    return { s with scheduler := scheduler }

end SchedulerUser
end Tdma
end Emane

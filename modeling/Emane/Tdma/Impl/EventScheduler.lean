import Mathlib.Data.Finset.Lattice.Basic
import Mathlib.Data.Int.Basic
import Emane.Tdma.Impl.TDMAScheduleEvent

/-!
This module contains the scheduler that gets its schedule from events: how it keeps the schedule
and what it answers to questions about slots.
-/

namespace Emane
namespace Tdma

abbrev TimePoint := Int

def TimePoint.min : TimePoint := -2^63

/--
All of these are computed with 64 bits.
-/
structure Slotter where
  slotSizeMicroseconds : Nat := 0
  slotsPerFrame : Nat := 0
  framesPerMultiFrame : Nat := 0
  deriving DecidableEq

namespace Slotter

def timePoint (microseconds : Nat) : Option TimePoint :=
  let nanoseconds := (microseconds : Int).bmod (2^64) * 1000
  if -2^63 ≤ nanoseconds ∧ nanoseconds < 2^63 then some nanoseconds else none

def getMultiFrameTime (s : Slotter) (multiFrameIndex : Nat) : Option TimePoint :=
  timePoint (multiFrameIndex * s.framesPerMultiFrame * s.slotsPerFrame * s.slotSizeMicroseconds)

def getSlotTime (s : Slotter) (slotIndex : Nat) : Option TimePoint :=
  timePoint (slotIndex * s.slotSizeMicroseconds)

def getAbsoluteIndex (s : Slotter) (time : TimePoint) : Option (Nat × Nat × Nat) :=
  let count := (time.tdiv 1000 % 2^64).toNat
  if s.slotSizeMicroseconds = 0 ∨ s.slotsPerFrame = 0 ∨ s.framesPerMultiFrame = 0 then
    none
  else
    let slotIndex := count / s.slotSizeMicroseconds
    let frameIndex := slotIndex / s.slotsPerFrame
    some (slotIndex, frameIndex, frameIndex / s.framesPerMultiFrame)

def getRelativeIndex (s : Slotter) (slotIndex : Nat) : Option (Nat × Nat) :=
  if s.slotsPerFrame = 0 ∨ s.framesPerMultiFrame = 0 then
    none
  else
    some (slotIndex % s.slotsPerFrame, slotIndex / s.slotsPerFrame % s.framesPerMultiFrame)

end Slotter

namespace Scheduler

structure SlotInfo where
  absoluteSlotIndex : Nat
  relativeIndex : Nat
  relativeSlotIndex : Nat
  relativeFrameIndex : Nat
  timePoint : TimePoint
  type : Events.SlotInfo.Kind
  deriving DecidableEq

structure RxSlotInfo where
  absoluteSlotIndex : Nat
  relativeIndex : Nat
  relativeSlotIndex : Nat
  relativeFrameIndex : Nat
  timePoint : TimePoint
  frequency : Nat
  deriving DecidableEq

structure TxSlotInfo where
  absoluteSlotIndex : Nat
  relativeIndex : Nat
  relativeSlotIndex : Nat
  relativeFrameIndex : Nat
  timePoint : TimePoint
  frequency : Nat
  dataRate : Nat
  queueId : Nat
  power : UInt64
  destination : NEMId
  deriving DecidableEq

abbrev TxSlotInfos := List TxSlotInfo

structure ScheduleChange where
  frequencies : Finset Nat
  bandwidth : Nat
  slotDuration : Nat
  slotOverhead : Nat
  deriving DecidableEq

end Scheduler

structure EventScheduler where
  slotInfos : List Events.SlotInfo := []
  slotStructure : Events.SlotStructure := {}
  slotter : Slotter := {}
  waitingFirstTxSlotInfoRequest : Bool := false
  frequencies : Finset Nat := ∅
  deriving DecidableEq

namespace EventScheduler

inductive Outcome where
  | scheduleAcceptFull
  | scheduleAcceptUpdate
  | scheduleRejectSlotIndexRange
  | scheduleRejectFrameIndexRange
  | scheduleRejectUpdateBeforeFull
  | scheduleRejectOther
  deriving DecidableEq

def flushSchedule (s : EventScheduler) : Scheduler.ScheduleChange × EventScheduler :=
  (⟨∅, 0, 0, 0⟩, {
    s with
    slotInfos := []
    slotStructure := {}
    frequencies := ∅
    slotter := ⟨0, 0, 0⟩
  })

def indexes (slotStructure : Events.SlotStructure) : List Events.SlotInfo → Except Outcome (List Nat)
  -- The places of the slots of an update, computed with 32 bits. It stops at a slot that the
  -- schedule does not have.
  | [] => .ok []
  | info :: infos =>
    if info.frameIndex < slotStructure.framesPerMultiFrame then
      if info.slotIndex < slotStructure.slotsPerFrame then do
        let is ← indexes slotStructure infos
        return (info.frameIndex * slotStructure.slotsPerFrame + info.slotIndex) % 2^32 :: is
      else
        .error .scheduleRejectSlotIndexRange
    else
      .error .scheduleRejectFrameIndexRange

def assign (slotInfos : List Events.SlotInfo)
    : List (Nat × Events.SlotInfo) → Option (List Events.SlotInfo)
  -- The indices are kept as signed numbers of 32 bits. One that is negative then is far outside of
  -- the vector, where a write is not defined.
  | [] => some slotInfos
  | (i, info) :: updates =>
    if i < 2^31 ∧ i < slotInfos.length then
      assign (slotInfos.set i info) updates
    else
      none

def acceptSchedule (s : EventScheduler) (event : Events.TDMAScheduleEvent)
    : Scheduler.ScheduleChange × EventScheduler :=
  let frequencies := s.frequencies ∪ event.frequencies
  (⟨frequencies, s.slotStructure.bandwidth, s.slotStructure.slotDuration, s.slotStructure.slotOverhead⟩, {
    s with
    waitingFirstTxSlotInfoRequest := true
    slotter := ⟨s.slotStructure.slotDuration, s.slotStructure.slotsPerFrame,
      s.slotStructure.framesPerMultiFrame⟩
    frequencies := frequencies
  })

def processEvent (s : EventScheduler) (msg : Option Events.TDMAScheduleEvent.Message)
    : Option (Outcome × Option Scheduler.ScheduleChange × EventScheduler) :=
  match Events.TDMAScheduleEvent.ofMessage msg with
  | .ok event =>
    if event.hasStructure then
      let s' := { s with slotInfos := event.slotInfos, slotStructure :=
        event.slotStructure, frequencies := ∅ }
      let (change, s'') := s'.acceptSchedule event
      some (.scheduleAcceptFull, some change, s'')
    else if s.slotInfos.isEmpty then
      some (.scheduleRejectUpdateBeforeFull, none, s)
    else
      match indexes s.slotStructure event.slotInfos with
      | .ok is => do
        let slotInfos ← assign s.slotInfos (is.zip event.slotInfos)
        let (change, s') := { s with slotInfos := slotInfos }.acceptSchedule event
        return (.scheduleAcceptUpdate, some change, s')
      | .error outcome =>
        let (change, s') := s.flushSchedule
        some (outcome, some change, s')
  | .error _ =>
    let (change, s') := s.flushSchedule
    some (.scheduleRejectOther, some change, s')

def relativeIndex (s : EventScheduler) (relativeFrameIndex relativeSlotIndex : Nat) : Nat :=
  (relativeFrameIndex * s.slotStructure.slotsPerFrame + relativeSlotIndex) % 2^32

def getSlotInfo (s : EventScheduler) (absoluteSlotIndex : Nat) : Option Scheduler.SlotInfo :=
  if s.slotInfos.isEmpty then
    some ⟨0, 0, 0, 0, .min, .IDLE⟩
  else do
    let (relativeSlotIndex, relativeFrameIndex) ← s.slotter.getRelativeIndex absoluteSlotIndex
    let index := s.relativeIndex relativeFrameIndex relativeSlotIndex
    let info ← s.slotInfos[index]?
    let time ← s.slotter.getSlotTime absoluteSlotIndex
    return ⟨absoluteSlotIndex, index, relativeSlotIndex, relativeFrameIndex, time, info.type⟩

def getSlotInfoAt (s : EventScheduler) (time : TimePoint) : Option Scheduler.SlotInfo :=
  if s.slotInfos.isEmpty then
    some ⟨0, 0, 0, 0, .min, .IDLE⟩
  else do
    let (absoluteSlotIndex, _, _) ← s.slotter.getAbsoluteIndex time
    s.getSlotInfo absoluteSlotIndex

def getRxSlotInfo (s : EventScheduler) (time : TimePoint) : Option (Scheduler.RxSlotInfo × Bool) :=
  if s.slotInfos.isEmpty then
    some (⟨0, 0, 0, 0, .min, 0⟩, false)
  else do
    let (absoluteSlotIndex, _, _) ← s.slotter.getAbsoluteIndex time
    let (relativeSlotIndex, relativeFrameIndex) ← s.slotter.getRelativeIndex absoluteSlotIndex
    let index := s.relativeIndex relativeFrameIndex relativeSlotIndex
    let info ← s.slotInfos[index]?
    let time ← s.slotter.getSlotTime absoluteSlotIndex
    return (⟨absoluteSlotIndex, index, relativeSlotIndex, relativeFrameIndex, time, info.frequency⟩,
      info.type = .RX)

namespace getTxSlotInfo

def collect (slotter : Slotter) (slotInfos : List Events.SlotInfo)
    : Nat → Nat → Nat → Scheduler.TxSlotInfos → Option (Scheduler.TxSlotInfos × Nat)
  -- The loop over the rest of a multiframe. The index has 32 bits, and the loop is `none` if the
  -- fuel does not last.
  | 0, _, _, _ => none
  | fuel + 1, absoluteSlotIndex, index, txSlotInfos =>
    match slotInfos[index]? with
    | some info =>
      if info.type = .TX then do
        let time ← slotter.getSlotTime absoluteSlotIndex
        let txSlotInfo := {
          absoluteSlotIndex := absoluteSlotIndex
          relativeIndex := index
          relativeSlotIndex := info.slotIndex
          relativeFrameIndex := info.frameIndex
          timePoint := time
          frequency := info.frequency
          dataRate := info.dataRate
          queueId := info.serviceClass
          power := info.power
          destination := info.destination
        }
        collect slotter slotInfos fuel ((absoluteSlotIndex + 1) % 2^64) ((index + 1) % 2^32)
          (txSlotInfos ++ [txSlotInfo])
      else
        collect slotter slotInfos fuel ((absoluteSlotIndex + 1) % 2^64) ((index + 1) % 2^32) txSlotInfos
    | none => some (txSlotInfos, absoluteSlotIndex)

def collectAll (slotter : Slotter) (slotInfos : List Events.SlotInfo)
    : Nat → Nat → Nat → Scheduler.TxSlotInfos → Option Scheduler.TxSlotInfos
  | 0, _, _, txSlotInfos => some txSlotInfos
  | multiframes + 1, absoluteSlotIndex, index, txSlotInfos => do
    let (txSlotInfos, absoluteSlotIndex) ←
      collect slotter slotInfos (slotInfos.length + 1) absoluteSlotIndex index txSlotInfos
    collectAll slotter slotInfos multiframes absoluteSlotIndex 0 txSlotInfos

def requestTime (s : EventScheduler) (time : TimePoint) : Option TimePoint :=
  if s.waitingFirstTxSlotInfoRequest then do
    let (_, _, multiFrameIndex) ← s.slotter.getAbsoluteIndex time
    s.slotter.getMultiFrameTime (multiFrameIndex + 1)
  else
    some time

end getTxSlotInfo

def getTxSlotInfo (s : EventScheduler) (time : TimePoint) (multiframes : Nat)
    : Option ((Scheduler.TxSlotInfos × TimePoint) × EventScheduler) :=
  if s.slotInfos.isEmpty then
    some (([], .min), s)
  else do
    let requestTime ← getTxSlotInfo.requestTime s time
    let (absoluteSlotIndex, _, multiFrameIndex) ← s.slotter.getAbsoluteIndex requestTime
    let (relativeSlotIndex, relativeFrameIndex) ← s.slotter.getRelativeIndex absoluteSlotIndex
    let index := s.relativeIndex relativeFrameIndex relativeSlotIndex
    let txSlotInfos ← getTxSlotInfo.collectAll s.slotter s.slotInfos multiframes
      absoluteSlotIndex index []
    let nextTime ← s.slotter.getMultiFrameTime (multiFrameIndex + multiframes)
    return ((txSlotInfos, nextTime), { s with waitingFirstTxSlotInfoRequest := false })

end EventScheduler
end Tdma
end Emane

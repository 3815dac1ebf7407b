import Mathlib.Data.Finset.Insert
import Emane.Tdma.Impl.Packet

/-!
This module contains the event that brings a TDMA schedule: a full schedule with its structure, or
an update of single slots.
-/

namespace Emane
namespace Tdma
namespace Events

inductive SlotInfo.Kind where
  | TX
  | RX
  | IDLE
  deriving DecidableEq

/--
The power is a floating point number that is only handed on, so its bits will do.
-/
structure SlotInfo where
  type : SlotInfo.Kind
  frameIndex : Nat
  slotIndex : Nat
  frequency : Nat := 0
  dataRate : Nat := 0
  serviceClass : Nat := 0
  power : UInt64 := 0
  destination : NEMId := 0
  deriving DecidableEq

structure SlotStructure where
  bandwidth : Nat := 0
  framesPerMultiFrame : Nat := 0
  slotsPerFrame : Nat := 0
  slotDuration : Nat := 0
  slotOverhead : Nat := 0
  deriving DecidableEq

namespace TDMAScheduleEvent

structure Message.Tx where
  frequencyHz : Option Nat := none
  dataRatebps : Option Nat := none
  serviceClass : Option Nat := none
  powerdBm : Option UInt64 := none
  destination : Option Nat := none
  deriving DecidableEq

structure Message.Rx where
  frequencyHz : Option Nat := none
  deriving DecidableEq

structure Message.Slot where
  index : Nat
  type : SlotInfo.Kind
  tx : Message.Tx := {}
  rx : Message.Rx := {}
  deriving DecidableEq

structure Message.Frame where
  index : Nat
  frequencyHz : Option Nat := none
  dataRatebps : Option Nat := none
  serviceClass : Option Nat := none
  powerdBm : Option UInt64 := none
  slots : List Message.Slot := []
  deriving DecidableEq

structure Message where
  frames : List Message.Frame := []
  slotStructure : Option SlotStructure := none
  frequencyHz : Option Nat := none
  dataRatebps : Option Nat := none
  serviceClass : Option Nat := none
  powerdBm : Option UInt64 := none
  deriving DecidableEq

inductive SerializationException where
  | unableToDeserialize
  | frameIndexOutOfRange (frame : Nat)
  | slotIndexOutOfRange (frame slot : Nat)
  | undeterminableFrequency (frame slot : Nat)
  | undeterminableDataRate (frame slot : Nat)
  | undeterminableClass (frame slot : Nat)
  | undeterminablePower (frame slot : Nat)
  deriving DecidableEq

def SerializationException.what : SerializationException → String
  | unableToDeserialize => "unable to deserialize : TDMAScheduleEvent"
  | frameIndexOutOfRange frame => s!"TDMAScheduleEvent : Frame {frame} index out of range"
  | slotIndexOutOfRange frame slot =>
    s!"TDMAScheduleEvent : Frame {frame} Slot {slot} slot index out of range"
  | undeterminableFrequency frame slot =>
    s!"TDMAScheduleEvent : Frame {frame} Slot {slot} has undeterminable frequency"
  | undeterminableDataRate frame slot =>
    s!"TDMAScheduleEvent : Frame {frame} Slot {slot} has undeterminable datarate"
  | undeterminableClass frame slot =>
    s!"TDMAScheduleEvent : Frame {frame} Slot {slot} has undeterminable class"
  | undeterminablePower frame slot =>
    s!"TDMAScheduleEvent : Frame {frame} Slot {slot} has undeterminable power"

end TDMAScheduleEvent

structure TDMAScheduleEvent where
  slotStructure : SlotStructure
  hasStructure : Bool
  slotInfos : List SlotInfo
  frequencies : Finset Nat
  deriving DecidableEq

namespace TDMAScheduleEvent

def determine {α : Type} (value : Option α) (exception : SerializationException)
    : Except SerializationException α :=
  match value with
  | some a => .ok a
  | none => .error exception

def slotInfoOf (msg : Message) (frame : Message.Frame) (slot : Message.Slot)
    : Except SerializationException SlotInfo :=
  -- the class has 8 bits and the destination has 16, the message has room for more
  match slot.type with
  | .TX => do
    let frequency ← determine (slot.tx.frequencyHz <|> frame.frequencyHz <|> msg.frequencyHz)
      (.undeterminableFrequency frame.index slot.index)
    let dataRate ← determine (slot.tx.dataRatebps <|> frame.dataRatebps <|> msg.dataRatebps)
      (.undeterminableDataRate frame.index slot.index)
    let serviceClass ← determine (slot.tx.serviceClass <|> frame.serviceClass <|> msg.serviceClass)
      (.undeterminableClass frame.index slot.index)
    let power ← determine (slot.tx.powerdBm <|> frame.powerdBm <|> msg.powerdBm)
      (.undeterminablePower frame.index slot.index)
    return {
      type := .TX
      frameIndex := frame.index
      slotIndex := slot.index
      frequency := frequency
      dataRate := dataRate
      serviceClass := serviceClass % 2^8
      power := power
      destination := slot.tx.destination.getD 0 % 2^16
    }
  | .RX => do
    let frequency ← determine (slot.rx.frequencyHz <|> frame.frequencyHz <|> msg.frequencyHz)
      (.undeterminableFrequency frame.index slot.index)
    return { type := .RX, frameIndex := frame.index, slotIndex := slot.index, frequency := frequency }
  | .IDLE => return { type := .IDLE, frameIndex := frame.index, slotIndex := slot.index }

def place (event : TDMAScheduleEvent) (info : SlotInfo) : TDMAScheduleEvent :=
  -- The place of a slot in a full schedule is computed with 32 bits. An update keeps its slots in
  -- the order in which they came.
  { event with
    frequencies := insert info.frequency event.frequencies
    slotInfos :=
      if event.hasStructure then
        event.slotInfos.set
          ((info.frameIndex * event.slotStructure.slotsPerFrame + info.slotIndex) % 2^32) info
      else
        event.slotInfos ++ [info] }

def addSlot (msg : Message) (frame : Message.Frame) (event : TDMAScheduleEvent) (slot : Message.Slot)
    : Except SerializationException TDMAScheduleEvent :=
  if event.hasStructure && event.slotStructure.slotsPerFrame ≤ slot.index then
    .error (.slotIndexOutOfRange frame.index slot.index)
  else do
    let info ← slotInfoOf msg frame slot
    return event.place info

def addMissingSlot (msg : Message) (frame : Message.Frame) (event : TDMAScheduleEvent) (slotIndex : Nat)
    : Except SerializationException TDMAScheduleEvent := do
  let frequency ← determine (frame.frequencyHz <|> msg.frequencyHz)
    (.undeterminableFrequency frame.index slotIndex)
  return event.place
    { type := .RX, frameIndex := frame.index, slotIndex := slotIndex, frequency := frequency }

def missingSlots (frame : Message.Frame) (slotsPerFrame : Nat) : List Nat :=
  (List.range slotsPerFrame).filter (fun i => i ∉ frame.slots.map Message.Slot.index)

def addFrame (msg : Message) (event : TDMAScheduleEvent) (frame : Message.Frame)
    : Except SerializationException TDMAScheduleEvent :=
  if event.hasStructure && event.slotStructure.framesPerMultiFrame ≤ frame.index then
    .error (.frameIndexOutOfRange frame.index)
  else do
    let event ← frame.slots.foldlM (addSlot msg frame) event
    if event.hasStructure then
      (missingSlots frame event.slotStructure.slotsPerFrame).foldlM (addMissingSlot msg frame) event
    else
      return event

def idleSchedule (framesPerMultiFrame slotsPerFrame : Nat) : List SlotInfo :=
  (List.range framesPerMultiFrame).flatMap (fun i =>
    (List.range slotsPerFrame).map (fun j => { type := .IDLE, frameIndex := i, slotIndex := j }))

def empty (msg : Message) : TDMAScheduleEvent :=
  match msg.slotStructure with
  | some s => ⟨s, true, idleSchedule s.framesPerMultiFrame s.slotsPerFrame, ∅⟩
  | none => ⟨{}, false, [], ∅⟩

def ofMessage : Option Message → Except SerializationException TDMAScheduleEvent
  | some msg => msg.frames.foldlM (addFrame msg) (empty msg)
  | none => .error .unableToDeserialize

end TDMAScheduleEvent
end Events
end Tdma
end Emane

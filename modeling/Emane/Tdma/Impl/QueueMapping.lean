import Mathlib.Order.Fin.Basic
import Emane.Lib.SortedMap
import Emane.Lib.Text
import Emane.Tdma.Impl.Packet

/-!
This module contains the mapping of priorities to queues as it is configured: texts, which all
radio models of an emulator put to the same place and which are read for every packet.
-/

namespace Emane
namespace Tdma

abbrev QueueTexts := SortedMap (Fin 4) Text

inductive ParseFault where
  | invalidArgument
  | outOfRange
  | emptyItem
  deriving DecidableEq

def stoi (s : Text) : Except ParseFault Int :=
  match s.readInt with
  | none => .error .invalidArgument
  | some n => if -2^31 ≤ n ∧ n < 2^31 then .ok n else .error .outOfRange

def itemBounds (value : Text) : Except ParseFault (Int × Int) :=
  match value.split '-' with
  | [] => .error .emptyItem
  | x :: xs => do
    let numA ← stoi x
    let numB ← stoi (xs.getLastD x)
    return (numA, numB)

def inItems (priority : Priority) : List Text → Except ParseFault Bool
  | [] => .ok false
  | value :: values => do
    let (numA, numB) ← itemBounds value
    if numA ≤ priority ∧ priority ≤ numB then
      return true
    else
      inItems priority values

theorem queue0_lt : 0 < 4 := by
  decide

def queue0 : Fin 4 :=
  ⟨0, queue0_lt⟩

namespace QueueTexts

def priorityToQueue (queueMapping : QueueTexts) (priority : Priority) : Except ParseFault (Fin 4) :=
  queueMapping.toList.foldlM
    (fun u8Queue entry => do
      if ← inItems priority (entry.2.split ',') then
        return entry.1
      else
        return u8Queue)
    queue0

end QueueTexts

inductive ConfigItem where
  | dscpqueue (queue : Fin 4) (value : Text)
  | other (known : Bool)
  deriving DecidableEq

structure Nems (ι : Type) where
  queueMapping : ι → QueueTexts
  singleton : QueueTexts
  chosen : List (ι × Except ParseFault (Fin 4))

namespace Nems

variable {ι : Type}

def init : Nems ι where
  queueMapping _ := .empty
  singleton := .empty
  chosen := []

def configureItem (queueMapping : QueueTexts) : ConfigItem → Option QueueTexts
  | .dscpqueue queue value => some (queueMapping.set queue value)
  | .other known => if known then some queueMapping else none

variable [DecidableEq ι]

def configure (nem : ι) (update : List ConfigItem) (accepted : Bool) (s : Nems ι) : Option (Nems ι) := do
  -- The queue manager and the scheduler are configured before the texts are put to the common
  -- place, and they can refuse it. An exception ends the emulator.
  let queueMapping ← update.foldlM configureItem (s.queueMapping nem)
  if accepted then
    return { s with queueMapping := Function.update s.queueMapping nem queueMapping, singleton :=
      queueMapping }
  else
    none

def processDownstreamPacket (nem : ι) (priority : Priority) (s : Nems ι) : Nems ι :=
  { s with chosen := s.chosen ++ [(nem, s.singleton.priorityToQueue priority)] }

inductive Event (ι : Type) where
  | configure (nem : ι) (update : List ConfigItem) (accepted : Bool)
  | downstream (nem : ι) (priority : Priority)

def Event.nem : Event ι → ι
  | .configure nem _ _ => nem
  | .downstream nem _ => nem

def step (s : Nems ι) : Event ι → Option (Nems ι)
  | .configure nem update accepted => s.configure nem update accepted
  | .downstream nem priority => some (s.processDownstreamPacket nem priority)

end Nems
end Tdma
end Emane

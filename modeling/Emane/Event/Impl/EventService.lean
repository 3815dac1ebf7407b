import Emane.Lib.SortedMap
import Emane.Ota.Impl.OTAManager

/-!
This module contains the service for events: an event goes to the users that are registered for it
in the same emulator, and as a datagram to the services of other emulators.
-/

namespace Emane

structure EventSerialization where
  nemId : UInt32
  eventId : UInt32
  data : Bytes
  deriving DecidableEq

structure EventMessage where
  uuid : Bytes
  sequenceNumber : UInt64
  serializations : List EventSerialization
  deriving DecidableEq

structure EventCodec where
  serializeToString : EventMessage → Option Bytes
  parseFromArray : Bytes → Option EventMessage
  parse_serialize : ∀ msg bytes, serializeToString msg = some bytes → parseFromArray bytes = some msg

structure EventService where
  uuid : UUID
  eventServiceUserMap : SortedMap Nat NEMId
  eventRegistrationMap : List EventRegistration
  bOpen : Bool
  sequenceNumber : UInt64
  registered : ∀ r ∈ eventRegistrationMap, eventServiceUserMap.find? r.buildId = some r.nemId

namespace EventService

inductive RegistrarException where
  | notEligible
  deriving DecidableEq

structure ProcessEvent where
  registration : EventRegistration
  eventId : EventId
  serialization : Bytes
  deriving DecidableEq

def create (uuid : UUID) : EventService where
  uuid := uuid
  eventServiceUserMap := .empty
  eventRegistrationMap := []
  bOpen := true
  sequenceNumber := 0
  registered _ h := by cases h

def registerEventServiceUser (buildId : Nat) (nemId : NEMId) (s : EventService) : EventService :=
  { s with
    eventServiceUserMap := s.eventServiceUserMap.insert buildId nemId
    registered := by
      intro r hr
      rw [SortedMap.find?_insert, s.registered r hr]
      split
      . next heq =>
        subst heq
        simp [s.registered r hr]
      . rfl
  }

def registerEvent (buildId : Nat) (eventId : EventId) (s : EventService)
    : Except RegistrarException EventService :=
  match h : s.eventServiceUserMap.find? buildId with
  | some nemId => .ok { s with
      eventRegistrationMap := s.eventRegistrationMap ++ [⟨eventId, buildId, nemId⟩]
      registered := by
        intro r hr
        rw [List.mem_append, List.mem_singleton] at hr
        cases hr with
        | inl hmem => exact s.registered r hmem
        | inr heq =>
          subst heq
          exact h
    }
  | none => .error .notEligible

def equalRange (s : EventService) (eventId : EventId) : List EventRegistration :=
  s.eventRegistrationMap.filter (fun r => r.eventId = eventId)

def isOriginator (buildId : Nat) (r : EventRegistration) : Bool :=
  buildId ≠ 0 ∧ r.buildId = buildId

def localCalls (s : EventService) (buildId : Nat) (nemId : NEMId) (eventId : EventId)
    (serialization : Bytes) : List ProcessEvent :=
  ((s.equalRange eventId).filter (fun r =>
    (buildId = 0 ∨ r.buildId ≠ buildId) ∧ (nemId = 0 ∨ r.nemId = nemId))).map
      (fun r => ⟨r, eventId, serialization⟩)

def sendEvent (s : EventService) (codec : EventCodec) (buildId : Nat) (nemId : NEMId)
    (eventId : EventId) (serialization : Bytes)
    : List ProcessEvent × Option (List Bytes) × EventService :=
  let calls := s.localCalls buildId nemId eventId serialization
  if s.bOpen then
    let msg := ⟨s.uuid.val, s.sequenceNumber + 1, [⟨nemId.toUInt32, eventId.toUInt32, serialization⟩]⟩
    let s := { s with sequenceNumber := s.sequenceNumber + 1 }
    match codec.serializeToString msg with
    | some sSerialization => (calls, some [lengthPrefix sSerialization.length, sSerialization], s)
    | none => (calls, none, s)
  else
    (calls, none, s)

def remoteCalls (s : EventService) (serialization : EventSerialization) : List ProcessEvent :=
  let nemId := serialization.nemId.toUInt16
  ((s.equalRange serialization.eventId.toUInt16).filter (fun r =>
    nemId = 0 ∨ r.nemId = 0 ∨ r.nemId = nemId)).map (fun r =>
      ⟨r, serialization.eventId.toUInt16, serialization.data⟩)

structure Reception where
  reads : List (Nat × Nat) := []
  uuid : Option Bytes := none
  calls : List ProcessEvent := []
  deriving DecidableEq

def processMessage (s : EventService) (codec : EventCodec) (mem beyond : Nat → UInt8) (len : Nat)
    : Reception :=
  let length := ntohs (Memory.load mem 0 2)
  if 2 ≤ len ∧ len - 2 = length then
    match codec.parseFromArray (Memory.load mem 2 length) with
    | some msg =>
      let remoteUUID := OTAManager.copyUUID msg.uuid beyond
      -- only process multicast events that were not sourced locally
      let calls := if s.uuid ≠ remoteUUID then msg.serializations.flatMap s.remoteCalls else []
      { reads := [(0, 2), (2, length)], uuid := some msg.uuid, calls := calls }
    | none => { reads := [(0, 2), (2, length)] }
  else
    { reads := [(0, 2)] }

structure Arrival where
  msg : Datagram
  stale : Nat → UInt8
  beyond : Nat → UInt8

def Arrival.process (arrival : Arrival) (s : EventService) (codec : EventCodec) : Reception :=
  s.processMessage codec (Memory.ofList arrival.msg.val arrival.stale) arrival.beyond
    arrival.msg.val.length

def process (s : EventService) (codec : EventCodec) (arrival : Arrival) : Option Reception :=
  if arrival.msg.val.length > 0 then some (arrival.process s codec) else none

end EventService
end Emane

import Emane.Event.Impl.EventService
import Emane.Ota.Lemmas.Codec
import Emane.Packet.Lemmas.Packet

/-!
This module contains where an event goes: who is given it in the emulator of its publisher and who
in another one, and where a datagram is read.
-/

namespace Emane

open Protobuf

namespace EventSerialization

def values (s : EventSerialization) : List Value :=
  [.number s.nemId.toNat, .number s.eventId.toNat, .bytes s.data]

def ofValues : List Value → Option EventSerialization
  | [.number nemId, .number eventId, .bytes data] => some ⟨.ofNat nemId, .ofNat eventId, data⟩
  | _ => none

def encode (s : EventSerialization) : Bytes :=
  writeRecord 1 s.values

def parse : Value → Option EventSerialization
  | .bytes bytes => (readRecord 1 [.number, .number, .bytes] bytes).bind ofValues
  | .number _ => none

theorem length_le_encode (s : EventSerialization) : s.data.length ≤ s.encode.length := by
  have hvalue := @length_le_writeRecord 1 s.values (.bytes s.data) (by simp [values])
  exact Nat.le_trans (Value.length_le_write _) hvalue

theorem parse_encode {s : EventSerialization} (h : s.data.length < 2^64)
    : parse (.bytes s.encode) = some s := by
  have hread := readRecord_writeRecord 1 s.values (by
    have hnemId := s.nemId.toNat_lt
    have heventId := s.eventId.toNat_lt
    simp only [values, List.forall_mem_cons, Value.Fits, List.not_mem_nil, false_implies,
      implies_true, and_true]
    omega) (by simp [values])
  change (readRecord 1 (s.values.map Value.wire) (writeRecord 1 s.values)).bind ofValues = _
  rw [hread, Option.bind_some]
  simp [ofValues, values]

end EventSerialization

namespace EventMessage

def data (msg : EventMessage) : Bytes :=
  writeRepeated 1 (msg.serializations.map (fun s => .bytes s.encode))

def values (msg : EventMessage) : List Value :=
  [.bytes msg.uuid, .number msg.sequenceNumber.toNat, .bytes msg.data]

def ofValues : List Value → Option EventMessage
  | [.bytes uuid, .number sequenceNumber, .bytes data] =>
    ((readRepeated 1 .bytes data).bind (fun vs => vs.mapM EventSerialization.parse)).map
        (fun serializations =>
      ⟨uuid, .ofNat sequenceNumber, serializations⟩)
  | _ => none

def encode (msg : EventMessage) : Bytes :=
  writeRecord 1 msg.values

def parse (bytes : Bytes) : Option EventMessage :=
  (readRecord 1 [.bytes, .number, .bytes] bytes).bind ofValues

theorem mapM_parse_encode {serializations : List EventSerialization}
    (h : ∀ s ∈ serializations, s.encode.length < 2^64)
    : (serializations.map (fun s => Value.bytes s.encode)).mapM EventSerialization.parse
        = some serializations := by
  induction serializations with
  | nil => rfl
  | cons s serializations ih =>
    have hs := h s List.mem_cons_self
    have hdata := s.length_le_encode
    rw [List.map_cons, List.mapM_cons, ih (fun s' hs' => h s' (List.mem_cons_of_mem _ hs')),
      EventSerialization.parse_encode (by omega)]
    rfl

theorem parse_encode {msg : EventMessage} (h : msg.encode.length < 2^31)
    : parse msg.encode = some msg := by
  have hlength : ∀ bytes, .bytes bytes ∈ msg.values → bytes.length < 2^31 := by
    intro bytes hbytes
    have hvalue := @length_le_writeRecord 1 msg.values (.bytes bytes) hbytes
    exact Nat.lt_of_le_of_lt (Nat.le_trans (Value.length_le_write bytes) hvalue) h
  have huuid := hlength msg.uuid (by simp [values])
  have hdata := hlength msg.data (by simp [values])
  have hread := readRecord_writeRecord 1 msg.values (by
    have hsequence := msg.sequenceNumber.toNat_lt
    simp only [values, List.forall_mem_cons, Value.Fits, List.not_mem_nil, false_implies,
      implies_true, and_true]
    omega) (by simp [values])
  have hserializations : ∀ s ∈ msg.serializations, s.encode.length < 2^64 := by
    intro s hs
    have hvalue := @length_write_le_writeRepeated 1 _ (.bytes s.encode)
      (List.mem_map_of_mem (f := fun s => Value.bytes (EventSerialization.encode s)) hs)
    have hle := Value.length_le_write s.encode
    unfold data at hdata
    omega
  have hrepeated := @readRepeated_writeRepeated 1 (by decide) .bytes
      (msg.serializations.map (fun s => .bytes s.encode)) (by
    intro v hv
    rw [List.mem_map] at hv
    obtain ⟨s, hs, rfl⟩ := hv
    exact ⟨rfl, hserializations s hs⟩)
  change (readRecord 1 (msg.values.map Value.wire) (writeRecord 1 msg.values)).bind ofValues = _
  rw [hread, Option.bind_some]
  simp only [values, ofValues, data]
  rw [hrepeated, Option.bind_some, mapM_parse_encode hserializations]
  simp

end EventMessage

def EventCodec.protobuf : EventCodec where
  serializeToString msg := if msg.encode.length < 2^31 then some msg.encode else none
  parseFromArray := EventMessage.parse
  parse_serialize msg bytes h := by
    split at h
    . next hlength =>
      cases h
      exact EventMessage.parse_encode hlength
    . cases h

namespace EventService

def givenTo (r : EventRegistration) (calls : List ProcessEvent) : List ProcessEvent :=
  calls.filter (fun call => call.registration = r)

/--
A user is given an event in the emulator of the publisher exactly if it is in another one, once
for each time that it has registered.
-/
structure RoutedAlike (s s' : EventService) (r : EventRegistration) (eventId : EventId)
    (serialization : Bytes)
    (near far : List ProcessEvent) : Prop where
  alike : givenTo r near ≠ [] ↔ givenTo r far ≠ []
  near : givenTo r near ≠ [] → givenTo r near = List.replicate (s.eventRegistrationMap.count r)
    ⟨r, eventId, serialization⟩
  far : givenTo r far ≠ [] → givenTo r far = List.replicate (s'.eventRegistrationMap.count r)
    ⟨r, eventId, serialization⟩

section

variable {s s' : EventService} {codec : EventCodec} {r : EventRegistration} {buildId : Nat}
  {nemId : NEMId} {eventId : EventId}
  {serialization : Bytes}

theorem givenTo_calls (s : EventService) (p : EventRegistration → Bool)
    : givenTo r (((s.equalRange eventId).filter p).map (fun r => ⟨r, eventId, serialization⟩))
        =
      if r.eventId = eventId ∧ p r = true then
        List.replicate (s.eventRegistrationMap.count r) ⟨r, eventId, serialization⟩
      else
        [] := by
  have hfilter : (fun call : ProcessEvent => decide (call.registration = r))
      ∘ (fun r' => ProcessEvent.mk r' eventId serialization) = fun r' => decide (r' = r) := rfl
  unfold givenTo equalRange
  rw [List.filter_map, hfilter, List.filter_eq, List.map_replicate]
  split
  . next h =>
    rw [List.count_filter h.2, List.count_filter (by simpa using h.1)]
  . next h =>
    rw [List.count_eq_zero_of_not_mem, List.replicate_zero]
    intro hmem
    simp only [List.mem_filter, decide_eq_true_eq] at hmem
    exact h ⟨hmem.1.2, hmem.2⟩

theorem givenTo_localCalls (s : EventService)
    : givenTo r (s.localCalls buildId nemId eventId serialization)
        =
      if r.eventId = eventId ∧ isOriginator buildId r = false ∧ (nemId = 0 ∨ r.nemId = nemId) then
        List.replicate (s.eventRegistrationMap.count r) ⟨r, eventId, serialization⟩
      else
        [] := by
  unfold localCalls
  rw [givenTo_calls]
  simp [isOriginator, imp_iff_not_or]

theorem givenTo_remoteCalls (s : EventService)
    : givenTo r (s.remoteCalls ⟨nemId.toUInt32, eventId.toUInt32, serialization⟩)
        =
      if r.eventId = eventId ∧ (nemId = 0 ∨ r.nemId = 0 ∨ r.nemId = nemId) then
        List.replicate (s.eventRegistrationMap.count r) ⟨r, eventId, serialization⟩
      else
        [] := by
  unfold remoteCalls
  rw [givenTo_calls]
  simp

theorem processMessage_of_length {mem beyond : Nat → UInt8} {len : Nat} {msg : EventMessage}
    (htwo : 2 ≤ len)
    (hlength : ntohs (Memory.load mem 0 2) = len - 2)
    (hparse : codec.parseFromArray (Memory.load mem 2 (len - 2)) = some msg)
    : s.processMessage codec mem beyond len
        =
      { reads := [(0, 2), (2, len - 2)]
        uuid := some msg.uuid
        calls := if s.uuid ≠ OTAManager.copyUUID msg.uuid beyond
            then msg.serializations.flatMap s.remoteCalls else [] } := by
  unfold processMessage
  simp only [hlength, hparse, htwo, and_self, if_true]

theorem copyUUID_val (uuid : UUID) (beyond : Nat → UInt8)
    : OTAManager.copyUUID uuid.val beyond = uuid := by
  apply Subtype.ext
  have hload := @Memory.load_ofList _ uuid.val beyond 0 16 (by rw [uuid.property])
  have htake : uuid.val.take 16 = uuid.val := List.take_of_length_le (by rw [uuid.property])
  rw [List.drop_zero, htake] at hload
  exact hload

theorem sendEvent_eq {near : List ProcessEvent} {vector : List Bytes}
    (hsend : s.sendEvent codec buildId nemId eventId serialization = (near, some vector, s'))
    : near = s.localCalls buildId nemId eventId serialization
        ∧ ∃ bytes, vector = [lengthPrefix bytes.length, bytes]
        ∧ codec.parseFromArray bytes
          = some ⟨s.uuid.val, s.sequenceNumber + 1,
              [⟨nemId.toUInt32, eventId.toUInt32, serialization⟩]⟩ := by
  unfold sendEvent at hsend
  simp only at hsend
  split at hsend
  . split at hsend
    . next bytes hserialize =>
      simp only [Prod.mk.injEq, Option.some.injEq] at hsend
      exact ⟨hsend.1.symm, bytes, hsend.2.1.symm, codec.parse_serialize _ _ hserialize⟩
    . simp at hsend
  . simp at hsend

theorem process_of_sendEvent {near : List ProcessEvent} {vector : List Bytes}
    (hsend : s.sendEvent codec buildId nemId eventId serialization = (near, some vector, s'))
    {arrival : Arrival}
    (harrival : arrival.msg.val = vector.flatten) {receiver : EventService}
    (huuid : receiver.uuid ≠ s.uuid)
    : ∃ reception, receiver.process codec arrival = some reception
        ∧ reception.calls = receiver.remoteCalls ⟨nemId.toUInt32, eventId.toUInt32, serialization⟩ := by
  obtain ⟨-, bytes, rfl, hparse⟩ := sendEvent_eq hsend
  have hmsg : arrival.msg.val = lengthPrefix bytes.length ++ bytes := by simpa using harrival
  have hlen : arrival.msg.val.length = 2
    + bytes.length := by rw [hmsg, List.length_append, length_lengthPrefix]
  have hlt := arrival.msg.property
  have hholds := Memory.holds_ofList arrival.msg.val arrival.stale
  rw [hmsg, Memory.holds_append_iff] at hholds
  obtain ⟨hfirst, hbytes⟩ := hholds
  unfold Memory.Holds at hfirst hbytes
  rw [length_lengthPrefix, ← hmsg] at hfirst
  rw [length_lengthPrefix, ← hmsg, Nat.zero_add] at hbytes
  have hlength : ntohs (Memory.load (Memory.ofList arrival.msg.val arrival.stale) 0 2)
      = arrival.msg.val.length - 2 := by
    rw [hfirst, hlen, Nat.add_sub_cancel_left]
    exact foldl_lengthPrefix (by omega)
  have hparse' : codec.parseFromArray
    (Memory.load (Memory.ofList arrival.msg.val arrival.stale) 2 (arrival.msg.val.length - 2))
      = some ⟨s.uuid.val, s.sequenceNumber + 1, [⟨nemId.toUInt32, eventId.toUInt32, serialization⟩]⟩ := by
    rw [hlen, Nat.add_sub_cancel_left, hbytes, hparse]
  refine ⟨arrival.process receiver codec, ?_, ?_⟩
  . unfold process
    rw [if_pos (by omega)]
  . unfold Arrival.process
    rw [processMessage_of_length (by omega) hlength hparse']
    rw [copyUUID_val, if_pos huuid, List.flatMap_singleton]

theorem replicate_ne_nil_iff {p : Prop} [Decidable p] {n : Nat} {call : ProcessEvent} (hn : 0 < n)
    : (if p then List.replicate n call else []) ≠ [] ↔ p := by
  split
  . next hp => simp [hp, Nat.ne_of_gt hn]
  . next hp => simp [hp]

theorem routedAlike_iff {receiver : EventService} (hr : r ∈ s.eventRegistrationMap)
    (hr' : r ∈ receiver.eventRegistrationMap)
    (horiginator : isOriginator buildId r = false)
    : RoutedAlike s receiver r eventId serialization (s.localCalls buildId nemId eventId serialization)
        (receiver.remoteCalls ⟨nemId.toUInt32, eventId.toUInt32, serialization⟩)
        ↔
      r.eventId ≠ eventId ∨ nemId = 0 ∨ r.nemId ≠ 0 := by
  have hcount := List.count_pos_iff.mpr hr
  have hcount' := List.count_pos_iff.mpr hr'
  have hnear := @givenTo_localCalls r buildId nemId eventId serialization s
  have hfar := @givenTo_remoteCalls r nemId eventId serialization receiver
  have halike : (givenTo r (s.localCalls buildId nemId eventId serialization) ≠ []
      ↔ givenTo r (receiver.remoteCalls ⟨nemId.toUInt32, eventId.toUInt32, serialization⟩) ≠ [])
        ↔ (r.eventId ≠ eventId ∨ nemId = 0 ∨ r.nemId ≠ 0) := by
    rw [hnear, hfar, replicate_ne_nil_iff hcount, replicate_ne_nil_iff hcount']
    by_cases hzero : r.nemId = 0
    . have heq : (0 = nemId) ↔ nemId = 0 := eq_comm
      simp only [hzero, horiginator, heq, true_and, true_or, or_true, or_self, and_true, ne_eq,
        not_true_eq_false, or_false]
      tauto
    . simp [hzero, horiginator]
  constructor
  . exact fun h => halike.mp h.alike
  . intro hcondition
    constructor
    . exact halike.mpr hcondition
    . intro hgiven
      rw [hnear] at hgiven ⊢
      rw [if_pos ((replicate_ne_nil_iff hcount).mp hgiven)]
    . intro hgiven
      rw [hfar] at hgiven ⊢
      rw [if_pos ((replicate_ne_nil_iff hcount').mp hgiven)]

def Handled (s : EventService) (codec : EventCodec) (arrival : Arrival) : Prop :=
  ∃ reception, s.process codec arrival = some reception
    ∧ (∀ read ∈ reception.reads, read.1 + read.2 ≤ arrival.msg.val.length)
    ∧ ∀ field, reception.uuid = some field → 16 ≤ field.length

def Complete (codec : EventCodec) (bytes : Bytes) : Prop :=
  2 ≤ bytes.length
    ∧ ∀ msg, ntohs (bytes.take 2) = bytes.length - 2
      → codec.parseFromArray (bytes.drop 2) = some msg → 16 ≤ msg.uuid.length

theorem load_msg {arrival : Arrival} (htwo : 2 ≤ arrival.msg.val.length)
    : Memory.load (Memory.ofList arrival.msg.val arrival.stale) 0 2 = arrival.msg.val.take 2
        ∧ Memory.load (Memory.ofList arrival.msg.val arrival.stale) 2 (arrival.msg.val.length - 2)
            = arrival.msg.val.drop 2 := by
  constructor
  . rw [Memory.load_ofList _ (by omega), List.drop_zero]
  . rw [Memory.load_ofList _ (by omega), List.take_of_length_le (by rw [List.length_drop])]

theorem handled_iff (s : EventService) (codec : EventCodec) (arrival : Arrival)
    : s.Handled codec arrival ↔ Complete codec arrival.msg.val := by
  unfold Handled Complete process
  by_cases hpos : arrival.msg.val.length > 0
  . simp only [if_pos hpos, Option.some.injEq, exists_eq_left']
    by_cases htwo : 2 ≤ arrival.msg.val.length
    . obtain ⟨hlength, hbytes⟩ := load_msg htwo
      unfold Arrival.process processMessage
      simp only [hlength, htwo, true_and]
      split
      . next heq =>
        rw [← heq, hbytes]
        cases hparse : codec.parseFromArray (arrival.msg.val.drop 2) with
        | some msg => simp [htwo]
        | none => simp [htwo]
      . next hne => simp [htwo, Ne.symm hne]
    . simp [Arrival.process, processMessage, htwo]
  . simp [hpos]
    omega

theorem events_routed (s receiver : EventService) (codec : EventCodec)
    : (∀ buildId nemId eventId serialization near vector s' arrival,
        s.sendEvent codec buildId nemId eventId serialization = (near, some vector, s') →
        receiver.uuid ≠ s.uuid → arrival.msg.val = vector.flatten →
        ∃ reception, receiver.process codec arrival = some reception
          ∧ ∀ r ∈ s.eventRegistrationMap, r ∈ receiver.eventRegistrationMap
            → isOriginator buildId r = false →
            (RoutedAlike s receiver r eventId serialization near reception.calls
              ↔
            r.eventId ≠ eventId ∨ nemId = 0 ∨ r.nemId ≠ 0))
        ∧ ∀ arrival, receiver.Handled codec arrival ↔ Complete codec arrival.msg.val := by
  constructor
  . intro buildId nemId eventId serialization near vector s' arrival hsend huuid harrival
    obtain ⟨reception, hreception, hcalls⟩ := process_of_sendEvent hsend harrival huuid
    refine ⟨reception, hreception, ?_⟩
    intro r hr hr' horiginator
    rw [hcalls, (sendEvent_eq hsend).1]
    exact routedAlike_iff hr hr' horiginator
  . exact fun arrival => receiver.handled_iff codec arrival

def twoUsers (uuid : UUID) : EventService :=
  (do
    let s ← registerEvent 1 5 (registerEventServiceUser 2 0 (registerEventServiceUser 1 1 (create uuid)))
    registerEvent 2 5 s).toOption.getD (create uuid)

def eventMessage : List Bytes :=
  [[0, 33], [10, 16] ++ List.replicate 16 7 ++ [16, 1, 26, 11, 10, 9, 8, 1, 16, 5, 26, 3, 1, 2, 3]]

def arrivalOf (bytes : Bytes) : Arrival where
  msg := ⟨bytes.take 65535, by rw [List.length_take]; omega⟩
  stale _ := 0
  beyond _ := 0

theorem sendEvent_eventMessage
    : (twoUsers (.ofByte 7)).sendEvent .protobuf 0 1 5 [1, 2, 3]
        =
      (((twoUsers (.ofByte 7)).sendEvent .protobuf 0 1 5 [1, 2, 3]).1, some eventMessage,
        ((twoUsers (.ofByte 7)).sendEvent .protobuf 0 1 5 [1, 2, 3]).2.2) := by
  have hvector : ((twoUsers (.ofByte 7)).sendEvent .protobuf 0 1 5 [1, 2, 3]).2.1
      = some eventMessage := by
    decide +kernel
  rw [← hvector]

theorem events_routed_to_nem
    : ∃ reception, (twoUsers (.ofByte 9)).process .protobuf (arrivalOf eventMessage.flatten)
        = some reception
        ∧ RoutedAlike (twoUsers (.ofByte 7)) (twoUsers (.ofByte 9)) ⟨5, 1, 1⟩ 5 [1, 2, 3]
            ((twoUsers (.ofByte 7)).sendEvent .protobuf 0 1 5 [1, 2, 3]).1 reception.calls := by
  have hrouted := (events_routed (twoUsers (.ofByte 7)) (twoUsers (.ofByte 9)) .protobuf).1 0 1 5
    [1, 2, 3] _ eventMessage _
    (arrivalOf eventMessage.flatten) sendEvent_eventMessage (by decide) (by decide +kernel)
  obtain ⟨reception, hreception, halike⟩ := hrouted
  exact ⟨reception, hreception, (halike ⟨5, 1, 1⟩ (by decide +kernel) (by decide +kernel)
    (by decide)).mpr (.inr (.inr (by decide)))⟩

theorem events_not_routed_alike
    : (∃ reception, (twoUsers (.ofByte 9)).process .protobuf (arrivalOf eventMessage.flatten)
        = some reception
        ∧ givenTo ⟨5, 2, 0⟩ reception.calls = [⟨⟨5, 2, 0⟩, 5, [1, 2, 3]⟩])
      ∧ givenTo ⟨5, 2, 0⟩ ((twoUsers (.ofByte 7)).sendEvent .protobuf 0 1 5 [1, 2, 3]).1 = []
      ∧ (twoUsers (.ofByte 9)).process .protobuf (arrivalOf [0]) = some { reads := [(0, 2)] }
      ∧ ¬ (twoUsers (.ofByte 9)).Handled .protobuf (arrivalOf [0])
      ∧ EventMessage.parse [10, 1, 7, 16, 1, 26, 0] = some ⟨[7], 1, []⟩
      ∧ ¬ (twoUsers (.ofByte 9)).Handled .protobuf (arrivalOf [0, 7, 10, 1, 7, 16, 1, 26, 0]) := by
  refine ⟨?_, ?_, ?_, ?_, ?_, ?_⟩
  . refine ⟨(arrivalOf eventMessage.flatten).process (twoUsers (.ofByte 9)) .protobuf, rfl, ?_⟩
    decide +kernel
  . decide +kernel
  . decide +kernel
  . rw [handled_iff]
    rintro ⟨htwo, -⟩
    exact absurd htwo (by decide)
  . decide +kernel
  . rw [handled_iff]
    rintro ⟨-, huuid⟩
    have hparse : EventMessage.parse [10, 1, 7, 16, 1, 26, 0] = some ⟨[7], 1, []⟩ := by decide +kernel
    exact absurd (huuid _ (by decide +kernel) hparse) (by decide)

end

end EventService
end Emane

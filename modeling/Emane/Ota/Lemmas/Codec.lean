import Mathlib.Data.Finset.Sort
import Emane.Ota.Impl.OTAManager

/-!
This module contains the formats of the messages that go over the air: every message is a record
of protocol buffers with its fields in order.
-/

namespace Emane

open Protobuf

namespace OTAHeader

def values (h : OTAHeader) : List Value :=
  [.number h.source.toNat, .number h.destination.toNat, .number h.eventLength.toNat,
    .number h.controlLength.toNat,
    .number h.dataLength.toNat, .number h.sequenceNumber.toNat, .bytes h.uuid]

def wires : List Wire :=
  [.number, .number, .number, .number, .number, .number, .bytes]

def ofValues : List Value → Option OTAHeader
  | [.number source, .number destination, .number eventLength, .number controlLength, .number dataLength,
      .number sequenceNumber, .bytes uuid] =>
    some ⟨.ofNat source, .ofNat destination, .ofNat eventLength, .ofNat controlLength, .ofNat dataLength,
      .ofNat sequenceNumber, uuid⟩
  | _ => none

theorem ofValues_values (h : OTAHeader) : ofValues h.values = some h := by
  simp [ofValues, values]

theorem uuid_mem_of_ofValues {vs : List Value} {h : OTAHeader} (heq : ofValues vs = some h)
    : .bytes h.uuid ∈ vs := by
  unfold ofValues at heq
  split at heq
  . cases heq
    simp
  . simp at heq

end OTAHeader

namespace AttachedEvent

def values (event : AttachedEvent) : List Value :=
  [.number event.nemId.toNat, .number event.eventId.toNat, .bytes event.serialization]

def ofValues : List Value → Option AttachedEvent
  | [.number nemId, .number eventId, .bytes serialization] =>
    some ⟨.ofNat nemId, .ofNat eventId, serialization⟩
  | _ => none

theorem ofValues_values (event : AttachedEvent) : ofValues event.values = some event := by
  simp [ofValues, values]

theorem serialization_mem_of_ofValues {vs : List Value} {event : AttachedEvent}
    (heq : ofValues vs = some event)
    : .bytes event.serialization ∈ vs := by
  unfold ofValues at heq
  split at heq
  . cases heq
    simp
  . simp at heq

def encode (event : AttachedEvent) : Bytes :=
  writeRecord 1 event.values

def parse : Value → Option AttachedEvent
  | .bytes bytes => (readRecord 1 [.number, .number, .bytes] bytes).bind ofValues
  | .number _ => none

theorem length_le_encode (event : AttachedEvent) : event.serialization.length ≤ event.encode.length := by
  have hvalue := @length_le_writeRecord 1 event.values (.bytes event.serialization) (by simp [values])
  exact Nat.le_trans (Value.length_le_write _) hvalue

theorem parse_encode {event : AttachedEvent} (h : event.serialization.length < 2^64)
    : parse (.bytes event.encode) = some event := by
  have hread := readRecord_writeRecord 1 event.values (by
    have hnemId := event.nemId.toNat_lt
    have heventId := event.eventId.toNat_lt
    simp only [values, List.forall_mem_cons, Value.Fits, List.not_mem_nil, false_implies,
      implies_true, and_true]
    omega) (by simp [values])
  change (readRecord 1 (event.values.map Value.wire) event.encode).bind ofValues = _
  rw [show event.encode = writeRecord 1 event.values from rfl, hread, Option.bind_some, ofValues_values]

theorem serialization_infix_of_parse {bytes : Bytes} {event : AttachedEvent}
    (h : parse (.bytes bytes) = some event)
    : event.serialization <:+: bytes := by
  simp only [parse, Option.bind_eq_some_iff] at h
  obtain ⟨vs, hread, hevent⟩ := h
  exact readRecord_isInfix hread _ (serialization_mem_of_ofValues hevent)

end AttachedEvent

theorem exists_mem_of_mapM_eq_some {α : Type u} {β : Type v} {f : α → Option β} {as : List α}
    {bs : List β}
    (h : as.mapM f = some bs)
    : ∀ b ∈ bs, ∃ a ∈ as, f a = some b := by
  induction as generalizing bs with
  | nil =>
    simp only [List.mapM_nil, Option.pure_def, Option.some.injEq] at h
    simp [← h]
  | cons a as ih =>
    simp only [List.mapM_cons, Option.bind_eq_bind, Option.bind_eq_some_iff, Option.pure_def,
      Option.some.injEq] at h
    obtain ⟨b, hb, bs', hbs', rfl⟩ := h
    intro b' hb'
    rw [List.mem_cons] at hb'
    cases hb' with
    | inl heq => exact ⟨a, List.mem_cons_self, heq ▸ hb⟩
    | inr hmem =>
      obtain ⟨a', ha', heq⟩ := ih hbs' b' hmem
      exact ⟨a', List.mem_cons_of_mem _ ha', heq⟩

namespace OTACodec

def encodeProtobufTransmitters (transmitters : OTATransmitters) : Bytes :=
  if transmitters = ∅ then
    []
  else
    writeRecord 1 [.bytes (((transmitters.sort (· ≤ ·)).map UInt16.toNat).flatMap varint)]

def parseProtobufTransmitters (bytes : Bytes) : Option OTATransmitters :=
  if bytes = [] then
    some ∅
  else
    match readRecord 1 [.bytes] bytes with
    | some [.bytes packed] => (readPacked packed).map (fun ids => (ids.map UInt16.ofNat).toFinset)
    | _ => none

theorem parseProtobufTransmitters_encode {transmitters : OTATransmitters}
    (h : (encodeProtobufTransmitters transmitters).length < 2^31)
    : parseProtobufTransmitters (encodeProtobufTransmitters transmitters) = some transmitters := by
  unfold encodeProtobufTransmitters at h ⊢
  split
  . next hempty =>
    rw [hempty]
    rfl
  . next hnonempty =>
    rw [if_neg hnonempty] at h
    generalize hpacked : ((transmitters.sort (· ≤ ·)).map UInt16.toNat).flatMap varint = packed at h ⊢
    have hvalue := @length_le_writeRecord 1 [.bytes packed] (.bytes packed) (by simp)
    have hfits := Value.length_le_write packed
    have hread : readRecord 1 [.bytes] (writeRecord 1 [.bytes packed]) = some [.bytes packed] :=
      readRecord_writeRecord 1 [.bytes packed] (by
        simp only [List.mem_singleton, forall_eq, Value.Fits]
        omega) (by simp)
    have hpos : writeRecord 1 [.bytes packed] ≠ [] :=
      List.length_pos_iff.mp (length_writeRecord_pos (List.cons_ne_nil _ _))
    have hids : readPacked packed = some ((transmitters.sort (· ≤ ·)).map UInt16.toNat) := by
      rw [← hpacked]
      apply readPacked_flatMap_varint
      intro n hn
      rw [List.mem_map] at hn
      obtain ⟨id, _, rfl⟩ := hn
      have hlt := id.toNat_lt
      omega
    unfold parseProtobufTransmitters
    rw [if_neg hpos, hread]
    simp only [hids, Option.map_some, List.map_map]
    rw [show UInt16.ofNat ∘ UInt16.toNat = id from funext (fun n => UInt16.ofNat_toNat),
      List.map_id, Finset.sort_toFinset]

def protobuf : OTACodec where
  encodeHeader h := writeRecord 1 h.values
  parseHeader bytes := (readRecord 1 OTAHeader.wires bytes).bind OTAHeader.ofValues
  encodeEvents events := writeRepeated 1 (events.map (fun event => .bytes event.encode))
  parseEvents bytes := (readRepeated 1 .bytes bytes).bind (fun vs => vs.mapM AttachedEvent.parse)
  encodeTransmitters := encodeProtobufTransmitters
  parseTransmitters := parseProtobufTransmitters
  parseHeader_encodeHeader h hlength := by
    have hread := readRecord_writeRecord 1 h.values (by
      have hsource := h.source.toNat_lt
      have hdestination := h.destination.toNat_lt
      have hevent := h.eventLength.toNat_lt
      have hcontrol := h.controlLength.toNat_lt
      have hdata := h.dataLength.toNat_lt
      have hsequence := h.sequenceNumber.toNat_lt
      simp only [OTAHeader.values, List.forall_mem_cons, Value.Fits, List.not_mem_nil,
        false_implies, implies_true, and_true]
      omega) (by simp [OTAHeader.values])
    change (readRecord 1 (h.values.map Value.wire) (writeRecord 1 h.values)).bind OTAHeader.ofValues = _
    rw [hread, Option.bind_some, OTAHeader.ofValues_values]
  parseEvents_encodeEvents events hlength := by
    have hfits : ∀ event ∈ events, event.encode.length < 2^64 := by
      intro event hevent
      have hvalue := @length_write_le_writeRepeated 1 _ (.bytes event.encode)
        (List.mem_map_of_mem (f := fun event => Value.bytes event.encode) hevent)
      have hencode := Value.length_le_write event.encode
      omega
    have hread := @readRepeated_writeRepeated 1 (by decide) .bytes
        (events.map (fun event => .bytes event.encode)) (by
      intro v hv
      rw [List.mem_map] at hv
      obtain ⟨event, hevent, rfl⟩ := hv
      exact ⟨rfl, hfits event hevent⟩)
    rw [hread, Option.bind_some, List.mapM_map]
    clear hread hlength
    induction events with
    | nil => rfl
    | cons event events ih =>
      have hle := event.length_le_encode
      have hevent := hfits event List.mem_cons_self
      rw [List.mapM_cons, ih (fun e he => hfits e (List.mem_cons_of_mem _ he)), Function.comp_apply,
        AttachedEvent.parse_encode (by omega)]
      rfl
  parseTransmitters_encodeTransmitters transmitters hlength := parseProtobufTransmitters_encode hlength
  encodeEvents_nil := rfl
  uuid_isInfix bytes h heq := by
    rw [Option.bind_eq_some_iff] at heq
    obtain ⟨vs, hread, hheader⟩ := heq
    exact readRecord_isInfix hread _ (OTAHeader.uuid_mem_of_ofValues hheader)
  serialization_isInfix bytes events heq event hevent := by
    rw [Option.bind_eq_some_iff] at heq
    obtain ⟨vs, hread, hevents⟩ := heq
    obtain ⟨v, hv, hparse⟩ := exists_mem_of_mapM_eq_some hevents event hevent
    cases v with
    | number n => simp [AttachedEvent.parse] at hparse
    | bytes b => exact (AttachedEvent.serialization_infix_of_parse
      hparse).trans (readRepeated_isInfix hread b hv)

end OTACodec
end Emane

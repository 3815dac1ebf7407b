import Emane.Dlep.Impl.DataItem

/-!
This module contains what the serialization of integers writes and that it can be read again, and
the round trip of data items: exactly which of them can be read back from the bytes that have been
written for them.
-/

namespace Emane
namespace Dlep

open Reader

def ShiftsDefined (sizeof fieldSize : Nat) : Prop :=
  (fieldSize < sizeof → fieldSize * 8 < 32) ∧ (fieldSize - 1) * 8 < promotedBits sizeof

instance (sizeof fieldSize : Nat) : Decidable (ShiftsDefined sizeof fieldSize) :=
  inferInstanceAs (Decidable (_ ∧ _))

theorem shiftsDefined_four_iff (fieldSize : Nat) : ShiftsDefined 4 fieldSize ↔ fieldSize ≤ 4 := by
  unfold ShiftsDefined promotedBits
  omega

theorem shiftsDefined_eight_iff (fieldSize : Nat)
    : ShiftsDefined 8 fieldSize ↔ fieldSize ≤ 3 ∨ fieldSize = 8 := by
  unfold ShiftsDefined promotedBits
  omega

variable {sizeof fieldSize val : Nat}

theorem checkFits_eq_ok (h : ShiftsDefined sizeof fieldSize) (hval : val < 256^sizeof)
    (hfits : val < 256^fieldSize)
    : checkFits sizeof fieldSize val = .ok () := by
  unfold checkFits
  split
  . next hlt =>
    have hdefined := h.1 hlt
    have hmask : val &&& (2^(8 * sizeof) - 2^(fieldSize * 8)) = 0 := by
      apply (BigEndian.and_high_bits_eq_zero_iff _ (by omega)).mpr
      . rw [Nat.mul_comm fieldSize, Nat.pow_mul]
        exact hfits
      . rw [Nat.pow_mul]
        exact hval
    rw [if_neg (by omega)]
    simp only [hmask, ne_eq, not_true_eq_false, ↓reduceIte]
    rfl
  . rfl

theorem serializeSized_eq_ok (h : ShiftsDefined sizeof fieldSize) (hval : val < 256^sizeof)
    (hfits : val < 256^fieldSize)
    : serializeSized sizeof fieldSize val = .ok (BigEndian.digits fieldSize val) := by
  have hshift := h.2
  unfold serializeSized
  rw [checkFits_eq_ok h hval hfits]
  rw [if_neg (by omega)]
  rfl

variable {buf : Bytes}

theorem shiftsDefined_of_serializeSized
    (h : serializeSized sizeof fieldSize val = .ok buf)
    : ShiftsDefined sizeof fieldSize := by
  unfold serializeSized at h
  cases hcheck : checkFits sizeof fieldSize val with
  | error e => simp [hcheck, bind, Except.bind] at h
  | ok u =>
    simp only [hcheck, bind, Except.bind] at h
    constructor
    . intro hlt
      unfold checkFits at hcheck
      rw [if_pos hlt] at hcheck
      split at hcheck
      . simp [throw, throwThe, MonadExceptOf.throw] at hcheck
      . next hbits => omega
    . split at h
      . simp [throw, throwThe, MonadExceptOf.throw] at h
      . next hshift => omega

theorem eq_digits_of_serializeSized
    (h : serializeSized sizeof fieldSize val = .ok buf)
    : buf = BigEndian.digits fieldSize val := by
  unfold serializeSized at h
  cases hcheck : checkFits sizeof fieldSize val with
  | error e =>
    rw [hcheck] at h
    cases h
  | ok u =>
    rw [hcheck] at h
    split at h
    . cases h
    . exact (Except.ok.inj h).symm

theorem lt_of_serializeSized (hval : val < 256^sizeof)
    (h : serializeSized sizeof fieldSize val = .ok buf)
    : val < 256^fieldSize := by
  by_cases hlt : sizeof > fieldSize
  . have hwidth : val < 2^(8 * sizeof) := by
      rw [Nat.pow_mul]
      exact hval
    have hlow := BigEndian.and_high_bits_eq_zero_iff hwidth (show fieldSize * 8 ≤ 8 * sizeof by omega)
    rw [Nat.mul_comm fieldSize, Nat.pow_mul 2 8 fieldSize] at hlow
    apply hlow.mp
    by_contra hmask
    unfold serializeSized checkFits at h
    rw [if_pos hlt] at h
    split at h
    . cases h
    . rw [Nat.mul_comm fieldSize, Nat.pow_mul 2 8 fieldSize] at h
      simp only [ne_eq, hmask, not_false_eq_true, ↓reduceIte] at h
      cases h
  . exact Nat.lt_of_lt_of_le hval (Nat.pow_le_pow_right (by decide) (by omega))

theorem reads_deserialize (sizeof : Nat) (hval : val < 256^sizeof)
    : Reads (deserialize sizeof) (serialize sizeof val) val := by
  have hfold := reads_fold (BigEndian.shiftIn (8 * sizeof)) endOfInput (serialize sizeof val) 0
  unfold serialize at hfold ⊢
  rw [BigEndian.length_digits, BigEndian.foldl_digits hval (Nat.le_refl _)] at hfold
  exact hfold

theorem reads_deserializeSized (sizeof : Nat) (hsize : fieldSize ≤ 8) (hval : val < 256^sizeof)
    (hfits : val < 256^fieldSize)
    : Reads (deserializeSized sizeof fieldSize) (BigEndian.digits fieldSize val) val := by
  have hfold := reads_fold (BigEndian.shiftIn 64) endOfInput (BigEndian.digits fieldSize val) 0
  rw [BigEndian.length_digits, BigEndian.foldl_digits hfits (by omega)] at hfold
  have hmask : val &&& (2^(8 * sizeof) - 1) = val := by
    rw [Nat.and_two_pow_sub_one_eq_mod, Nat.pow_mul]
    exact Nat.mod_eq_of_lt hval
  intro rest
  unfold deserializeSized
  rw [StateT.run_bind, hfold rest]
  simp only [bind, Except.bind]
  rw [hmask]
  simp only [ne_eq, not_true_eq_false, ↓reduceIte]
  rfl

theorem reads_u8 (value : UInt8) : Reads deserializeU8 (serializeU8 value) value := by
  have hread := (reads_deserialize 1 value.toNat_lt).map UInt8.ofNat
  rw [UInt8.ofNat_toNat] at hread
  exact hread

theorem reads_u16 (value : UInt16) : Reads deserializeU16 (serializeU16 value) value := by
  have hread := (reads_deserialize 2 value.toNat_lt).map UInt16.ofNat
  rw [UInt16.ofNat_toNat] at hread
  exact hread

theorem reads_u32 (value : UInt32) : Reads deserializeU32 (serializeU32 value) value := by
  have hread := (reads_deserialize 4 value.toNat_lt).map UInt32.ofNat
  rw [UInt32.ofNat_toNat] at hread
  exact hread

theorem reads_u64 (value : UInt64) : Reads deserializeU64 (serializeU64 value) value := by
  have hread := (reads_deserialize 8 value.toNat_lt).map UInt64.ofNat
  rw [UInt64.ofNat_toNat] at hread
  exact hread

theorem serializeU8_eq (value : UInt8) : serializeU8 value = [value] := by
  simp [serializeU8, serialize, BigEndian.digits]

theorem reads_byte (value : UInt8) : Reads deserializeU8 [value] value := by
  rw [← serializeU8_eq]
  exact reads_u8 value

theorem reads_ipv4 (address : AddressV4) : Reads deserializeIpv4 address.val address :=
  reads_take _ address

def AddressV6.unscoped (address : AddressV6) : AddressV6 :=
  { address with scopeId := 0 }

theorem reads_ipv6 (address : AddressV6) : Reads deserializeIpv6 address.bytes.val address.unscoped :=
  (reads_take _ address.bytes).map (fun bytes => (⟨bytes, 0⟩ : AddressV6))

theorem readsAll_port (port : UInt16) : ReadsAll deserializePort (serializePort port) port := by
  unfold serializePort
  split
  . next hport => exact (reads_u16 port).all
  . next hport =>
    rw [not_not] at hport
    rw [hport]
    rfl

theorem readsAll_while {α : Type} {r : Reader UInt8 Error α} {enc : α → Bytes} {as : List α}
    (h : ∀ a ∈ as, Reads r (enc a) a) (hne : ∀ a ∈ as, enc a ≠ [])
    : ReadsAll (deserializeWhile r) (as.flatMap enc) as := by
  have hlength : as.length ≤ (as.flatMap enc).length := by
    clear h
    induction as with
    | nil => simp
    | cons a as ih =>
      have hpos := List.length_pos_iff.mpr (hne a (by simp))
      have htail := ih (fun b hb => hne b (by simp [hb]))
      simp only [List.flatMap_cons, List.length_append, List.length_cons]
      omega
  exact readsAll_many h hne hlength

namespace DataItemValue

def received : DataItemValue → DataItemValue
  | div_u8_ipv6 field1 field2 => div_u8_ipv6 field1 field2.unscoped
  | div_ipv6_u8 field1 field2 => div_ipv6_u8 field1.unscoped field2
  | div_u8_ipv6_u16 field1 field2 field3 => div_u8_ipv6_u16 field1 field2.unscoped field3
  | div_u8_ipv6_u8 field1 field2 field3 => div_u8_ipv6_u8 field1 field2.unscoped field3
  | value => value

def unread : DataItemValue → Bytes
  | div_u16_vu8 _ field2 => field2
  | _ => []

def extensionIds : DataItemValue → List ExtensionIdType
  | div_v_extid field1 => field1
  | _ => []

variable {cfg : ProtocolConfig} {ids : List ExtensionIdType}

theorem serialize_extid_eq_ok
    (hdefined : ids = [] ∨ ShiftsDefined 4 cfg.extensionIdSize)
    (hfits : ∀ x ∈ ids, x.toNat < 256^cfg.extensionIdSize.val)
    : (div_v_extid ids).serialize cfg
        =
      .ok (ids.flatMap (fun x => BigEndian.digits cfg.extensionIdSize x.toNat)) := by
  have hmap : ids.mapM (fun x => serializeSized 4 cfg.extensionIdSize x.toNat)
      = .ok (ids.map (fun x => BigEndian.digits cfg.extensionIdSize x.toNat)) := by
    induction ids with
    | nil => rfl
    | cons x ids ih =>
      have hshifts : ShiftsDefined 4 cfg.extensionIdSize := by
        cases hdefined with
        | inl hnil => simp at hnil
        | inr hshifts => exact hshifts
      rw [List.mapM_cons, ih (Or.inr hshifts) (fun y hy => hfits y (by simp [hy]))]
      rw [serializeSized_eq_ok hshifts x.toNat_lt (hfits x (by simp))]
      rfl
  simp only [serialize, hmap, bind, Except.bind, pure, Except.pure, List.flatMap_def]

theorem shiftsDefined_of_serialize_extid {valbuf : Bytes}
    (h : (div_v_extid ids).serialize cfg = .ok valbuf)
    : ids = [] ∨ ShiftsDefined 4 cfg.extensionIdSize := by
  cases ids with
  | nil => exact Or.inl rfl
  | cons x ids =>
    simp only [serialize, List.mapM_cons] at h
    cases hx : serializeSized 4 cfg.extensionIdSize x.toNat with
    | error e => simp [hx, bind, Except.bind] at h
    | ok buf => exact Or.inr (shiftsDefined_of_serializeSized hx)

theorem readsAll_extid
    (hfits : ∀ x ∈ ids, x.toNat < 256^cfg.extensionIdSize.val)
    : ReadsAll (deserialize cfg .div_v_extid)
        (ids.flatMap (fun x => BigEndian.digits cfg.extensionIdSize x.toNat))
        (div_v_extid ids) := by
  have hsize := cfg.extensionIdSize.property
  have hread : ∀ n ∈ ids.map UInt32.toNat,
      Reads (deserializeSized 4 cfg.extensionIdSize) (BigEndian.digits cfg.extensionIdSize n) n := by
    intro n hn
    rw [List.mem_map] at hn
    obtain ⟨x, hx, rfl⟩ := hn
    exact reads_deserializeSized 4 hsize.2 x.toNat_lt (hfits x hx)
  have hne : ∀ n ∈ ids.map UInt32.toNat, BigEndian.digits cfg.extensionIdSize n ≠ [] := by
    intro n _
    rw [← List.length_pos_iff, BigEndian.length_digits]
    exact hsize.1
  have hids := (readsAll_while hread hne).map (fun ids => div_v_extid (ids.map UInt32.ofNat))
  rw [List.flatMap_map, List.map_map] at hids
  have hid : UInt32.ofNat ∘ UInt32.toNat = id := by
    funext x
    exact UInt32.ofNat_toNat
  rw [hid, List.map_id] at hids
  exact hids

theorem run_deserialize {value : DataItemValue} {valbuf : Bytes}
    (hfits : ∀ x ∈ value.extensionIds, x.toNat < 256^cfg.extensionIdSize.val)
    (h : value.serialize cfg = .ok valbuf)
    : (deserialize cfg value.getType).run valbuf = .ok (value.received, value.unread) := by
  cases value with
  | blank =>
    cases h
    rfl
  | div_u8 value =>
    cases h
    exact ((reads_u8 value).map div_u8).all
  | div_u16 value =>
    cases h
    exact ((reads_u16 value).map div_u16).all
  | div_u32 value =>
    cases h
    exact ((reads_u32 value).map div_u32).all
  | div_u64 value =>
    cases h
    exact ((reads_u64 value).map div_u64).all
  | div_v_u8 value =>
    cases h
    have hread : ReadsAll (deserializeWhile deserializeU8) (value.flatMap serializeU8) value :=
      readsAll_while (fun b _ => reads_u8 b) (fun b _ => by simp [serializeU8_eq])
    exact hread.map div_v_u8
  | div_a2_u16 value0 value1 =>
    cases h
    exact ((reads_u16 value0).bind ((reads_u16 value1).map (div_a2_u16 value0))).all
  | div_a2_u64 value0 value1 =>
    cases h
    exact ((reads_u64 value0).bind ((reads_u64 value1).map (div_a2_u64 value0))).all
  | div_string value =>
    obtain rfl := Except.ok.inj h
    exact (readsAll_rest value).map div_string
  | div_dlepmac macAddr =>
    obtain rfl := Except.ok.inj h
    exact (readsAll_rest macAddr).map div_dlepmac
  | div_u8_string field1 field2 =>
    cases h
    exact (reads_u8 field1).bindAll ((readsAll_rest field2).map (div_u8_string field1))
  | div_u8_ipv4 field1 field2 =>
    cases h
    exact ((reads_byte field1).bind ((reads_ipv4 field2).map (div_u8_ipv4 field1))).all
  | div_ipv4_u8 field1 field2 =>
    cases h
    exact ((reads_ipv4 field1).bind ((reads_byte field2).map (div_ipv4_u8 field1))).all
  | div_u8_ipv6 field1 field2 =>
    cases h
    exact ((reads_byte field1).bind ((reads_ipv6 field2).map (div_u8_ipv6 field1))).all
  | div_ipv6_u8 field1 field2 =>
    cases h
    exact ((reads_ipv6 field1).bind ((reads_byte field2).map (div_ipv6_u8 field1.unscoped))).all
  | div_u64_u8 field1 field2 =>
    cases h
    exact ((reads_u64 field1).bind ((reads_u8 field2).map (div_u64_u8 field1))).all
  | div_u16_vu8 field1 field2 =>
    cases h
    simp only [getType, deserialize]
    rw [StateT.run_bind, reads_u16 field1 field2]
    rfl
  | div_v_extid ids =>
    rw [serialize_extid_eq_ok (shiftsDefined_of_serialize_extid h) hfits, Except.ok.injEq] at h
    rw [← h]
    exact readsAll_extid hfits
  | div_u8_ipv4_u16 field1 field2 field3 =>
    cases h
    exact (reads_byte field1).bindAll
      ((reads_ipv4 field2).bindAll ((readsAll_port field3).map (div_u8_ipv4_u16 field1 field2)))
  | div_u8_ipv6_u16 field1 field2 field3 =>
    cases h
    exact (reads_byte field1).bindAll
      ((reads_ipv6 field2).bindAll ((readsAll_port field3).map (div_u8_ipv6_u16 field1 field2.unscoped)))
  | div_u8_ipv4_u8 field1 field2 field3 =>
    cases h
    exact ((reads_byte field1).bind
      ((reads_ipv4 field2).bind ((reads_byte field3).map (div_u8_ipv4_u8 field1 field2)))).all
  | div_u8_ipv6_u8 field1 field2 field3 =>
    cases h
    exact ((reads_byte field1).bind
      ((reads_ipv6 field2).bind ((reads_byte field3).map (div_u8_ipv6_u8 field1 field2.unscoped)))).all

def Readable (cfg : ProtocolConfig) : DataItemValue → Prop
  | div_u16_vu8 _ field2 => field2 = []
  | div_v_extid field1 => field1 = [] ∨ cfg.extensionIdSize.val ≤ 4
  | div_u8_ipv6 _ field2 => field2.scopeId = 0
  | div_ipv6_u8 field1 _ => field1.scopeId = 0
  | div_u8_ipv6_u16 _ field2 _ => field2.scopeId = 0
  | div_u8_ipv6_u8 _ field2 _ => field2.scopeId = 0
  | _ => True

instance (cfg : ProtocolConfig) (value : DataItemValue) : Decidable (value.Readable cfg) := by
  unfold Readable
  split
  all_goals infer_instance

theorem unscoped_eq_iff (address : AddressV6) : address.unscoped = address ↔ address.scopeId = 0 := by
  constructor
  . intro h
    rw [← h]
    rfl
  . intro h
    unfold AddressV6.unscoped
    rw [← h]

theorem readable_iff {value : DataItemValue}
    (hfits : ∀ x ∈ value.extensionIds, x.toNat < 256^cfg.extensionIdSize.val)
    : value.Readable cfg ↔ (∃ valbuf, value.serialize cfg = .ok valbuf) ∧ value.unread = []
        ∧ value.received = value := by
  cases value with
  | div_u16_vu8 field1 field2 => simp [Readable, serialize, unread, received, pure, Except.pure]
  | div_v_extid ids =>
    simp only [Readable, unread, received, and_self, and_true]
    rw [← shiftsDefined_four_iff]
    constructor
    . intro h
      exact ⟨_, serialize_extid_eq_ok h hfits⟩
    . intro ⟨valbuf, h⟩
      exact shiftsDefined_of_serialize_extid h
  | _ => simp [Readable, serialize, unread, received, pure, Except.pure, unscoped_eq_iff]

end DataItemValue

namespace DataItem

structure Fits (cfg : ProtocolConfig) (di : DataItem) : Prop where
  valueType : cfg.getDataItemValueType di.id = .ok di.value.getType
  id : di.id.toNat < 256^cfg.dataItemIdSize.val
  extensionIds : ∀ x ∈ di.value.extensionIds, x.toNat < 256^cfg.extensionIdSize.val
  length : ∀ valbuf, di.value.serialize cfg = .ok valbuf → valbuf.length < 256^cfg.dataItemLengthSize.val

variable {cfg : ProtocolConfig}

theorem length_lt {n : Nat} (h : n < 256^cfg.dataItemLengthSize.val) : n < 256^8 :=
  Nat.lt_of_lt_of_le h (Nat.pow_le_pow_right (by decide) cfg.dataItemLengthSize.property.2)

variable {di : DataItem}

theorem serialize_eq_ok (hfits : di.Fits cfg)
    (hid : ShiftsDefined 4 cfg.dataItemIdSize) (hlength : ShiftsDefined 8 cfg.dataItemLengthSize)
    {valbuf : Bytes}
    (hvalue : di.value.serialize cfg = .ok valbuf)
    : di.serialize cfg
        =
      .ok (BigEndian.digits cfg.dataItemIdSize di.id.toNat
        ++ (BigEndian.digits cfg.dataItemLengthSize valbuf.length ++ valbuf)) := by
  have hlt := hfits.length valbuf hvalue
  unfold serialize
  rw [hvalue]
  simp only [bind, Except.bind]
  rw [serializeSized_eq_ok hid di.id.toNat_lt hfits.id]
  rw [serializeSized_eq_ok hlength (length_lt hlt) hlt]
  simp only [List.append_assoc]
  rfl

theorem shiftsDefined_of_serialize {buf : Bytes} (h : di.serialize cfg = .ok buf)
    : ShiftsDefined 4 cfg.dataItemIdSize
        ∧ ShiftsDefined 8 cfg.dataItemLengthSize
        ∧ ∃ valbuf, di.value.serialize cfg = .ok valbuf := by
  unfold serialize at h
  cases hvalue : di.value.serialize cfg with
  | error e => simp [hvalue, bind, Except.bind] at h
  | ok valbuf =>
    simp only [hvalue, bind, Except.bind] at h
    cases hid : serializeSized 4 cfg.dataItemIdSize di.id.toNat with
    | error e => simp [hid] at h
    | ok idbuf =>
      cases hlength : serializeSized 8 cfg.dataItemLengthSize valbuf.length with
      | error e => simp [hid, hlength] at h
      | ok lengthbuf =>
        exact ⟨shiftsDefined_of_serializeSized hid, shiftsDefined_of_serializeSized hlength, valbuf, rfl⟩

theorem run_deserialize (hfits : di.Fits cfg) {valbuf : Bytes}
    (hvalue : di.value.serialize cfg = .ok valbuf) (rest : Bytes)
    : ∃ e,
        (deserialize cfg).run
          (BigEndian.digits cfg.dataItemIdSize di.id.toNat
            ++ (BigEndian.digits cfg.dataItemLengthSize valbuf.length ++ valbuf) ++ rest)
          =
        if di.value.unread ≠ [] then .error e else .ok (⟨di.id, di.value.received⟩, rest) := by
  have hlt := hfits.length valbuf hvalue
  have hid := reads_deserializeSized 4 cfg.dataItemIdSize.property.2 di.id.toNat_lt hfits.id
  have hlength := reads_deserializeSized 8 cfg.dataItemLengthSize.property.2 (length_lt hlt) hlt
  have hread := DataItemValue.run_deserialize hfits.extensionIds hvalue
  have htype := hfits.valueType
  have htake : (valbuf ++ rest).take valbuf.length = valbuf := List.take_left
  have hdrop : (valbuf ++ rest).drop valbuf.length = rest := List.drop_left
  have hlong : ¬ valbuf.length > (valbuf ++ rest).length := by simp
  have hbody : ∃ e, deserializeValue cfg di.id.toNat valbuf.length (valbuf ++ rest)
      = if di.value.unread ≠ [] then .error e else .ok (⟨di.id, di.value.received⟩, rest) := by
    unfold deserializeValue
    rw [if_neg hlong, UInt32.ofNat_toNat, htype, htake, hdrop]
    simp only [bind, Except.bind]
    rw [hread]
    exact ⟨_, rfl⟩
  obtain ⟨e, hbody⟩ := hbody
  refine ⟨e, ?_⟩
  unfold deserialize
  rw [List.append_assoc, hid.run_bind]
  rw [List.append_assoc, hlength.run_bind]
  exact hbody

def RoundTrips (cfg : ProtocolConfig) (di : DataItem) : Prop :=
  ∃ buf, di.serialize cfg = .ok buf ∧ ∀ rest, (deserialize cfg).run (buf ++ rest) = .ok (di, rest)

structure Readable (cfg : ProtocolConfig) (di : DataItem) : Prop where
  id : cfg.dataItemIdSize.val ≤ 4
  length : cfg.dataItemLengthSize.val ≤ 3 ∨ cfg.dataItemLengthSize.val = 8
  value : di.value.Readable cfg

theorem roundTrips_iff {cfg : ProtocolConfig} {di : DataItem} (hfits : di.Fits cfg)
    : di.RoundTrips cfg ↔ di.Readable cfg := by
  constructor
  . intro ⟨buf, hbuf, hread⟩
    obtain ⟨hid, hlength, valbuf, hvalue⟩ := shiftsDefined_of_serialize hbuf
    rw [serialize_eq_ok hfits hid hlength hvalue, Except.ok.injEq] at hbuf
    obtain ⟨e, hrun⟩ := run_deserialize hfits hvalue []
    rw [hbuf, hread [], eq_comm] at hrun
    constructor
    . exact (shiftsDefined_four_iff _).mp hid
    . exact (shiftsDefined_eight_iff _).mp hlength
    . rw [DataItemValue.readable_iff hfits.extensionIds]
      split at hrun
      . simp at hrun
      . next hunread =>
        simp only [Except.ok.injEq, Prod.mk.injEq, and_true] at hrun
        rw [not_not] at hunread
        exact ⟨⟨valbuf, hvalue⟩, hunread, congrArg value hrun⟩
  . intro h
    have hid := (shiftsDefined_four_iff _).mpr h.id
    have hlength := (shiftsDefined_eight_iff _).mpr h.length
    obtain ⟨⟨valbuf, hvalue⟩, hunread, hreceived⟩ :=
      (DataItemValue.readable_iff hfits.extensionIds).mp h.value
    refine ⟨_, serialize_eq_ok hfits hid hlength hvalue, ?_⟩
    intro rest
    obtain ⟨e, hrun⟩ := run_deserialize hfits hvalue rest
    rw [hrun, hunread, hreceived]
    rfl

theorem roundTrips_iff_example
    : RoundTrips ⟨⟨2, by decide⟩, ⟨2, by decide⟩, ⟨2, by decide⟩, [(2, .div_u8_ipv4_u16)]⟩
        ⟨2, .div_u8_ipv4_u16 0 ⟨[192, 168, 1, 1], rfl⟩ 854⟩ := by
  rw [roundTrips_iff]
  . constructor
    . decide
    . decide
    . decide
  . constructor
    . rfl
    . decide
    . intro x hx
      cases hx
    . intro valbuf h
      cases h
      decide

theorem not_roundTrips_of_u16_vu8
    : Fits ⟨⟨2, by decide⟩, ⟨2, by decide⟩, ⟨2, by decide⟩, [(1, .div_u16_vu8)]⟩
        ⟨1, .div_u16_vu8 7 [1, 2]⟩
        ∧ ¬ RoundTrips ⟨⟨2, by decide⟩, ⟨2, by decide⟩, ⟨2, by decide⟩, [(1, .div_u16_vu8)]⟩
            ⟨1, .div_u16_vu8 7 [1, 2]⟩ := by
  constructor
  . constructor
    . rfl
    . decide
    . intro x hx
      cases hx
    . intro valbuf h
      cases h
      decide
  . intro ⟨buf, hbuf, hread⟩
    have hbytes : buf = [0, 1, 0, 4, 0, 7, 1, 2] := (Except.ok.inj hbuf).symm
    rw [hbytes] at hread
    have hrun := hread []
    revert hrun
    decide

end DataItem
end Dlep
end Emane

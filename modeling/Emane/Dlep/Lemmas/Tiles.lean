import Emane.Dlep.Impl.Wire
import Emane.Dlep.Lemmas.DataItem

/-!
This module contains which bytes are read as a sequence of data items, and how the reading fails
on all other bytes.
-/

namespace Emane
namespace Dlep

open Reader

def Error.Thrown : Error → Prop
  | lengthError what => what ≠ ""
  | invalidArgument what => what ≠ ""
  | badDataItemId what => what ≠ ""
  | undefinedBehaviour => False

theorem append_ne_empty {s t : String} (h : t ≠ "") : s ++ t ≠ "" := by
  intro heq
  exact h (String.append_eq_empty_iff.mp heq).2

theorem thrown_endOfInput : endOfInput.Thrown := by
  unfold endOfInput Error.Thrown
  decide

abbrev Throws {α : Type} (r : Reader UInt8 Error α) : Prop :=
  Yields r (fun _ => True) Error.Thrown

theorem throws_deserialize (sizeof : Nat) : Throws (deserialize sizeof) := by
  exact yields_fold thrown_endOfInput sizeof 0

theorem throws_deserializeSized (sizeof fieldSize : Nat)
    : Throws (deserializeSized sizeof fieldSize) := by
  apply (yields_fold thrown_endOfInput fieldSize 0).bind
  intro val64 _
  apply Yields.ite
  . apply Yields.throw
    apply append_ne_empty
    decide
  . exact Yields.pure trivial

theorem throws_u8 : Throws deserializeU8 := by
  exact (throws_deserialize 1).map _ (fun _ _ => trivial)

theorem throws_u16 : Throws deserializeU16 := by
  exact (throws_deserialize 2).map _ (fun _ _ => trivial)

theorem throws_u32 : Throws deserializeU32 := by
  exact (throws_deserialize 4).map _ (fun _ _ => trivial)

theorem throws_u64 : Throws deserializeU64 := by
  exact (throws_deserialize 8).map _ (fun _ _ => trivial)

theorem throws_ipv4 : Throws deserializeIpv4 := by
  apply yields_take
  unfold Error.Thrown
  decide

theorem throws_ipv6 : Throws deserializeIpv6 := by
  have htake : Throws
      (Reader.take (.lengthError "data item has too few bytes for an IPv6 address") 16) := by
    apply yields_take
    unfold Error.Thrown
    decide
  exact htake.map _ (fun _ _ => trivial)

theorem throws_port : Throws deserializePort := by
  apply (Yields.get (fun _ => trivial)).bind
  intro bs _
  exact (Yields.pure trivial).ite throws_u16

theorem throws_while {α : Type} {r : Reader UInt8 Error α} (h : Throws r)
    : Throws (deserializeWhile r) := by
  apply (Yields.get (fun _ => trivial)).bind
  intro bs _
  exact yields_many h bs.length

namespace DataItemValue

theorem deserialize_yields (cfg : ProtocolConfig) (valueType : DataItemValueType)
    : Yields (deserialize cfg valueType) (fun value => value.getType = valueType) Error.Thrown := by
  cases valueType with
  | blank => exact Yields.pure rfl
  | div_u8 => exact throws_u8.map _ (fun _ _ => rfl)
  | div_u16 => exact throws_u16.map _ (fun _ _ => rfl)
  | div_u32 => exact throws_u32.map _ (fun _ _ => rfl)
  | div_u64 => exact throws_u64.map _ (fun _ _ => rfl)
  | div_v_u8 => exact (throws_while throws_u8).map _ (fun _ _ => rfl)
  | div_a2_u16 => exact throws_u16.bind (fun _ _ => throws_u16.map _ (fun _ _ => rfl))
  | div_a2_u64 => exact throws_u64.bind (fun _ _ => throws_u64.map _ (fun _ _ => rfl))
  | div_string => exact yields_rest.map _ (fun _ _ => rfl)
  | div_dlepmac => exact yields_rest.map _ (fun _ _ => rfl)
  | div_u8_string => exact throws_u8.bind (fun _ _ => yields_rest.map _ (fun _ _ => rfl))
  | div_u8_ipv4 => exact throws_u8.bind (fun _ _ => throws_ipv4.map _ (fun _ _ => rfl))
  | div_ipv4_u8 => exact throws_ipv4.bind (fun _ _ => throws_u8.map _ (fun _ _ => rfl))
  | div_u8_ipv6 => exact throws_u8.bind (fun _ _ => throws_ipv6.map _ (fun _ _ => rfl))
  | div_ipv6_u8 => exact throws_ipv6.bind (fun _ _ => throws_u8.map _ (fun _ _ => rfl))
  | div_u64_u8 => exact throws_u64.bind (fun _ _ => throws_u8.map _ (fun _ _ => rfl))
  | div_u16_vu8 =>
    exact throws_u16.bind (fun _ _ => (Yields.get (fun _ => trivial)).map _ (fun _ _ => rfl))
  | div_v_extid =>
    apply (throws_while (throws_deserializeSized 4 cfg.extensionIdSize)).bind
    intro ids _
    exact Yields.pure rfl
  | div_u8_ipv4_u16 =>
    exact throws_u8.bind (fun _ _ => throws_ipv4.bind (fun _ _ => throws_port.map _ (fun _ _ => rfl)))
  | div_u8_ipv6_u16 =>
    exact throws_u8.bind (fun _ _ => throws_ipv6.bind (fun _ _ => throws_port.map _ (fun _ _ => rfl)))
  | div_u8_ipv4_u8 =>
    exact throws_u8.bind (fun _ _ => throws_ipv4.bind (fun _ _ => throws_u8.map _ (fun _ _ => rfl)))
  | div_u8_ipv6_u8 =>
    exact throws_u8.bind (fun _ _ => throws_ipv6.bind (fun _ _ => throws_u8.map _ (fun _ _ => rfl)))

end DataItemValue

theorem thrown_of_getDataItemValueType {cfg : ProtocolConfig} {id : DataItemIdType} {e : Error}
    (h : cfg.getDataItemValueType id = .error e)
    : e.Thrown := by
  unfold ProtocolConfig.getDataItemValueType at h
  split at h
  . cases h
  . cases h
    exact Nat.repr_ne_empty

theorem run_deserializeSized_iff {sizeof fieldSize val : Nat} (hsize : fieldSize ≤ 8) {bytes rest : Bytes}
    : (deserializeSized sizeof fieldSize).run bytes = .ok (val, rest)
        ↔
      bytes = BigEndian.digits fieldSize val ++ rest ∧ val < 256^fieldSize ∧ val < 256^sizeof := by
  constructor
  . intro h
    -- the bytes are the digits of `val64`, and the mask does not take anything from it
    unfold deserializeSized at h
    rw [StateT.run_bind] at h
    cases hfold : (fold (BigEndian.shiftIn 64) endOfInput fieldSize 0).run bytes with
    | error e =>
      rw [hfold] at h
      cases h
    | ok x =>
      obtain ⟨field, hbytes, hlength, hval⟩ := run_fold_eq_ok hfold
      obtain ⟨hdigits, hlt⟩ := @BigEndian.digits_foldl 64 fieldSize field hlength (by omega)
      rw [hfold] at h
      simp only [bind, Except.bind] at h
      split at h
      . cases h
      . next hmask =>
        obtain ⟨hv, hr⟩ := Prod.mk.inj (Except.ok.inj h)
        rw [not_not, Nat.and_two_pow_sub_one_eq_mod, Nat.pow_mul] at hmask
        rw [← hv, ← hr, hval, hdigits]
        refine ⟨hbytes, hlt, ?_⟩
        rw [← hval, ← hmask]
        exact Nat.mod_lt _ (Nat.pow_pos (by decide))
  . rintro ⟨rfl, hfits, hval⟩
    exact reads_deserializeSized sizeof hsize hval hfits rest

namespace DataItem

structure HasHeader (cfg : ProtocolConfig) (bytes : Bytes) (id : DataItemIdType) (diLength : Nat)
    (rest : Bytes) : Prop where
  bytes_eq : bytes = BigEndian.digits cfg.dataItemIdSize id.toNat
    ++ (BigEndian.digits cfg.dataItemLengthSize diLength ++ rest)
  id_lt : id.toNat < 256^cfg.dataItemIdSize.val
  length_lt : diLength < 256^cfg.dataItemLengthSize.val

structure LaidOut (cfg : ProtocolConfig) (di : DataItem) (chunk valbuf : Bytes) : Prop where
  header : HasHeader cfg chunk di.id valbuf.length valbuf
  end_lt : valbuf.length < 2^63
  value : ∃ diType,
    cfg.getDataItemValueType di.id = .ok diType ∧ (DataItemValue.deserialize cfg diType).run valbuf
      = .ok (di.value, [])

def RunsPast (cfg : ProtocolConfig) (bytes : Bytes) : Prop :=
  ∃ id diLength rest, HasHeader cfg bytes id diLength rest ∧ 2^63 ≤ diLength

variable {cfg : ProtocolConfig}

variable {bytes rest : Bytes} {diLength : Nat}

theorem HasHeader.ne_nil {id : DataItemIdType}
    (h : HasHeader cfg bytes id diLength rest)
    : bytes ≠ [] := by
  have hsize := cfg.dataItemIdSize.property.1
  rw [h.bytes_eq, ← List.length_pos_iff, List.length_append, BigEndian.length_digits]
  omega

theorem HasHeader.append {id : DataItemIdType}
    (h : HasHeader cfg bytes id diLength rest) (behind : Bytes)
    : HasHeader cfg (bytes ++ behind) id diLength (rest ++ behind) := by
  refine ⟨?_, h.id_lt, h.length_lt⟩
  rw [h.bytes_eq, List.append_assoc, List.append_assoc]

theorem deserializeValue_iff {id : Nat} {di : DataItem}
    : deserializeValue cfg id diLength bytes = .ok (di, rest)
        ↔
      ∃ valbuf diType,
        bytes = valbuf ++ rest
          ∧ valbuf.length = diLength
          ∧ di.id = UInt32.ofNat id
          ∧ cfg.getDataItemValueType (UInt32.ofNat id) = .ok diType
          ∧ (DataItemValue.deserialize cfg diType).run valbuf = .ok (di.value, []) := by
  constructor
  . intro h
    unfold deserializeValue at h
    split at h
    . cases h
    . next hlong =>
      cases htype : cfg.getDataItemValueType (UInt32.ofNat id) with
      | error e =>
        rw [htype] at h
        cases h
      | ok diType =>
        rw [htype] at h
        cases hread : (DataItemValue.deserialize cfg diType).run (bytes.take diLength) with
        | error e =>
          simp only [bind, Except.bind] at h
          rw [hread] at h
          cases h
        | ok x =>
          simp only [bind, Except.bind] at h
          rw [hread] at h
          obtain ⟨value, unread⟩ := x
          simp only at h
          split at h
          . cases h
          . next hunread =>
            rw [not_not] at hunread
            cases h
            rw [hunread] at hread
            refine ⟨bytes.take diLength, diType, (List.take_append_drop _ _).symm, ?_, rfl, rfl, hread⟩
            rw [List.length_take]
            omega
  . rintro ⟨valbuf, diType, rfl, rfl, hid, htype, hread⟩
    have hlong : ¬ valbuf.length > (valbuf ++ rest).length := by
      rw [List.length_append]
      omega
    unfold deserializeValue
    rw [if_neg hlong, htype, List.take_left, List.drop_left]
    simp only [bind, Except.bind]
    rw [hread, ← hid]
    rfl

theorem thrown_of_deserializeValue {id : Nat} {e : Error}
    (h : deserializeValue cfg id diLength bytes = .error e)
    : e.Thrown := by
  unfold deserializeValue at h
  split at h
  . cases h
    apply append_ne_empty
    decide
  . cases htype : cfg.getDataItemValueType (UInt32.ofNat id) with
    | error e' =>
      rw [htype] at h
      cases h
      exact thrown_of_getDataItemValueType htype
    | ok diType =>
      rw [htype] at h
      simp only [bind, Except.bind] at h
      cases hread : (DataItemValue.deserialize cfg diType).run (bytes.take diLength) with
      | error e' =>
        rw [hread] at h
        cases h
        exact (DataItemValue.deserialize_yields cfg diType _).of_error hread
      | ok x =>
        rw [hread] at h
        simp only at h
        split at h
        . cases h
          apply append_ne_empty
          exact Nat.repr_ne_empty
        . cases h

end DataItem

namespace Wire
namespace ProtocolMessage

open DataItem

variable {cfg : MessageConfig}

variable {bytes : Bytes}

theorem run_deserializeDataItem {rest : Bytes} {id : DataItemIdType} {diLength : Nat}
    (h : HasHeader cfg.toProtocolConfig bytes id diLength rest)
    : (deserializeDataItem cfg).run bytes
        =
      if 2^63 ≤ diLength then
        .error .undefinedBehaviour
      else
        deserializeValue cfg.toProtocolConfig id.toNat diLength rest := by
  have hid := reads_deserializeSized 4 cfg.dataItemIdSize.property.2 id.toNat_lt h.id_lt
  have hlength := reads_deserializeSized 8 cfg.dataItemLengthSize.property.2
    (length_lt h.length_lt) h.length_lt
  rw [h.bytes_eq]
  change (deserializeSized 4 cfg.dataItemIdSize >>= fun _ =>
      deserializeSized 8 cfg.dataItemLengthSize >>= fun diLen =>
    set (BigEndian.digits cfg.dataItemIdSize id.toNat
      ++ (BigEndian.digits cfg.dataItemLengthSize diLength ++ rest))
      >>= fun _ =>
    if 2^63 ≤ diLen then throw .undefinedBehaviour else DataItem.deserialize cfg.toProtocolConfig :
      Reader UInt8 Error DataItem).run _ = _
  rw [hid.run_bind, hlength.run_bind]
  change (if 2^63 ≤ diLength then throw .undefinedBehaviour else DataItem.deserialize
    cfg.toProtocolConfig :
    Reader UInt8 Error DataItem).run _ = _
  split
  . rfl
  . unfold DataItem.deserialize
    rw [hid.run_bind, hlength.run_bind]
    rfl

theorem hasHeader_or_throws (bytes : Bytes)
    : (∃ id diLength rest, HasHeader cfg.toProtocolConfig bytes id diLength rest)
        ∨ ∃ e, e.Thrown ∧ (deserializeDataItem cfg).run bytes = .error e := by
  cases hid : (deserializeSized 4 cfg.dataItemIdSize).run bytes with
  | error e =>
    right
    refine ⟨e, (throws_deserializeSized 4 cfg.dataItemIdSize bytes).of_error hid, ?_⟩
    change ((deserializeSized 4 cfg.dataItemIdSize).run bytes >>= _) = _
    rw [hid]
    rfl
  | ok x =>
    obtain ⟨id, bytes'⟩ := x
    obtain ⟨hbytes, hfits, hlt⟩ := (run_deserializeSized_iff cfg.dataItemIdSize.property.2).mp hid
    cases hlength : (deserializeSized 8 cfg.dataItemLengthSize).run bytes' with
    | error e =>
      right
      refine ⟨e, (throws_deserializeSized 8 cfg.dataItemLengthSize bytes').of_error hlength, ?_⟩
      change ((deserializeSized 4 cfg.dataItemIdSize).run bytes >>= fun x =>
        (deserializeSized 8 cfg.dataItemLengthSize).run x.2 >>= _) = _
      rw [hid]
      change ((deserializeSized 8 cfg.dataItemLengthSize).run bytes' >>= _) = _
      rw [hlength]
      rfl
    | ok y =>
      obtain ⟨diLength, rest⟩ := y
      obtain ⟨hbytes', hfits', _⟩ :=
        (run_deserializeSized_iff cfg.dataItemLengthSize.property.2).mp hlength
      have hofNat : (UInt32.ofNat id).toNat = id := UInt32.toNat_ofNat_of_lt' hlt
      left
      refine ⟨UInt32.ofNat id, diLength, rest, ?_, ?_, hfits'⟩
      . rw [hbytes, hbytes', hofNat]
      . rw [hofNat]
        exact hfits

theorem run_deserializeDataItem_iff {rest : Bytes} {di : DataItem}
    : (deserializeDataItem cfg).run bytes = .ok (di, rest)
        ↔
      ∃ chunk valbuf, bytes = chunk ++ rest ∧ LaidOut cfg.toProtocolConfig di chunk valbuf := by
  constructor
  . intro h
    cases @hasHeader_or_throws cfg bytes with
    | inr hthrows =>
      obtain ⟨e, _, herror⟩ := hthrows
      rw [herror] at h
      cases h
    | inl hheader =>
      obtain ⟨id, diLength, behind, hheader⟩ := hheader
      rw [run_deserializeDataItem hheader] at h
      split at h
      . cases h
      . next hlt =>
        obtain ⟨valbuf, diType, hbehind, hlength, hid, htype, hread⟩ := deserializeValue_iff.mp h
        rw [UInt32.ofNat_toNat] at hid htype
        rw [← hid] at htype
        refine ⟨BigEndian.digits cfg.dataItemIdSize id.toNat
          ++ (BigEndian.digits cfg.dataItemLengthSize diLength ++ valbuf), valbuf, ?_, ⟨?_, ?_, ?_⟩,
            ?_, diType, htype, hread⟩
        . rw [hheader.bytes_eq, hbehind, List.append_assoc, List.append_assoc]
        . rw [hid, hlength]
        . rw [hid]
          exact hheader.id_lt
        . rw [hlength]
          exact hheader.length_lt
        . omega
  . rintro ⟨chunk, valbuf, rfl, hlaid⟩
    obtain ⟨diType, htype, hread⟩ := hlaid.value
    have hend := hlaid.end_lt
    rw [run_deserializeDataItem (hlaid.header.append rest), if_neg (by omega)]
    apply deserializeValue_iff.mpr
    refine ⟨valbuf, diType, rfl, rfl, ?_, ?_, hread⟩
    . rw [UInt32.ofNat_toNat]
    . rw [UInt32.ofNat_toNat]
      exact htype

theorem run_deserializeDataItem_undefined_iff
    : (deserializeDataItem cfg).run bytes = .error .undefinedBehaviour
        ↔ RunsPast cfg.toProtocolConfig bytes := by
  constructor
  . intro h
    cases @hasHeader_or_throws cfg bytes with
    | inr hthrows =>
      obtain ⟨e, hthrown, herror⟩ := hthrows
      rw [herror, Except.error.injEq] at h
      rw [h] at hthrown
      exact hthrown.elim
    | inl hheader =>
      obtain ⟨id, diLength, behind, hheader⟩ := hheader
      rw [run_deserializeDataItem hheader] at h
      split at h
      . next hle => exact ⟨id, diLength, behind, hheader, hle⟩
      . exact (thrown_of_deserializeValue h).elim
  . rintro ⟨id, diLength, behind, hheader, hle⟩
    rw [run_deserializeDataItem hheader, if_pos hle]

theorem thrown_of_deserializeDataItem {e : Error} (h : (deserializeDataItem cfg).run bytes = .error e)
    : e = .undefinedBehaviour ∨ e.Thrown := by
  cases @hasHeader_or_throws cfg bytes with
  | inr hthrows =>
    obtain ⟨e', hthrown, herror⟩ := hthrows
    rw [herror] at h
    cases h
    exact Or.inr hthrown
  | inl hheader =>
    obtain ⟨id, diLength, behind, hheader⟩ := hheader
    rw [run_deserializeDataItem hheader] at h
    split at h
    . exact Or.inl (Except.error.inj h).symm
    . exact Or.inr (thrown_of_deserializeValue h)

end ProtocolMessage

def Tiles (cfg : MessageConfig) (body : Bytes) (dataItems : List DataItem) : Prop :=
  ∃ chunks,
    body = chunks.flatten
      ∧ List.Forall₂ (fun di chunk => ∃ valbuf, di.LaidOut cfg.toProtocolConfig chunk valbuf)
        dataItems chunks

variable {cfg : MessageConfig}

theorem tiles_nil_iff {body : Bytes} : Tiles cfg body [] ↔ body = [] := by
  constructor
  . rintro ⟨chunks, rfl, hchunks⟩
    cases hchunks
    rfl
  . rintro rfl
    exact ⟨[], rfl, List.Forall₂.nil⟩

theorem tiles_cons_iff {body : Bytes} {di : DataItem} {dataItems : List DataItem}
    : Tiles cfg body (di :: dataItems)
        ↔
      ∃ chunk valbuf rest,
        body = chunk ++ rest ∧ di.LaidOut cfg.toProtocolConfig chunk valbuf
            ∧ Tiles cfg rest dataItems := by
  constructor
  . rintro ⟨chunks, rfl, hchunks⟩
    cases hchunks with
    | cons hlaid htail =>
      obtain ⟨valbuf, hlaid⟩ := hlaid
      exact ⟨_, valbuf, _, rfl, hlaid, _, rfl, htail⟩
  . rintro ⟨chunk, valbuf, rest, rfl, hlaid, chunks, rfl, hchunks⟩
    exact ⟨chunk :: chunks, rfl, List.Forall₂.cons ⟨valbuf, hlaid⟩ hchunks⟩

namespace ProtocolMessage

def RunsPastBehind (cfg : MessageConfig) (body : Bytes) : Prop :=
  ∃ dataItems front rest, body = front ++ rest ∧ Tiles cfg front dataItems
    ∧ DataItem.RunsPast cfg.toProtocolConfig rest

theorem RunsPastBehind.cons {body : Bytes} (h : RunsPastBehind cfg body) {di : DataItem}
    {chunk valbuf : Bytes}
    (hlaid : di.LaidOut cfg.toProtocolConfig chunk valbuf)
    : RunsPastBehind cfg (chunk ++ body) := by
  obtain ⟨dataItems, front, rest, rfl, htiles, hpast⟩ := h
  refine ⟨di :: dataItems, chunk ++ front, rest, ?_, ?_, hpast⟩
  . rw [List.append_assoc]
  . exact tiles_cons_iff.mpr ⟨chunk, valbuf, front, rfl, hlaid, htiles⟩

theorem parseDataItems_cases {fuel : Nat} {body : Bytes} (hfuel : body.length ≤ fuel)
    (acc : List DataItem)
    : (∃ dataItems, Tiles cfg body dataItems
        ∧ parseDataItems cfg fuel body acc = (acc ++ dataItems, none))
        ∨ (RunsPastBehind cfg body ∧ (parseDataItems cfg fuel body acc).2 = some .undefinedBehaviour)
        ∨ ∃ e, e.Thrown ∧ (parseDataItems cfg fuel body acc).2 = some e := by
  induction fuel generalizing body acc with
  | zero =>
    have hnil : body = [] := List.length_eq_zero_iff.mp (by omega)
    left
    exact ⟨[], tiles_nil_iff.mpr hnil, by rw [List.append_nil]; rfl⟩
  | succ fuel ih =>
    by_cases hnil : body = []
    . left
      refine ⟨[], tiles_nil_iff.mpr hnil, ?_⟩
      rw [hnil, List.append_nil]
      rfl
    . have hne : ¬ body.isEmpty = true := by simpa using hnil
      unfold parseDataItems
      rw [if_neg hne]
      cases hrun : (deserializeDataItem cfg).run body with
      | error e =>
        right
        cases thrown_of_deserializeDataItem hrun with
        | inl hundefined =>
          rw [hundefined] at hrun
          left
          refine ⟨⟨[], [], body, rfl, tiles_nil_iff.mpr rfl,
            run_deserializeDataItem_undefined_iff.mp hrun⟩, ?_⟩
          rw [hundefined]
        | inr hthrown =>
          right
          exact ⟨e, hthrown, rfl⟩
      | ok x =>
        -- the data item is in front of all three ways in which the rest can end
        obtain ⟨di, rest⟩ := x
        obtain ⟨chunk, valbuf, rfl, hlaid⟩ := run_deserializeDataItem_iff.mp hrun
        have hpos := List.length_pos_iff.mpr hlaid.header.ne_nil
        rw [List.length_append] at hfuel
        have hrest : rest.length ≤ fuel := by omega
        simp only
        rcases ih hrest (acc ++ [di]) with ⟨dataItems, htiles, hloop⟩ | ⟨hpast, hloop⟩ | hthrown
        . left
          refine ⟨di :: dataItems, tiles_cons_iff.mpr ⟨chunk, valbuf, rest, rfl, hlaid, htiles⟩, ?_⟩
          rw [hloop, List.append_assoc]
          rfl
        . right
          left
          exact ⟨hpast.cons hlaid, hloop⟩
        . right
          right
          exact hthrown

theorem parseDataItems_of_tiles {dataItems : List DataItem} {front rest : Bytes}
    (h : Tiles cfg front dataItems)
    {fuel : Nat} (hfuel : (front ++ rest).length ≤ fuel) (acc : List DataItem)
    : ∃ fuel',
        rest.length ≤ fuel'
          ∧ parseDataItems cfg fuel (front ++ rest) acc
              = parseDataItems cfg fuel' rest (acc ++ dataItems) := by
  induction dataItems generalizing front fuel acc with
  | nil =>
    rw [tiles_nil_iff.mp h, List.append_nil, List.nil_append]
    rw [List.length_append] at hfuel
    exact ⟨fuel, by omega, rfl⟩
  | cons di dataItems ih =>
    obtain ⟨chunk, valbuf, front', rfl, hlaid, htiles⟩ := tiles_cons_iff.mp h
    have hpos := List.length_pos_iff.mpr hlaid.header.ne_nil
    rw [List.append_assoc] at hfuel ⊢
    cases fuel with
    | zero =>
      rw [List.length_append] at hfuel
      omega
    | succ fuel =>
      have hrest : (front' ++ rest).length ≤ fuel := by
        rw [List.length_append] at hfuel
        omega
      have hne : ¬ (chunk ++ (front' ++ rest)).isEmpty = true := by
        simp [hlaid.header.ne_nil]
      have hrun := run_deserializeDataItem_iff.mpr
        ⟨chunk, valbuf, @rfl _ (chunk ++ (front' ++ rest)), hlaid⟩
      obtain ⟨fuel', hfuel', hloop⟩ := ih htiles hrest (acc ++ [di])
      refine ⟨fuel', hfuel', ?_⟩
      conv_lhs => unfold parseDataItems
      rw [if_neg hne, hrun]
      simp only
      rw [hloop, List.append_assoc]
      rfl

end ProtocolMessage

end Wire

end Dlep
end Emane

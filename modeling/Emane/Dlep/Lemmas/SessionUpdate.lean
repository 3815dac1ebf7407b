import Emane.Dlep.Impl.UpdateDataItems
import Emane.Dlep.Lemmas.AddDataItem
import Emane.Dlep.Lemmas.Validate

/-!
This module contains when the message for an update can be built, and what is read back from its
bytes.
-/

namespace Emane
namespace Dlep
namespace Update

open ProtocolConfigImpl Wire Wire.ProtocolMessage

def readBack (cfg : ProtocolConfig) (di : DataItem) : Option DataItem :=
  match di.value.serialize cfg, cfg.getDataItemValueType di.id with
  | .ok valbuf, .ok diType =>
    match (DataItemValue.deserialize cfg diType).run valbuf with
    | .ok (value, []) => some ⟨di.id, value⟩
    | _ => none
  | _, _ => none

def readable (cfg : ProtocolConfig) : List DataItem → List DataItem
  | [] => []
  | di :: updates =>
    match readBack cfg di with
    | some di' => di' :: readable cfg updates
    | none => []

def messageBytes (cfg : MessageConfig) (isSignal : Bool) (id : SignalIdType) (body : Bytes) : Bytes :=
  headerStart cfg isSignal id ++ (BigEndian.digits cfg.signalLengthSize body.length ++ body)

def Fits (cfg : MessageConfig) (isSignal : Bool) (id : SignalIdType) (updates : List DataItem)
    (body : Bytes) : Prop :=
  updates ≠ [] → ShiftsDefined 8 cfg.signalLengthSize ∧ body.length < 256^cfg.signalLengthSize.val
    ∧ (messageBytes cfg isSignal id body).length ≤ maxVectorSize

structure Writable (cfg : MessageConfig) (name : String) (updates : List DataItem) (isSignal : Bool)
    (id : SignalIdType)
    (bufs : List Bytes) : Prop where
  name : cfg.getSignalId name = .ok (id, isSignal)
  idSize : ShiftsDefined 4 cfg.signalIdSize
  id_lt : id.toNat < 256^cfg.signalIdSize.val
  lengthSize : ShiftsDefined 4 cfg.signalLengthSize
  serialized : Serialized cfg updates bufs
  fits : Fits cfg isSignal id updates bufs.flatten

section

variable {cfg : MessageConfig} {isSignal : Bool} {id : SignalIdType} {updates : List DataItem}
  {di : DataItem}

theorem readBack_eq_some_iff {cfg : ProtocolConfig} {di' : DataItem}
    : readBack cfg di = some di'
        ↔
      ∃ valbuf diType, di.value.serialize cfg = .ok valbuf ∧ cfg.getDataItemValueType di.id = .ok diType
        ∧ (DataItemValue.deserialize cfg diType).run valbuf = .ok (di'.value, []) ∧ di'.id = di.id := by
  unfold readBack
  constructor
  . intro h
    split at h
    . next valbuf diType hvalue htype =>
      split at h
      . next value hread =>
        cases h
        exact ⟨valbuf, diType, hvalue, htype, hread, rfl⟩
      . cases h
    . cases h
  . rintro ⟨valbuf, diType, hvalue, htype, hread, hid⟩
    simp only [hvalue, htype, hread]
    rw [← hid]

theorem hasHeader_of_serialize {buf : Bytes} (h : di.serialize cfg.toProtocolConfig = .ok buf)
    (hlt : buf.length < 2^63)
    : ∃ valbuf, di.value.serialize cfg.toProtocolConfig = .ok valbuf ∧ valbuf.length < 2^63
        ∧ DataItem.HasHeader cfg.toProtocolConfig buf di.id valbuf.length valbuf := by
  obtain ⟨valbuf, hvalue, hbuf, -, -, hlength⟩ := DataItem.serialize_cases h
  have hle : valbuf.length ≤ buf.length := by
    rw [hbuf, List.length_append, List.length_append]
    omega
  refine ⟨valbuf, hvalue, by omega, hbuf, ?_, hlength (by omega)⟩
  unfold DataItem.serialize at h
  rw [bind_eq_ok_iff] at h
  obtain ⟨_, -, h⟩ := h
  rw [bind_eq_ok_iff] at h
  obtain ⟨idbuf, hid, -⟩ := h
  exact lt_of_serializeSized di.id.toNat_lt hid

theorem run_deserializeDataItem_serialized {buf : Bytes} (h : di.serialize cfg.toProtocolConfig = .ok buf)
    (hlt : buf.length < 2^63) (rest : Bytes)
    : (∃ di', readBack cfg.toProtocolConfig di = some di'
        ∧ (deserializeDataItem cfg).run (buf ++ rest) = .ok (di', rest))
        ∨ readBack cfg.toProtocolConfig di = none
        ∧ ∃ e : Error, e.Thrown ∧ (deserializeDataItem cfg).run (buf ++ rest) = .error e := by
  obtain ⟨valbuf, hvalue, hend, hheader⟩ := hasHeader_of_serialize h hlt
  rw [run_deserializeDataItem (hheader.append rest), if_neg (Nat.not_le.mpr hend)]
  cases hread : DataItem.deserializeValue cfg.toProtocolConfig di.id.toNat valbuf.length
      (valbuf ++ rest) with
  | ok x =>
    left
    obtain ⟨di', rest'⟩ := x
    obtain ⟨valbuf', diType, hbytes, hlength, hid, htype, hrun⟩ := DataItem.deserializeValue_iff.mp hread
    obtain ⟨rfl, rfl⟩ := List.append_inj hbytes hlength.symm
    rw [UInt32.ofNat_toNat] at hid htype
    exact ⟨di', readBack_eq_some_iff.mpr ⟨valbuf, diType, hvalue, htype, hrun, hid⟩, rfl⟩
  | error e =>
    right
    refine ⟨?_, e, DataItem.thrown_of_deserializeValue hread, rfl⟩
    rw [Option.eq_none_iff_forall_not_mem]
    intro di' hdi'
    obtain ⟨valbuf', diType, hvalue', htype, hrun, hid⟩ := readBack_eq_some_iff.mp hdi'
    obtain rfl := Except.ok.inj (hvalue.symm.trans hvalue')
    have hok : DataItem.deserializeValue cfg.toProtocolConfig di.id.toNat valbuf.length
        (valbuf ++ rest) = .ok (di', rest) :=
      DataItem.deserializeValue_iff.mpr
        ⟨valbuf, diType, rfl, rfl, hid.trans UInt32.ofNat_toNat.symm, by rwa [UInt32.ofNat_toNat], hrun⟩
    rw [hread] at hok
    cases hok

variable {bufs : List Bytes}

theorem parseDataItems_serialized (h : Serialized cfg updates bufs) (hlt : bufs.flatten.length < 2^63)
    {fuel : Nat} (hfuel : bufs.flatten.length ≤ fuel) (acc : List DataItem)
    : ∃ e : Option Error, parseDataItems cfg fuel bufs.flatten acc
        = (acc ++ readable cfg.toProtocolConfig updates, e)
        ∧ ∀ err ∈ e, err.Thrown := by
  induction h generalizing fuel acc with
  | nil =>
    refine ⟨none, ?_, fun err herr => by cases herr⟩
    rw [List.flatten_nil, parseDataItems_nil, readable, List.append_nil]
  | @cons di buf updates bufs hserialize _ ih =>
    rw [List.flatten_cons, List.length_append] at hlt hfuel
    have hpos := List.length_pos_iff.mpr (serialize_ne_nil hserialize)
    obtain ⟨fuel, rfl⟩ : ∃ n, fuel = n + 1 := ⟨fuel - 1, by omega⟩
    have hne : ¬ (buf ++ bufs.flatten).isEmpty = true := by
      simp [serialize_ne_nil hserialize]
    rw [List.flatten_cons, parseDataItems, if_neg hne]
    rcases run_deserializeDataItem_serialized hserialize
      (by omega) bufs.flatten with ⟨di', hback, hrun⟩ | ⟨hback, e, hthrown, hrun⟩
    . obtain ⟨e, hloop, hthrown⟩ := ih (by omega) (show bufs.flatten.length ≤ fuel by omega)
        (acc ++ [di'])
      refine ⟨e, ?_, hthrown⟩
      simp only [hrun]
      rw [hloop, readable, hback, List.append_assoc]
      rfl
    . refine ⟨some e, ?_, fun err herr => by obtain rfl := Option.some.inj herr; exact hthrown⟩
      simp only [hrun]
      rw [readable, hback, List.append_nil]

variable {pm : Wire.ProtocolMessage} {body : Bytes}

theorem messageBytes_of_built (h : Built cfg isSignal id body pm)
    : pm.msgbuf = messageBytes cfg isSignal id body := by
  exact h.msgbuf

theorem length_messageBytes (cfg : MessageConfig) (isSignal : Bool) (id : SignalIdType) (body : Bytes)
    : (messageBytes cfg isSignal id body).length
        = (headerStart cfg isSignal id).length + cfg.signalLengthSize.val + body.length := by
  unfold messageBytes
  rw [List.length_append, List.length_append, BigEndian.length_digits, Nat.add_assoc]

theorem Fits.first {di : DataItem} {behind : Bytes}
    (h : Fits cfg isSignal id (di :: updates) (body ++ behind))
    : ShiftsDefined 8 cfg.signalLengthSize ∧ body.length < 256^cfg.signalLengthSize.val
        ∧ (messageBytes cfg isSignal id body).length ≤ maxVectorSize := by
  obtain ⟨hshifts, hlt, hroom⟩ := h (List.cons_ne_nil _ _)
  rw [length_messageBytes, List.length_append] at hroom
  rw [List.length_append] at hlt
  rw [length_messageBytes]
  exact ⟨hshifts, by omega, by omega⟩

theorem foldUntil_addDataItemState (h : Built cfg isSignal id body pm)
    (hknown : Known cfg isSignal id)
    (htypes : ∀ di ∈ updates, ∃ diType, cfg.getDataItemValueType di.id = .ok diType)
    : (∃ bufs pm', Serialized cfg updates bufs ∧ Fits cfg isSignal id updates (body ++ bufs.flatten)
          ∧ foldUntil (addDataItemState cfg) updates pm = (pm', none)
          ∧ Built cfg isSignal id (body ++ bufs.flatten) pm')
        ∨ (∃ pm' e, foldUntil (addDataItemState cfg) updates pm = (pm', some e))
        ∧ ∀ bufs, Serialized cfg updates bufs
            → ¬ Fits cfg isSignal id updates (body ++ bufs.flatten) := by
  induction updates generalizing pm body with
  | nil =>
    left
    refine ⟨[], pm, .nil, fun hne => absurd rfl hne, rfl, ?_⟩
    rwa [List.flatten_nil, List.append_nil]
  | cons di updates ih =>
    obtain ⟨htype, htypes⟩ := List.forall_mem_cons.mp htypes
    rcases addDataItemState_cases h.shaped hknown di with ⟨⟨e, hstate⟩, hroom⟩ | ⟨dibuf, hserialize,
      hroom, hcases⟩
    . right
      refine ⟨⟨pm, e, by rw [foldUntil, hstate]⟩, ?_⟩
      rintro _ (_ | ⟨hbuf, -⟩) hfits
      have hfirst := Fits.first (by rwa [List.flatten_cons, ← List.append_assoc] at hfits)
      have hlong := hroom _ hbuf
      rw [messageBytes_of_built h, length_messageBytes] at hlong
      rw [length_messageBytes, List.length_append] at hfirst
      omega
    . rcases hcases with ⟨e, hstate, hnot⟩ | ⟨pm', e, hstate, hbuilt, hshifts, hlt, hnone⟩
      . right
        refine ⟨⟨_, e, by rw [foldUntil, hstate]⟩, ?_⟩
        rintro _ (_ | ⟨hbuf, -⟩) hfits
        obtain rfl := Except.ok.inj (hserialize.symm.trans hbuf)
        have hfirst := Fits.first (by rwa [List.flatten_cons, ← List.append_assoc] at hfits)
        exact hnot ⟨hfirst.1, hfirst.2.1⟩
      . obtain rfl := hnone.mpr htype
        rcases ih hbuilt htypes with ⟨bufs, pm'', hbufs, hfits, hloop, hbuilt'⟩ | ⟨⟨pm'', e, hloop⟩, hnot⟩
        . left
          refine ⟨dibuf :: bufs, pm'', .cons hserialize hbufs, ?_, ?_, ?_⟩
          . intro _
            rw [List.flatten_cons, ← List.append_assoc]
            cases updates with
            | nil =>
              obtain rfl := List.forall₂_nil_left_iff.mp hbufs
              rw [List.flatten_nil, List.append_nil, length_messageBytes]
              rw [messageBytes_of_built h, length_messageBytes] at hroom
              rw [List.length_append] at hlt ⊢
              exact ⟨hshifts, hlt, by omega⟩
            | cons next updates => exact hfits (List.cons_ne_nil _ _)
          . rw [foldUntil, hstate]
            exact hloop
          . rwa [List.flatten_cons, ← List.append_assoc]
        . right
          refine ⟨⟨pm'', e, by rw [foldUntil, hstate]; exact hloop⟩, ?_⟩
          rintro _ (_ | ⟨hbuf, hbufs⟩) hfits
          obtain rfl := Except.ok.inj (hserialize.symm.trans hbuf)
          apply hnot _ hbufs
          intro _
          rw [List.flatten_cons, ← List.append_assoc] at hfits
          exact hfits (List.cons_ne_nil _ _)

theorem Writable.bounds {name : String} (h : Writable cfg name updates isSignal id bufs)
    : bufs.flatten.length < 256^cfg.signalLengthSize.val ∧ bufs.flatten.length < 2^63 := by
  by_cases hnil : updates = []
  . have hserialized := h.serialized
    rw [hnil] at hserialized
    obtain rfl := List.forall₂_nil_left_iff.mp hserialized
    exact ⟨zero_lt cfg.signalLengthSize, by decide⟩
  . obtain ⟨-, hlt, hroom⟩ := h.fits hnil
    rw [length_messageBytes] at hroom
    unfold maxVectorSize at hroom
    exact ⟨hlt, by omega⟩

theorem parseBuffer_of_built {name : String}
    (h : Writable cfg name updates isSignal id bufs)
    (hbuilt : Built cfg isSignal id bufs.flatten pm) (logPrefix : String)
    : ∃ err, pm.parseBuffer cfg logPrefix = .ok
        (err, parsed pm id (readable cfg.toProtocolConfig updates)) := by
  obtain ⟨hlt, hend⟩ := h.bounds
  have hheader := hbuilt.hasHeader h.id_lt hlt
  have hparse := parse_of_header hheader (known_of_getSignalId h.name) pm logPrefix
  obtain ⟨e, hitems, hthrown⟩ := parseDataItems_serialized h.serialized hend (Nat.le_refl _) []
  rw [hitems, List.nil_append] at hparse
  have hsame : pm.parseBuffer cfg logPrefix = parse cfg pm pm.msgbuf isSignal logPrefix := by
    rw [← hbuilt.isSignal]
    rfl
  rw [hsame, hparse, ← hbuilt.isSignal]
  cases e with
  | none => exact ⟨"", rfl⟩
  | some e =>
    obtain ⟨err, hcaught, -⟩ := caught_of_thrown (hthrown e rfl)
    simp only [hcaught]
    exact ⟨_, rfl⟩

theorem id_of_mem_readable {cfg : ProtocolConfig} {di' : DataItem} (h : di' ∈ readable cfg updates)
    : ∃ di ∈ updates, di'.id = di.id := by
  induction updates with
  | nil => cases h
  | cons di updates ih =>
    rw [readable] at h
    split at h
    . next hback =>
      rcases List.mem_cons.mp h with rfl | h
      . obtain ⟨_, _, -, -, -, hid⟩ := readBack_eq_some_iff.mp hback
        exact ⟨di, List.mem_cons_self, hid⟩
      . obtain ⟨other, hother, hid⟩ := ih h
        exact ⟨other, List.mem_cons_of_mem _ hother, hid⟩
    . cases h

end

variable {cfg : ProtocolConfigImpl} {updates : List DataItem} {isSignal : Bool} {id : SignalIdType}
  {name : String}

theorem getSignalId_toMessageConfig_iff
    : cfg.toMessageConfig.getSignalId name = .ok (id, isSignal)
        ↔ cfg.getSignalId name = .ok (id, isSignal) := by
  unfold MessageConfig.getSignalId ProtocolConfigImpl.getSignalId
  rw [show cfg.toMessageConfig.signalMap = cfg.signalMap from rfl,
    show cfg.toMessageConfig.messageMap = cfg.messageMap from rfl]
  cases cfg.signalMap.right name with
  | some id' => simp
  | none =>
    cases cfg.messageMap.right name with
    | some id' => simp
    | none => simp

theorem signalName_of_getSignalId (h : cfg.getSignalId name = .ok (id, isSignal))
    {pm : Wire.ProtocolMessage}
    (hid : pm.signalId = id) (hinit : pm.signalIdInitialized = true) (hsignal : pm.isSignal = isSignal)
    : pm.signalName cfg = .ok name := by
  have hleft := IdNameMap.right_iff_left.mp (idNameMap_of_getSignalId h).1
  unfold signalName
  rw [if_pos hinit, hsignal, hid]
  cases isSignal with
  | true =>
    rw [if_pos rfl]
    unfold ProtocolConfigImpl.getSignalName
    rw [show cfg.signalMap.left id = some name from hleft]
  | false =>
    rw [if_neg Bool.false_ne_true]
    unfold ProtocolConfigImpl.getMessageName
    rw [show cfg.messageMap.left id = some name from hleft]

theorem exists_valueType {id : DataItemIdType} (h : (cfg.dataItemInfoMap.find? id).isSome)
    : ∃ diType, cfg.toMessageConfig.getDataItemValueType id = .ok diType := by
  unfold ProtocolConfig.getDataItemValueType
  cases hlookup : cfg.toMessageConfig.dataItemInfoMap.lookup id with
  | some diType => exact ⟨diType, rfl⟩
  | none =>
    obtain ⟨diInfo, hinfo⟩ := Option.isSome_iff_exists.mp h
    have hmem := (SortedMap.find?_eq_some_iff _ _ _).mp hinfo
    have hne := List.lookup_eq_none_iff.mp hlookup (id, diInfo.valueType)
      (List.mem_map.mpr ⟨(id, diInfo), hmem, rfl⟩)
    simp at hne

theorem addHeader_cases (name : String)
    : (∃ isSignal id pm, cfg.toMessageConfig.getSignalId name = .ok (id, isSignal)
        ∧ ShiftsDefined 4 cfg.signalIdSize
          ∧ id.toNat < 256^cfg.signalIdSize.val ∧ ShiftsDefined 4 cfg.signalLengthSize
          ∧ Wire.ProtocolMessage.empty.addHeader cfg.toMessageConfig name = .ok pm
          ∧ Built cfg.toMessageConfig isSignal id [] pm)
        ∨ (∃ e, Wire.ProtocolMessage.empty.addHeader cfg.toMessageConfig name = .error e)
        ∧ ∀ isSignal id bufs updates, ¬ Writable cfg.toMessageConfig name updates isSignal id bufs := by
  cases haddHeader : Wire.ProtocolMessage.empty.addHeader cfg.toMessageConfig name with
  | ok pm =>
    left
    obtain ⟨isSignal, id, -, -⟩ := built_of_addHeader haddHeader
    cases hname : cfg.toMessageConfig.getSignalId name with
    | error e =>
      unfold addHeader at haddHeader
      rw [hname] at haddHeader
      cases haddHeader
    | ok x =>
      obtain ⟨id, isSignal⟩ := x
      obtain ⟨hid, hlt, hlength⟩ := of_addHeader hname haddHeader
      obtain ⟨pm', hpm', hbuilt⟩ := addHeader_built hname hid hlt hlength
      obtain rfl := Except.ok.inj (haddHeader.symm.trans hpm')
      exact ⟨isSignal, id, pm, rfl, hid, hlt, hlength, rfl, hbuilt⟩
  | error e =>
    right
    refine ⟨⟨e, rfl⟩, fun isSignal id bufs updates hwritable => ?_⟩
    obtain ⟨pm, hpm, -⟩ := addHeader_built hwritable.name hwritable.idSize hwritable.id_lt
      hwritable.lengthSize
    rw [haddHeader] at hpm
    cases hpm

theorem buildUpdate_cases (h : Sound cfg)
    (htypes : ∀ di ∈ updates, (cfg.dataItemInfoMap.find? di.id).isSome) (modem : Bool)
    : (∃ isSignal id bufs pm, Writable cfg.toMessageConfig "Session_Update" updates isSignal id bufs
          ∧ Peer.buildUpdate cfg modem updates = .ok pm
          ∧ pm.msgbuf = messageBytes cfg.toMessageConfig isSignal id bufs.flatten
          ∧ pm.isSignal = isSignal ∧ pm.signalName cfg = .ok "Session_Update"
          ∧ pm.dataItems = readable cfg.toMessageConfig.toProtocolConfig updates)
        ∨ (∃ e, Peer.buildUpdate cfg modem updates = .error e)
        ∧ ∀ isSignal id bufs, ¬ Writable cfg.toMessageConfig "Session_Update" updates isSignal
            id bufs := by
  unfold Peer.buildUpdate
  rcases @addHeader_cases cfg "Session_Update" with ⟨isSignal, id, pm, hname, hid, hlt, hlength,
    hheader, hbuilt⟩ | ⟨⟨e, he⟩, hnot⟩
  . rw [hheader]
    have hvalueTypes : ∀ di ∈ updates, ∃ diType, cfg.toMessageConfig.getDataItemValueType di.id
        = .ok diType :=
      fun di hdi => exists_valueType (htypes di hdi)
    rcases foldUntil_addDataItemState hbuilt (known_of_getSignalId hname) hvalueTypes with
      ⟨bufs, pm', hbufs, hfits, hloop, hbuilt'⟩ | ⟨⟨pm', e, hloop⟩, hnot⟩
    . left
      have hwritable : Writable cfg.toMessageConfig "Session_Update" updates isSignal id bufs :=
        ⟨hname, hid, hlt, hlength, hbufs, hfits⟩
      have hbytes := messageBytes_of_built hbuilt'
      obtain ⟨err, hparse⟩ := parseBuffer_of_built hwritable hbuilt' "peer_update"
      have hsignalName : (parsed pm' id
        (readable cfg.toMessageConfig.toProtocolConfig updates)).signalName cfg
          = .ok "Session_Update" :=
        signalName_of_getSignalId (getSignalId_toMessageConfig_iff.mp hname) rfl rfl hbuilt'.isSignal
      obtain ⟨siginfo, hget⟩ := h.exists_getSignalInfo
        (idNameMap_of_getSignalId (getSignalId_toMessageConfig_iff.mp hname)).1
      obtain ⟨kind, infoId, hsiginfo⟩ := exists_info_of_getSignalInfo hget
      obtain ⟨text, hvalidate, -⟩ := validate_of_siginfo h hsignalName hget
        (h.listed kind infoId siginfo hsiginfo)
        (fun di hdi => by obtain ⟨other, hother, heq⟩ := id_of_mem_readable hdi; rw [heq]; exact htypes other hother) modem
      refine ⟨isSignal, id, bufs,
        parsed pm' id (readable cfg.toMessageConfig.toProtocolConfig updates), hwritable, ?_,
        hbytes, hbuilt'.isSignal, hsignalName, rfl⟩
      simp only [UpdateError.ofMessage, bind, Except.bind, hloop, hparse, lift, hvalidate,
        UpdateError.ofConfig]
      split
      . rfl
      . rfl
    . right
      refine ⟨⟨.message e, ?_⟩, ?_⟩
      . simp only [UpdateError.ofMessage, bind, Except.bind, hloop]
        rfl
      . intro isSignal' id' bufs hwritable
        obtain ⟨rfl, rfl⟩ := Prod.mk.inj (Except.ok.inj (hname.symm.trans hwritable.name))
        exact hnot bufs hwritable.serialized hwritable.fits
  . right
    rw [he]
    exact ⟨⟨.message e, rfl⟩, fun isSignal id bufs => hnot isSignal id bufs updates⟩

def Answered (cfg : ProtocolConfigImpl) (isSignal : Bool) : Prop :=
  ∃ siginfo, cfg.getSignalInfo "Session_Update" = .ok siginfo ∧ siginfo.responseId ≠ 0
    ∧ ((cfg.idNameMap (!isSignal)).left siginfo.responseId).isSome

theorem create_cases {pm : Wire.ProtocolMessage} (hname : pm.signalName cfg = .ok "Session_Update")
    : (∃ rp, ResponsePending.create cfg pm = .ok rp ∧ rp.msgBuffer = pm.msgbuf
          ∧ getDestination cfg pm.dataItems = .ok rp.destination ∧ Answered cfg pm.isSignal)
        ∨ (∃ e, ResponsePending.create cfg pm = .error e)
        ∧ ¬ (Answered cfg pm.isSignal ∧ ∃ mac, getDestination cfg pm.dataItems = .ok mac) := by
  unfold ResponsePending.create
  simp only [hname, UpdateError.ofConfig, bind, Except.bind]
  cases hget : cfg.getSignalInfo "Session_Update" with
  | error e =>
    right
    refine ⟨⟨.config e, rfl⟩, ?_⟩
    rintro ⟨⟨siginfo, hsiginfo, -⟩, -⟩
    rw [hget] at hsiginfo
    cases hsiginfo
  | ok siginfo =>
    simp only
    by_cases hzero : siginfo.responseId = 0
    . right
      rw [if_pos hzero]
      refine ⟨⟨_, rfl⟩, ?_⟩
      rintro ⟨⟨siginfo', hsiginfo, hne, -⟩, -⟩
      obtain rfl := Except.ok.inj (hget.symm.trans hsiginfo)
      exact hne hzero
    . rw [if_neg hzero]
      have hresponse : (∃ name, (if pm.isSignal then cfg.getSignalName siginfo.responseId
            else cfg.getMessageName siginfo.responseId) = .ok name)
          ↔ ((cfg.idNameMap (!pm.isSignal)).left siginfo.responseId).isSome := by
        unfold ProtocolConfigImpl.getSignalName ProtocolConfigImpl.getMessageName
        cases pm.isSignal with
        | true =>
          show _ ↔ (cfg.signalMap.left siginfo.responseId).isSome
          cases cfg.signalMap.left siginfo.responseId with
          | some name => simp
          | none => simp
        | false =>
          show _ ↔ (cfg.messageMap.left siginfo.responseId).isSome
          cases cfg.messageMap.left siginfo.responseId with
          | some name => simp
          | none => simp
      cases hresponseName : (if pm.isSignal then cfg.getSignalName siginfo.responseId
          else cfg.getMessageName siginfo.responseId) with
      | error e =>
        right
        refine ⟨⟨.config e, rfl⟩, ?_⟩
        rintro ⟨⟨siginfo', hsiginfo, -, hsome⟩, -⟩
        obtain rfl := Except.ok.inj (hget.symm.trans hsiginfo)
        obtain ⟨name, hname'⟩ := hresponse.mpr hsome
        rw [hresponseName] at hname'
        cases hname'
      | ok responseName =>
        cases hdestination : getDestination cfg pm.dataItems with
        | error e =>
          right
          refine ⟨⟨e, rfl⟩, ?_⟩
          rintro ⟨-, mac, hmac⟩
          cases hmac
        | ok mac =>
          left
          exact ⟨_, rfl, rfl, rfl, siginfo, hget, hzero, hresponse.mp ⟨responseName, hresponseName⟩⟩

namespace Peer

def pending (peer : Peer) (mac : DlepMac) : List ResponsePending :=
  (peer.responsesPending.find? mac).getD []

end Peer

def IsSessionUpdate (cfg : ProtocolConfigImpl) (updates : List DataItem) (bytes : Bytes) : Prop :=
  ∃ isSignal id bufs, cfg.toMessageConfig.getSignalId "Session_Update" = .ok (id, isSignal)
    ∧ Serialized cfg.toMessageConfig updates bufs
    ∧ bytes = messageBytes cfg.toMessageConfig isSignal id bufs.flatten

structure Told (cfg : ProtocolConfigImpl) (updates : List DataItem) (peer peer' : Peer) : Prop where
  pstate : peer'.pstate = peer.pstate
  notInterested : peer'.notInterestedDestinations = peer.notInterestedDestinations
  queued : ∃ rp, IsSessionUpdate cfg updates rp.msgBuffer
    ∧ (∀ mac, peer'.pending mac = if mac = rp.destination then peer.pending mac ++ [rp]
      else peer.pending mac)
    ∧ peer'.sent = peer.sent ++ (if (peer.pending rp.destination).isEmpty then [rp.msgBuffer] else [])

structure Tellable (cfg : ProtocolConfigImpl) (updates : List DataItem) (peer : Peer) : Prop where
  message : ∃ isSignal id bufs, Writable cfg.toMessageConfig "Session_Update" updates isSignal id
    bufs ∧ Answered cfg isSignal
  destination : ∃ mac, getDestination cfg
    (readable cfg.toMessageConfig.toProtocolConfig updates) = .ok mac
    ∧ mac ∉ peer.notInterestedDestinations

theorem told_sendMessageExpectingResponse {rp : ResponsePending}
    (h : IsSessionUpdate cfg updates rp.msgBuffer) {peer : Peer}
    (hinterested : rp.destination ∉ peer.notInterestedDestinations) (now : Nat)
    : Told cfg updates peer (peer.sendMessageExpectingResponse now rp) := by
  unfold Peer.sendMessageExpectingResponse
  rw [if_neg hinterested]
  simp only
  cases hempty : ((peer.responsesPending.find? rp.destination).getD []).isEmpty with
  | true =>
    rw [if_pos rfl]
    refine ⟨rfl, rfl, { rp with sendTime := now, sendTries := rp.sendTries + 1 }, h, fun mac => ?_, ?_⟩
    . unfold Peer.pending
      simp only [SortedMap.find?_set]
      split
      . next heq =>
        rw [heq, List.isEmpty_iff.mp hempty]
        rfl
      . rfl
    . simp only [Peer.pending, hempty, if_true]
  | false =>
    rw [if_neg Bool.false_ne_true]
    refine ⟨rfl, rfl, rp, h, fun mac => ?_, ?_⟩
    . unfold Peer.pending
      simp only [SortedMap.find?_set]
      split
      . next heq =>
        rw [heq]
        rfl
      . rfl
    . simp [Peer.pending, hempty]

theorem not_told_self (peer : Peer) : ¬ Told cfg updates peer peer := by
  intro h
  obtain ⟨rp, -, hpending, -⟩ := h.queued
  have hlonger := congrArg List.length (hpending rp.destination)
  simp at hlonger

theorem told_peerUpdate_iff (h : Sound cfg)
    (htypes : ∀ di ∈ updates, (cfg.dataItemInfoMap.find? di.id).isSome) (modem : Bool)
    (now : Nat) {peer : Peer} (hsession : peer.pstate = .inSession)
    : (∃ peer', Peer.peerUpdate cfg modem now peer updates = (peer', none) ∧ Told cfg updates peer peer')
        ↔ Tellable cfg updates peer := by
  unfold Peer.peerUpdate
  rw [if_pos hsession]
  rcases buildUpdate_cases h htypes modem with
    ⟨isSignal, id, bufs, pm, hwritable, hbuild, hbytes, hsignal, hname, hitems⟩ | ⟨⟨e, he⟩, hnot⟩
  . rw [hbuild]
    rcases create_cases hname with ⟨rp, hcreate, hbuffer, hdestination, hanswered⟩ | ⟨⟨e, he⟩, hnot⟩
    . have hupdate : IsSessionUpdate cfg updates rp.msgBuffer :=
        ⟨isSignal, id, bufs, hwritable.name, hwritable.serialized, hbuffer.trans hbytes⟩
      rw [hitems] at hdestination
      rw [hsignal] at hanswered
      simp only [bind, Except.bind, hcreate]
      constructor
      . rintro ⟨peer', hpeer', htold⟩
        cases hpeer'
        refine ⟨⟨isSignal, id, bufs, hwritable, hanswered⟩, rp.destination, hdestination, fun hmem => ?_⟩
        unfold Peer.sendMessageExpectingResponse at htold
        rw [if_pos hmem] at htold
        exact not_told_self peer htold
      . rintro ⟨-, mac, hmac, hinterested⟩
        obtain rfl := Except.ok.inj (hdestination.symm.trans hmac)
        exact ⟨_, rfl, told_sendMessageExpectingResponse hupdate hinterested now⟩
    . simp only [bind, Except.bind, he]
      refine iff_of_false (by rintro ⟨peer', hpeer', -⟩; cases (Prod.mk.inj hpeer').2) ?_
      rintro ⟨⟨isSignal', id', bufs', hwritable', hanswered⟩, mac, hmac, -⟩
      obtain ⟨-, rfl⟩ := Prod.mk.inj (Except.ok.inj (hwritable.name.symm.trans hwritable'.name))
      rw [hsignal, hitems] at hnot
      exact hnot ⟨hanswered, mac, hmac⟩
  . simp only [bind, Except.bind, he]
    refine iff_of_false (by rintro ⟨peer', hpeer', -⟩; cases (Prod.mk.inj hpeer').2) ?_
    rintro ⟨⟨isSignal, id, bufs, hwritable, -⟩, -⟩
    exact hnot isSignal id bufs hwritable

end Update
end Dlep
end Emane

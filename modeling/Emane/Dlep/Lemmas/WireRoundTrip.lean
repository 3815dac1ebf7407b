import Emane.Dlep.Lemmas.Receive
import Emane.Dlep.Lemmas.Wire

/-!
This module contains exactly which signals and messages come back from the bytes they are built
to.
-/

namespace Emane
namespace Dlep
namespace Wire

variable {cfg : MessageConfig}

def headerStart (cfg : MessageConfig) (isSignal : Bool) (id : SignalIdType) : Bytes :=
  prefixBytes cfg isSignal ++ BigEndian.digits cfg.signalIdSize id.toNat

structure Built (cfg : MessageConfig) (isSignal : Bool) (id : SignalIdType) (body : Bytes)
    (pm : ProtocolMessage) : Prop where
  msgbuf : pm.msgbuf = headerStart cfg isSignal id
    ++ (BigEndian.digits cfg.signalLengthSize body.length ++ body)
  msgLenIndex : pm.msgLenIndex = (headerStart cfg isSignal id).length
  headerLength : pm.headerLength = (headerStart cfg isSignal id).length + cfg.signalLengthSize.val
  signalId : pm.signalId = id
  signalIdInitialized : pm.signalIdInitialized = true
  isSignal : pm.isSignal = isSignal

abbrev Serialized (cfg : MessageConfig) (dataItems : List DataItem) (bufs : List Bytes) : Prop :=
  List.Forall₂ (fun di buf => di.serialize cfg.toProtocolConfig = .ok buf) dataItems bufs

namespace ProtocolMessage

variable {isSignal : Bool} {id : SignalIdType} {name : String}

theorem lift_eq_ok_iff {α : Type} {x : Except Error α} {a : α} : lift x = .ok a ↔ x = .ok a := by
  cases x with
  | error e => simp [lift]
  | ok b => simp [lift]

theorem zero_lt (fieldSize : FieldSizeInBytes) : 0 < 256^fieldSize.val := by
  exact Nat.pow_pos (by decide)

theorem addHeader_built (hname : cfg.getSignalId name = .ok (id, isSignal))
    (hid : ShiftsDefined 4 cfg.signalIdSize)
    (hfits : id.toNat < 256^cfg.signalIdSize.val) (hlength : ShiftsDefined 4 cfg.signalLengthSize)
    : ∃ pm, addHeader cfg empty name = .ok pm ∧ Built cfg isSignal id [] pm := by
  have hidbuf := serializeSized_eq_ok hid id.toNat_lt hfits
  have hlengthbuf := serializeSized_eq_ok hlength (by decide) (zero_lt cfg.signalLengthSize)
  have hprefix : (if isSignal then empty.msgbuf ++ cfg.signalPrefix else empty.msgbuf)
      = prefixBytes cfg isSignal := by
    cases isSignal with
    | true => rfl
    | false => rfl
  unfold addHeader
  rw [hname]
  simp only [bind, Except.bind, hprefix]
  rw [hidbuf, hlengthbuf]
  refine ⟨_, rfl, ?_⟩
  constructor
  . simp [headerStart]
  . rfl
  . simp [headerStart, Nat.add_assoc]
  . rfl
  . rfl
  . rfl

variable {pm : ProtocolMessage}

theorem of_addHeader (hname : cfg.getSignalId name = .ok (id, isSignal))
    (h : addHeader cfg empty name = .ok pm)
    : ShiftsDefined 4 cfg.signalIdSize
        ∧ id.toNat < 256^cfg.signalIdSize.val
        ∧ ShiftsDefined 4 cfg.signalLengthSize := by
  unfold addHeader at h
  rw [hname] at h
  simp only [bind, Except.bind] at h
  cases hid : serializeSized 4 cfg.signalIdSize id.toNat with
  | error e =>
    rw [hid] at h
    cases h
  | ok idbuf =>
    rw [hid] at h
    cases hlength : serializeSized 4 cfg.signalLengthSize 0 with
    | error e =>
      rw [hlength] at h
      cases h
    | ok lengthbuf =>
      exact ⟨shiftsDefined_of_serializeSized hid, lt_of_serializeSized id.toNat_lt hid,
        shiftsDefined_of_serializeSized hlength⟩

theorem overwrite_eq_ok {front old rest new : Bytes} (h : old.length = new.length)
    : overwrite (front ++ (old ++ rest)) front.length new = .ok (front ++ (new ++ rest)) := by
  unfold overwrite
  have hle : front.length + new.length ≤ (front ++ (old ++ rest)).length := by
    rw [List.length_append, List.length_append]
    omega
  rw [if_pos hle, List.take_left, ← h, ← List.append_assoc front old rest, ← List.length_append,
    List.drop_left,
    List.append_assoc]

variable {body : Bytes}

theorem getSignalName_eq_ok (h : Built cfg isSignal id body pm)
    (hknown : Known cfg isSignal id)
    : ∃ name, pm.getSignalName cfg = .ok name := by
  obtain ⟨name, hname⟩ := hknown
  refine ⟨name, ?_⟩
  unfold getSignalName
  rw [h.signalIdInitialized, if_pos rfl, h.isSignal, h.signalId]
  exact hname

theorem addDataItem_built {dibuf : Bytes} {di : DataItem} (h : Built cfg isSignal id body pm)
    (hknown : Known cfg isSignal id) (hserialize : di.serialize cfg.toProtocolConfig = .ok dibuf)
    (hlength : ShiftsDefined 8 cfg.signalLengthSize)
    (hfits : (body ++ dibuf).length < 256^cfg.signalLengthSize.val)
    {diType : DataItemValueType} (htype : cfg.getDataItemValueType di.id = .ok diType)
    : ∃ pm', addDataItem cfg pm di = .ok pm' ∧ Built cfg isSignal id (body ++ dibuf) pm' := by
  have hbuf : pm.msgbuf ++ dibuf
      = headerStart cfg isSignal id
          ++ (BigEndian.digits cfg.signalLengthSize body.length ++ (body ++ dibuf)) := by
    rw [h.msgbuf]
    simp only [List.append_assoc]
  have htotal : (pm.msgbuf ++ dibuf).length - pm.headerLength = (body ++ dibuf).length := by
    rw [hbuf, h.headerLength, List.length_append, List.length_append, BigEndian.length_digits]
    omega
  have hasserts : ¬ ((pm.msgbuf ++ dibuf).length < pm.headerLength
      ∨ (pm.msgbuf ++ dibuf).length ≤ pm.msgLenIndex) := by
    have hsize := cfg.signalLengthSize.property.1
    rw [hbuf, h.headerLength, h.msgLenIndex, List.length_append, List.length_append,
      BigEndian.length_digits]
    omega
  have hlengthbuf := serializeSized_eq_ok hlength (length_lt_eight hfits) hfits
  have hover : overwrite (pm.msgbuf ++ dibuf) pm.msgLenIndex
      (BigEndian.digits cfg.signalLengthSize (body ++ dibuf).length)
      = .ok (headerStart cfg isSignal id
        ++ (BigEndian.digits cfg.signalLengthSize (body ++ dibuf).length ++ (body ++ dibuf))) := by
    rw [hbuf, h.msgLenIndex]
    apply overwrite_eq_ok
    rw [BigEndian.length_digits, BigEndian.length_digits]
  have hbuilt : Built cfg isSignal id (body ++ dibuf)
      { pm with msgbuf := headerStart cfg isSignal id
        ++ (BigEndian.digits cfg.signalLengthSize (body ++ dibuf).length ++ (body ++ dibuf)) } :=
    ⟨rfl, h.msgLenIndex, h.headerLength, h.signalId, h.signalIdInitialized, h.isSignal⟩
  obtain ⟨signalName, hsignalName⟩ := getSignalName_eq_ok hbuilt hknown
  refine ⟨_, ?_, hbuilt⟩
  unfold addDataItem updateMessageLength
  rw [hserialize]
  simp only [lift, bind, Except.bind]
  rw [if_neg hasserts, htotal, hlengthbuf]
  simp only
  rw [hover]
  simp only [pure, Except.pure]
  rw [htype]
  rw [hsignalName]

theorem of_addDataItem {pm' : ProtocolMessage} {di : DataItem} (h : addDataItem cfg pm di = .ok pm')
    : (∃ dibuf, di.serialize cfg.toProtocolConfig = .ok dibuf)
        ∧ ShiftsDefined 8 cfg.signalLengthSize
        ∧ ∃ diType, cfg.getDataItemValueType di.id = .ok diType := by
  unfold addDataItem updateMessageLength at h
  simp only [bind, Except.bind] at h
  cases hserialize : di.serialize cfg.toProtocolConfig with
  | error e =>
    rw [hserialize] at h
    cases h
  | ok dibuf =>
    rw [hserialize] at h
    simp only [lift] at h
    split at h
    . cases h
    . next hupdate =>
      split at hupdate
      . cases hupdate
      . split at hupdate
        . cases hupdate
        . next hlengthbuf =>
          have hlength := shiftsDefined_of_serializeSized (lift_eq_ok_iff.mp hlengthbuf)
          cases htype : cfg.getDataItemValueType di.id with
          | error e =>
            rw [htype] at h
            cases h
          | ok diType => exact ⟨⟨dibuf, rfl⟩, hlength, diType, rfl⟩

theorem addDataItems_built {dataItems : List DataItem} {bufs : List Bytes}
    (hbufs : Serialized cfg dataItems bufs) (h : Built cfg isSignal id body pm)
    (hknown : Known cfg isSignal id)
    (hlength : dataItems ≠ [] → ShiftsDefined 8 cfg.signalLengthSize)
    (htypes : ∀ di ∈ dataItems, ∃ diType, cfg.getDataItemValueType di.id = .ok diType)
    (hfits : (body ++ bufs.flatten).length < 256^cfg.signalLengthSize.val)
    : ∃ pm', addDataItems cfg pm dataItems = .ok pm'
        ∧ Built cfg isSignal id (body ++ bufs.flatten) pm' := by
  induction hbufs generalizing pm body with
  | nil =>
    refine ⟨pm, rfl, ?_⟩
    rw [List.flatten_nil, List.append_nil]
    exact h
  | @cons di buf dataItems bufs hserialize _ ih =>
    rw [List.flatten_cons, ← List.append_assoc] at hfits ⊢
    have hshifts := hlength (List.cons_ne_nil _ _)
    have hfits1 : (body ++ buf).length < 256^cfg.signalLengthSize.val := by
      rw [List.length_append] at hfits
      omega
    obtain ⟨diType, htype⟩ := htypes di List.mem_cons_self
    obtain ⟨pm1, hadd, h1⟩ := addDataItem_built h hknown hserialize hshifts hfits1 htype
    obtain ⟨pm', hrest, h'⟩ :=
      ih h1 (fun _ => hshifts) (fun di' hdi' => htypes di' (List.mem_cons_of_mem _ hdi')) hfits
    refine ⟨pm', ?_, h'⟩
    unfold addDataItems at hrest ⊢
    rw [List.foldlM_cons, hadd]
    exact hrest

theorem of_addDataItems {dataItems : List DataItem} {pm' : ProtocolMessage}
    (h : addDataItems cfg pm dataItems = .ok pm')
    : ∀ di ∈ dataItems,
        (∃ dibuf, di.serialize cfg.toProtocolConfig = .ok dibuf)
          ∧ ShiftsDefined 8 cfg.signalLengthSize
          ∧ ∃ diType, cfg.getDataItemValueType di.id = .ok diType := by
  induction dataItems generalizing pm with
  | nil =>
    intro di hdi
    cases hdi
  | cons di dataItems ih =>
    unfold addDataItems at h ih
    rw [List.foldlM_cons] at h
    cases hadd : addDataItem cfg pm di with
    | error e =>
      rw [hadd] at h
      cases h
    | ok pm1 =>
      rw [hadd] at h
      intro di' hdi'
      cases List.mem_cons.mp hdi' with
      | inl heq =>
        rw [heq]
        exact of_addDataItem hadd
      | inr hmem => exact ih h di' hmem

end ProtocolMessage

theorem exists_serialized {dataItems : List DataItem}
    (h : ∀ di ∈ dataItems, ∃ buf, di.serialize cfg.toProtocolConfig = .ok buf)
    : ∃ bufs, Serialized cfg dataItems bufs := by
  induction dataItems with
  | nil => exact ⟨[], List.Forall₂.nil⟩
  | cons di dataItems ih =>
    obtain ⟨buf, hbuf⟩ := h di List.mem_cons_self
    obtain ⟨bufs, hbufs⟩ := ih (fun di' hdi' => h di' (List.mem_cons_of_mem _ hdi'))
    exact ⟨buf :: bufs, List.Forall₂.cons hbuf hbufs⟩

end Wire

namespace DataItemValue

theorem extensionIds_lt_of_serialize {cfg : ProtocolConfig} {value : DataItemValue} {valbuf : Bytes}
    (h : value.serialize cfg = .ok valbuf)
    : ∀ x ∈ value.extensionIds, x.toNat < 256^cfg.extensionIdSize.val := by
  cases value with
  | div_v_extid ids =>
    induction ids generalizing valbuf with
    | nil =>
      intro x hx
      cases hx
    | cons id ids ih =>
      simp only [serialize, List.mapM_cons] at h ih
      cases hid : serializeSized 4 cfg.extensionIdSize id.toNat with
      | error e =>
        rw [hid] at h
        cases h
      | ok buf =>
        cases hids : ids.mapM (fun x => serializeSized 4 cfg.extensionIdSize x.toNat) with
        | error e =>
          rw [hid, hids] at h
          cases h
        | ok bufs =>
          rw [hids] at ih
          intro x hx
          cases List.mem_cons.mp hx with
          | inl heq =>
            rw [heq]
            exact lt_of_serializeSized id.toNat_lt hid
          | inr hmem => exact ih rfl x hmem
  | _ =>
    intro x hx
    cases hx

end DataItemValue

namespace DataItem

variable {cfg : ProtocolConfig} {di : DataItem}

theorem serialize_cases {buf : Bytes} (h : di.serialize cfg = .ok buf)
    : ∃ valbuf,
        di.value.serialize cfg = .ok valbuf
          ∧ buf = BigEndian.digits cfg.dataItemIdSize di.id.toNat
          ++ (BigEndian.digits cfg.dataItemLengthSize valbuf.length ++ valbuf)
          ∧ ShiftsDefined 4 cfg.dataItemIdSize
          ∧ ShiftsDefined 8 cfg.dataItemLengthSize
          ∧ (valbuf.length < 256^8 → valbuf.length < 256^cfg.dataItemLengthSize.val) := by
  unfold serialize at h
  simp only [bind, Except.bind] at h
  cases hvalue : di.value.serialize cfg with
  | error e =>
    rw [hvalue] at h
    cases h
  | ok valbuf =>
    rw [hvalue] at h
    cases hid : serializeSized 4 cfg.dataItemIdSize di.id.toNat with
    | error e =>
      rw [hid] at h
      cases h
    | ok idbuf =>
      rw [hid] at h
      cases hlength : serializeSized 8 cfg.dataItemLengthSize valbuf.length with
      | error e =>
        simp only [hlength] at h
        cases h
      | ok lengthbuf =>
        simp only [hlength] at h
        refine ⟨valbuf, rfl, ?_, shiftsDefined_of_serializeSized hid,
          shiftsDefined_of_serializeSized hlength, ?_⟩
        . rw [← eq_digits_of_serializeSized hid, ← eq_digits_of_serializeSized
            hlength, ← List.append_assoc]
          exact (Except.ok.inj h).symm
        . intro hval
          exact lt_of_serializeSized hval hlength

theorem fits_and_readable_of_laidOut {buf valbuf : Bytes} (hserialize : di.serialize cfg = .ok buf)
    (hvalue : di.value.serialize cfg = .ok valbuf) (hlaid : di.LaidOut cfg buf valbuf)
    : di.Fits cfg ∧ di.Readable cfg := by
  obtain ⟨diType, htype, hread⟩ := hlaid.value
  have hext := DataItemValue.extensionIds_lt_of_serialize hvalue
  have hgetType : di.value.getType = diType :=
    (DataItemValue.deserialize_yields cfg diType valbuf).of_ok hread
  have hback := DataItemValue.run_deserialize hext hvalue
  rw [hgetType, hread, Except.ok.injEq, Prod.mk.injEq] at hback
  obtain ⟨_, _, _, hid, hlength, _⟩ := serialize_cases hserialize
  constructor
  . constructor
    . rw [hgetType]
      exact htype
    . exact hlaid.header.id_lt
    . exact hext
    . intro valbuf' hvalue'
      rw [hvalue, Except.ok.injEq] at hvalue'
      rw [← hvalue']
      exact hlaid.header.length_lt
  . constructor
    . exact (shiftsDefined_four_iff _).mp hid
    . exact (shiftsDefined_eight_iff _).mp hlength
    . exact (DataItemValue.readable_iff hext).mpr ⟨⟨valbuf, hvalue⟩, hback.2.symm, hback.1.symm⟩

theorem laidOut_of_readable (hfits : di.Fits cfg) (hreadable : di.Readable cfg)
    : ∃ buf valbuf,
        di.serialize cfg = .ok buf
          ∧ valbuf.length ≤ buf.length
          ∧ (valbuf.length < 2^63 → di.LaidOut cfg buf valbuf) := by
  obtain ⟨⟨valbuf, hvalue⟩, hunread, hreceived⟩ :=
    (DataItemValue.readable_iff hfits.extensionIds).mp hreadable.value
  have hid := (shiftsDefined_four_iff _).mpr hreadable.id
  have hlength := (shiftsDefined_eight_iff _).mpr hreadable.length
  refine ⟨_, valbuf, serialize_eq_ok hfits hid hlength hvalue, ?_, ?_⟩
  . rw [List.length_append, List.length_append]
    omega
  . intro hlt
    refine ⟨⟨rfl, hfits.id, hfits.length valbuf hvalue⟩, hlt, _, hfits.valueType, ?_⟩
    have hread := DataItemValue.run_deserialize hfits.extensionIds hvalue
    rw [hunread, hreceived] at hread
    exact hread

end DataItem

namespace Wire

theorem laidOut_of_tiles {dataItems : List DataItem} {bufs : List Bytes}
    (hbufs : Serialized cfg dataItems bufs)
    (hlt : bufs.flatten.length < 256^8) (htiles : Tiles cfg bufs.flatten dataItems)
    : ∀ di ∈ dataItems,
        ∃ buf valbuf,
          di.serialize cfg.toProtocolConfig = .ok buf
            ∧ di.value.serialize cfg.toProtocolConfig = .ok valbuf
            ∧ di.LaidOut cfg.toProtocolConfig buf valbuf := by
  induction hbufs with
  | nil =>
    intro di hdi
    cases hdi
  | @cons di buf dataItems bufs hserialize _ ih =>
    obtain ⟨valbuf, hvalue, hbuf, _, _, hfits⟩ := DataItem.serialize_cases hserialize
    obtain ⟨chunk, valbuf', rest, hflatten, hlaid, hrest⟩ := tiles_cons_iff.mp htiles
    rw [List.flatten_cons, List.length_append] at hlt
    have hvalLt : valbuf.length < 256^8 := by
      rw [hbuf, List.length_append, List.length_append] at hlt
      omega
    -- behind the id both have a length of the same size
    have heq : BigEndian.digits cfg.dataItemLengthSize valbuf.length ++ (valbuf ++ bufs.flatten)
        = BigEndian.digits cfg.dataItemLengthSize valbuf'.length ++ (valbuf' ++ rest) := by
      rw [List.flatten_cons, hbuf, hlaid.header.bytes_eq] at hflatten
      simpa only [List.append_assoc, List.append_cancel_left_eq] using hflatten
    obtain ⟨hdigits, htail⟩ := List.append_inj heq
      (by rw [BigEndian.length_digits, BigEndian.length_digits])
    have hlength := digits_inj (hfits hvalLt) hlaid.header.length_lt hdigits
    obtain ⟨rfl, rfl⟩ := List.append_inj htail hlength
    have hchunk : chunk = buf := by
      rw [hlaid.header.bytes_eq, hbuf]
    rw [hchunk] at hlaid
    intro di' hdi'
    cases List.mem_cons.mp hdi' with
    | inl heq' =>
      rw [heq']
      exact ⟨buf, valbuf, hserialize, hvalue, hlaid⟩
    | inr hmem => exact ih (by omega) hrest di' hmem

theorem tiles_of_readable {dataItems : List DataItem} {bufs : List Bytes}
    (hbufs : Serialized cfg dataItems bufs)
    (hlt : bufs.flatten.length < 2^63)
    (h : ∀ di ∈ dataItems, di.Fits cfg.toProtocolConfig ∧ di.Readable cfg.toProtocolConfig)
    : Tiles cfg bufs.flatten dataItems := by
  induction hbufs with
  | nil => exact tiles_nil_iff.mpr rfl
  | @cons di buf dataItems bufs hserialize _ ih =>
    rw [List.flatten_cons, List.length_append] at hlt
    obtain ⟨hfits, hreadable⟩ := h di List.mem_cons_self
    obtain ⟨buf', valbuf, hserialize', hle, hlaid⟩ := DataItem.laidOut_of_readable hfits hreadable
    rw [hserialize, Except.ok.injEq] at hserialize'
    rw [← hserialize'] at hle hlaid
    have htail := ih (by omega) (fun di' hdi' => h di' (List.mem_cons_of_mem _ hdi'))
    exact tiles_cons_iff.mpr ⟨buf, valbuf, bufs.flatten, rfl, hlaid (by omega), htail⟩

def LengthFits (cfg : MessageConfig) (dataItems : List DataItem) : Prop :=
  ∀ bufs, Serialized cfg dataItems bufs → bufs.flatten.length < 256^cfg.signalLengthSize.val

def BuildsAndParses (cfg : MessageConfig) (name : String) (dataItems : List DataItem) : Prop :=
  ∃ pm,
    build cfg name dataItems = .ok pm
      ∧ cfg.getSignalId name = .ok (pm.signalId, pm.isSignal)
      ∧ (∃ body,
      HasHeader cfg pm.isSignal pm.msgbuf pm.signalId body.length body
        ∧ pm.headerLength + body.length = pm.msgbuf.length)
      ∧ ∀ pm' logPrefix,
      ∃ rpm,
        ProtocolMessage.parse cfg pm' pm.msgbuf pm.isSignal logPrefix = .ok ("", rpm)
          ∧ rpm.signalId = pm.signalId
          ∧ rpm.dataItems = dataItems

structure Buildable (cfg : MessageConfig) (id : SignalIdType) (dataItems : List DataItem) : Prop where
  idSize : cfg.signalIdSize.val ≤ 4
  id_lt : id.toNat < 256^cfg.signalIdSize.val
  lengthSize : cfg.signalLengthSize.val ≤ 3 ∨ (cfg.signalLengthSize.val = 4 ∧ dataItems = [])
  dataItems : ∀ di ∈ dataItems, di.Fits cfg.toProtocolConfig ∧ di.Readable cfg.toProtocolConfig

variable {name : String} {id : SignalIdType} {isSignal : Bool} {dataItems : List DataItem}

theorem Built.hasHeader {pm : ProtocolMessage} {body : Bytes} (h : Built cfg isSignal id body pm)
    (hid : id.toNat < 256^cfg.signalIdSize.val) (hlength : body.length < 256^cfg.signalLengthSize.val)
    : HasHeader cfg isSignal pm.msgbuf id body.length body := by
  refine ⟨?_, hid, hlength⟩
  rw [h.msgbuf]
  unfold headerStart
  rw [List.append_assoc]

theorem of_build (hname : cfg.getSignalId name = .ok (id, isSignal))
    {pm : ProtocolMessage} (h : build cfg name dataItems = .ok pm)
    : ∃ pm₀ bufs,
        Built cfg isSignal id [] pm₀
          ∧ Serialized cfg dataItems bufs
          ∧ pm₀.addDataItems cfg dataItems = .ok pm
          ∧ ShiftsDefined 4 cfg.signalIdSize
          ∧ id.toNat < 256^cfg.signalIdSize.val
          ∧ ShiftsDefined 4 cfg.signalLengthSize
          ∧ (dataItems ≠ [] → ShiftsDefined 8 cfg.signalLengthSize)
          ∧ ∀ di ∈ dataItems, ∃ diType, cfg.getDataItemValueType di.id = .ok diType := by
  unfold build at h
  cases hheader : ProtocolMessage.addHeader cfg .empty name with
  | error e =>
    rw [hheader] at h
    cases h
  | ok pm₀ =>
    rw [hheader] at h
    obtain ⟨hid, hidLt, hlength⟩ := ProtocolMessage.of_addHeader hname hheader
    have hitems := ProtocolMessage.of_addDataItems h
    obtain ⟨pm₀', hheader', hbuilt⟩ := ProtocolMessage.addHeader_built hname hid hidLt hlength
    cases hheader.symm.trans hheader'
    obtain ⟨bufs, hbufs⟩ := exists_serialized (fun di hdi => (hitems di hdi).1)
    refine ⟨pm₀, bufs, hbuilt, hbufs, h, hid, hidLt, hlength, ?_, fun di hdi => (hitems di hdi).2.2⟩
    intro hne
    obtain ⟨di, hdi⟩ := List.exists_mem_of_ne_nil _ hne
    exact (hitems di hdi).2.1

theorem build_cases (hname : cfg.getSignalId name = .ok (id, isSignal)) (hfits : LengthFits cfg dataItems)
    {pm : ProtocolMessage} (h : build cfg name dataItems = .ok pm)
    : ∃ bufs,
        Serialized cfg dataItems bufs
          ∧ Built cfg isSignal id bufs.flatten pm
          ∧ ShiftsDefined 4 cfg.signalIdSize
          ∧ id.toNat < 256^cfg.signalIdSize.val
          ∧ ShiftsDefined 4 cfg.signalLengthSize
          ∧ (dataItems ≠ [] → ShiftsDefined 8 cfg.signalLengthSize) := by
  obtain ⟨pm₀, bufs, hbuilt₀, hbufs, hadd, hid, hidLt, hlength, hshifts, htypes⟩ := of_build hname h
  obtain ⟨pm', hadd', hbuilt⟩ := ProtocolMessage.addDataItems_built hbufs hbuilt₀
    (known_of_getSignalId hname) hshifts htypes (hfits bufs hbufs)
  cases hadd.symm.trans hadd'
  rw [List.nil_append] at hbuilt
  exact ⟨bufs, hbufs, hbuilt, hid, hidLt, hlength, hshifts⟩

theorem buildable_of_buildsAndParses (hname : cfg.getSignalId name = .ok (id, isSignal))
    (hfits : LengthFits cfg dataItems)
    (h : BuildsAndParses cfg name dataItems)
    : Buildable cfg id dataItems := by
  obtain ⟨pm, hbuild, _, _, hparse⟩ := h
  obtain ⟨bufs, hbufs, hbuilt, hid, hidLt, hlength, hshifts⟩ := build_cases hname hfits hbuild
  have hheader := hbuilt.hasHeader hidLt (hfits bufs hbufs)
  have hlengthSize := (shiftsDefined_four_iff _).mp hlength
  constructor
  . exact (shiftsDefined_four_iff _).mp hid
  . exact hidLt
  -- without data items the length is only written as an `int`
  . by_cases hne : dataItems = []
    . rw [hne]
      have hcases : cfg.signalLengthSize.val ≤ 3 ∨ cfg.signalLengthSize.val = 4 := by omega
      exact hcases.imp (fun hle => hle) (fun heq => ⟨heq, rfl⟩)
    . left
      have hcases := (shiftsDefined_eight_iff _).mp (hshifts hne)
      omega
  . obtain ⟨rpm, hrpm, _, hitems⟩ := hparse .empty ""
    rw [hbuilt.isSignal] at hrpm
    -- the parsing succeeds, so it is the first of the ways in which the loop can end
    have htiles : Tiles cfg bufs.flatten dataItems := by
      rcases @ProtocolMessage.parseDataItems_cases cfg bufs.flatten.length bufs.flatten
          (Nat.le_refl _) [] with
        ⟨dataItems', htiles, _⟩ | ⟨hpast, _⟩ | ⟨e, hthrown, hloop⟩
      . rw [ProtocolMessage.parse_of_tiles hheader (known_of_getSignalId hname) htiles, Except.ok.injEq,
          Prod.mk.injEq] at hrpm
        rw [← hrpm.2] at hitems
        rw [← show dataItems' = dataItems from hitems]
        exact htiles
      . rw [ProtocolMessage.parse_of_runsPastBehind hheader (known_of_getSignalId hname) hpast] at hrpm
        cases hrpm
      . obtain ⟨err, pm'', hfail, hne⟩ :=
          ProtocolMessage.parse_of_thrown hheader (known_of_getSignalId hname) hthrown hloop .empty ""
        rw [hfail, Except.ok.injEq, Prod.mk.injEq] at hrpm
        exact absurd hrpm.1 hne
    intro di hdi
    obtain ⟨buf, valbuf, hserialize, hvalue, hlaid⟩ :=
      laidOut_of_tiles hbufs (length_lt_eight (hfits bufs hbufs)) htiles di hdi
    exact DataItem.fits_and_readable_of_laidOut hserialize hvalue hlaid

theorem buildsAndParses_of_buildable (hname : cfg.getSignalId name = .ok (id, isSignal))
    (hfits : LengthFits cfg dataItems)
    (h : Buildable cfg id dataItems)
    : BuildsAndParses cfg name dataItems := by
  have hknown := known_of_getSignalId hname
  have hid := (shiftsDefined_four_iff _).mpr h.idSize
  have hsize : cfg.signalLengthSize.val ≤ 4 := by
    have hlengthSize := h.lengthSize
    omega
  have hlength := (shiftsDefined_four_iff _).mpr hsize
  have hshifts : dataItems ≠ [] → ShiftsDefined 8 cfg.signalLengthSize := by
    intro hne
    apply (shiftsDefined_eight_iff _).mpr
    left
    exact h.lengthSize.resolve_right (fun hnil => hne hnil.2)
  have htypes : ∀ di ∈ dataItems, ∃ diType, cfg.getDataItemValueType di.id = .ok diType :=
    fun di hdi => ⟨_, (h.dataItems di hdi).1.valueType⟩
  have hserialize : ∀ di ∈ dataItems, ∃ buf, di.serialize cfg.toProtocolConfig = .ok buf := by
    intro di hdi
    obtain ⟨buf, _, hbuf, _⟩ := DataItem.laidOut_of_readable (h.dataItems di hdi).1 (h.dataItems di hdi).2
    exact ⟨buf, hbuf⟩
  obtain ⟨bufs, hbufs⟩ := exists_serialized hserialize
  have hlt := hfits bufs hbufs
  obtain ⟨pm0, hheader, hbuilt0⟩ := ProtocolMessage.addHeader_built hname hid h.id_lt hlength
  obtain ⟨pm, hadd, hbuilt⟩ := ProtocolMessage.addDataItems_built hbufs hbuilt0 hknown hshifts htypes hlt
  rw [List.nil_append] at hbuilt
  have hend : bufs.flatten.length < 2^63 := by
    calc bufs.flatten.length
      _ < 256^cfg.signalLengthSize.val := hlt
      _ ≤ 256^4 := Nat.pow_le_pow_right (by decide) hsize
      _ ≤ 2^63 := by decide
  have htiles := tiles_of_readable hbufs hend h.dataItems
  have hhas := hbuilt.hasHeader h.id_lt hlt
  refine ⟨pm, ?_, ?_, ⟨bufs.flatten, ?_, ?_⟩, ?_⟩
  . unfold build
    rw [hheader]
    exact hadd
  . rw [hbuilt.signalId, hbuilt.isSignal]
    exact hname
  . rw [hbuilt.signalId, hbuilt.isSignal]
    exact hhas
  . rw [hbuilt.headerLength, hbuilt.msgbuf, List.length_append, List.length_append,
      BigEndian.length_digits,
      Nat.add_assoc]
  . intro pm' logPrefix
    rw [hbuilt.isSignal, hbuilt.signalId]
    exact ⟨_, ProtocolMessage.parse_of_tiles hhas hknown htiles pm' logPrefix, rfl, rfl⟩

theorem buildsAndParses_iff (cfg : MessageConfig)
    : (∀ name id isSignal dataItems,
        cfg.getSignalId name = .ok (id, isSignal) → LengthFits cfg dataItems →
          (BuildsAndParses cfg name dataItems ↔ Buildable cfg id dataItems))
        ∧ (∀ isSignal bytes,
        ProtocolMessage.ParsesSoundly cfg isSignal bytes
          ↔
        ¬ ProtocolMessage.RunsAway cfg isSignal bytes
            ∧ ProtocolMessage.LengthRight cfg isSignal bytes) := by
  constructor
  . intro name id isSignal dataItems hname hfits
    constructor
    . exact buildable_of_buildsAndParses hname hfits
    . exact buildsAndParses_of_buildable hname hfits
  . exact ProtocolMessage.parsesSoundly_iff cfg

theorem buildsAndParses_destinationDown
    : BuildsAndParses rfc8175Wire "Destination_Down" [⟨7, .div_dlepmac [2, 0, 0, 0, 0, 1]⟩] := by
  have hname : rfc8175Wire.getSignalId "Destination_Down" = .ok (11, false) := by decide
  have hfits : LengthFits rfc8175Wire [⟨7, .div_dlepmac [2, 0, 0, 0, 0, 1]⟩] := by
    intro bufs hbufs
    cases hbufs with
    | cons hbuf htail =>
      cases htail
      cases hbuf
      decide
  apply ((buildsAndParses_iff rfc8175Wire).1 "Destination_Down" 11 false _ hname hfits).mpr
  constructor
  . decide
  . decide
  . decide
  . intro di hdi
    rw [List.mem_singleton] at hdi
    rw [hdi]
    constructor
    . constructor
      . rfl
      . decide
      . intro x hx
        cases hx
      . intro valbuf hvalue
        cases hvalue
        decide
    . constructor
      . decide
      . decide
      . decide

theorem not_parsesSoundly_discovery
    : ¬ ProtocolMessage.ParsesSoundly rfc8175Wire true [68, 76, 69, 80, 0, 1, 0, 5] := by
  rw [ProtocolMessage.parsesSoundly_iff]
  rintro ⟨_, hright⟩
  have hheader : HasHeader rfc8175Wire true [68, 76, 69, 80, 0, 1, 0, 5] 1 5 [] := by
    constructor
    . decide
    . decide
    . decide
  have hknown : Known rfc8175Wire true 1 := ⟨"Peer_Discovery", by decide⟩
  have hlength := hright 1 5 [] [] hheader hknown (tiles_nil_iff.mpr rfl)
  simp at hlength

section

variable {cfg : MessageConfig}

def Sends (cfg : MessageConfig) (msg : String × List DataItem) (bytes : Bytes) : Prop :=
  ∃ id pm,
    cfg.getSignalId msg.1 = .ok (id, false)
      ∧ LengthFits cfg msg.2
      ∧ Buildable cfg id msg.2
      ∧ build cfg msg.1 msg.2 = .ok pm
      ∧ pm.msgbuf = bytes
      ∧ bytes.length ≤ maxSignalSize

def ReadsAs (cfg : MessageConfig) (msg : String × List DataItem) (bytes : Bytes) : Prop :=
  ∀ pm logPrefix,
  ∃ id rpm,
    cfg.getSignalId msg.1 = .ok (id, false)
      ∧ ProtocolMessage.parse cfg pm bytes false logPrefix = .ok ("", rpm)
      ∧ rpm.signalId = id
      ∧ rpm.dataItems = msg.2

theorem Sends.sessionMessage {msg : String × List DataItem} {bytes : Bytes} (h : Sends cfg msg bytes)
    : ReadsAs cfg msg bytes ∧ ∃ m : SessionMessage cfg, m.bytes = bytes
        ∧ m.bytes.length ≤ maxSignalSize := by
  obtain ⟨id, pm, hname, hfits, hbuildable, hbuild, rfl, hroom⟩ := h
  obtain ⟨pm', hbuild', hname', ⟨body, hheader, _⟩, hparse⟩ :=
    buildsAndParses_of_buildable hname hfits hbuildable
  obtain rfl := Except.ok.inj (hbuild.symm.trans hbuild')
  obtain ⟨rfl, hsession⟩ := Prod.mk.inj (Except.ok.inj (hname.symm.trans hname'))
  rw [← hsession] at hheader hparse
  constructor
  . intro pm' logPrefix
    obtain ⟨rpm, hrpm, hid, hdataItems⟩ := hparse pm' logPrefix
    exact ⟨_, rpm, hname, hrpm, hid, hdataItems⟩
  . have hbytes : pm.msgbuf = SessionMessage.bytes
        ⟨pm.signalId, body, hheader.id_lt, hheader.length_lt⟩ := by
      apply hheader.bytes_eq.trans
      simp [prefixBytes, SessionMessage.bytes, SessionMessage.header]
    exact ⟨_, hbytes.symm, hbytes ▸ hroom⟩

theorem exists_frames {msgs : List (String × List DataItem)} {sent : List Bytes}
    (h : List.Forall₂ (Sends cfg) msgs sent)
    : List.Forall₂ (ReadsAs cfg) msgs sent ∧ ∃ ms : List (SessionMessage cfg),
        Receiver.frames ms = sent ∧ Receiver.Fit ms := by
  induction h with
  | nil => exact ⟨.nil, [], rfl, fun m hm => by cases hm⟩
  | cons hmsg _ ih =>
    obtain ⟨hread, m, hm, hroom⟩ := hmsg.sessionMessage
    obtain ⟨hreads, ms, hms, hfit⟩ := ih
    exact ⟨.cons hread hreads, m :: ms, congrArg₂ List.cons hm hms, List.forall_mem_cons.mpr
      ⟨hroom, hfit⟩⟩

end

/--
From the name and the data items to the parsed message. However the stream is cut, up to now the
receiver has got messages that it reads as the first ones that have been sent, and in the end it
has got them all.
-/
theorem stream_reads {cfg : MessageConfig} {msgs : List (String × List DataItem)}
    {sent chunks : List Bytes}
    (hsent : List.Forall₂ (Sends cfg) msgs sent) (hchunks : chunks.flatten <+: sent.flatten)
    (hdeliverable : Receiver.Deliverable cfg .start chunks)
    : ∃ received r,
        Receiver.run cfg .start chunks = .ok (received, r)
          ∧ received <+: sent
          ∧ List.Forall₂ (ReadsAs cfg) (msgs.take received.length) received
          ∧ (chunks.flatten = sent.flatten → received = sent) := by
  obtain ⟨hreads, ms, rfl, hfit⟩ := exists_frames hsent
  obtain ⟨received, r, hrun, ⟨later, hsplit, _⟩, _, hall⟩ :=
    Receiver.reassembles_of_fit hfit chunks hchunks hdeliverable
  refine ⟨received, r, hrun, ⟨later, hsplit.symm⟩, ?_, fun heq => (hall heq).1⟩
  exact List.forall₂_take_append msgs received later (hsplit ▸ hreads)

theorem stream_reads_heartbeats
    : ∃ received r,
        Receiver.run rfc8175Wire .start [[0, 16, 0, 0, 0]] = .ok (received, r)
          ∧ received <+: [[0, 16, 0, 0], [0, 16, 0, 0]]
          ∧ List.Forall₂ (ReadsAs rfc8175Wire)
              ([("Heartbeat", []), ("Heartbeat", [])].take received.length) received := by
  have hsends : Sends rfc8175Wire ("Heartbeat", []) [0, 16, 0, 0] := by
    refine ⟨16, _, rfl, ?_, ?_, rfl, by decide, by decide⟩
    . intro bufs hbufs
      cases hbufs
      decide
    . exact ⟨by decide, by decide, by decide, fun di hdi => by cases hdi⟩
  obtain ⟨received, r, hrun, hprefix, hreads, _⟩ :=
    @stream_reads rfc8175Wire _ _ [[0, 16, 0, 0, 0]] (.cons hsends (.cons hsends .nil)) (by decide)
      ⟨by decide, fun _ _ => trivial⟩
  exact ⟨received, r, hrun, hprefix, hreads⟩

end Wire
end Dlep
end Emane

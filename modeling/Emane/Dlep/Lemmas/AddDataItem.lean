import Emane.Dlep.Lemmas.WireRoundTrip
import Emane.Lib.Machine

/-!
This module contains what a call that throws leaves behind, and exactly when it leaves the message
alone.
-/

namespace Emane
namespace Dlep
namespace Wire

open Reader

variable {cfg : MessageConfig}

structure Shaped (cfg : MessageConfig) (isSignal : Bool) (id : SignalIdType)
    (lengthbuf body : Bytes) (pm : ProtocolMessage)
    : Prop where
  msgbuf : pm.msgbuf = headerStart cfg isSignal id ++ (lengthbuf ++ body)
  length_lengthbuf : lengthbuf.length = cfg.signalLengthSize.val
  msgLenIndex : pm.msgLenIndex = (headerStart cfg isSignal id).length
  headerLength : pm.headerLength = (headerStart cfg isSignal id).length + cfg.signalLengthSize.val
  signalId : pm.signalId = id
  signalIdInitialized : pm.signalIdInitialized = true
  isSignal : pm.isSignal = isSignal

theorem Built.shaped {isSignal : Bool} {id : SignalIdType} {body : Bytes} {pm : ProtocolMessage}
    (h : Built cfg isSignal id body pm)
    : Shaped cfg isSignal id (BigEndian.digits cfg.signalLengthSize body.length) body pm := by
  exact ⟨h.msgbuf, BigEndian.length_digits _ _, h.msgLenIndex, h.headerLength, h.signalId,
    h.signalIdInitialized, h.isSignal⟩

theorem Built.length_msgbuf {isSignal : Bool} {id : SignalIdType} {body : Bytes} {pm : ProtocolMessage}
    (h : Built cfg isSignal id body pm)
    : pm.msgbuf.length
        = (headerStart cfg isSignal id).length + cfg.signalLengthSize.val + body.length := by
  rw [h.msgbuf, List.length_append, List.length_append, BigEndian.length_digits, Nat.add_assoc]

namespace ProtocolMessage

def bodyLength (pm : ProtocolMessage) : Nat :=
  pm.msgbuf.length - pm.headerLength

def lengthField (cfg : MessageConfig) (pm : ProtocolMessage) : Nat :=
  ((pm.msgbuf.drop pm.msgLenIndex).take cfg.signalLengthSize.val).foldl (BigEndian.shiftIn 64) 0

/--
If the data item has bytes and there is memory for them, then the new length fits in its field,
which has a size for which the fit can be checked, and the id of the data item has a name.
-/
def Accommodates (cfg : MessageConfig) (pm : ProtocolMessage) (di : DataItem) : Prop :=
  ∀ dibuf, di.serialize cfg.toProtocolConfig = .ok dibuf
    → pm.msgbuf.length + dibuf.length ≤ maxVectorSize →
    ShiftsDefined 8 cfg.signalLengthSize
      ∧ pm.bodyLength + dibuf.length < 256^cfg.signalLengthSize.val
      ∧ ∃ diType, cfg.getDataItemValueType di.id = .ok diType

/--
A message with a header, and every message that comes of it by adding data items, whether the
calls throw or not.
-/
inductive Constructing (cfg : MessageConfig) (name : String)
    : List (ProtocolMessage × DataItem) → ProtocolMessage → Prop where
  | header {pm : ProtocolMessage} (h : addHeader cfg empty name = .ok pm) : Constructing cfg name [] pm
  | add {steps : List (ProtocolMessage × DataItem)} {pm : ProtocolMessage}
    (h : Constructing cfg name steps pm) (di : DataItem)
      : Constructing cfg name (steps ++ [(pm, di)]) (addDataItemState cfg pm di).1

theorem updateMessageLengthState_eq_iff {pm pm' : ProtocolMessage}
    : updateMessageLengthState cfg pm = (pm', none) ↔ updateMessageLength cfg pm = .ok pm' := by
  unfold updateMessageLengthState updateMessageLength
  split
  . exact iff_of_false (fun h => by cases h) (fun h => by cases h)
  . cases lift (serializeSized 8 cfg.signalLengthSize (pm.msgbuf.length - pm.headerLength)) with
    | error e => exact iff_of_false (fun h => by cases h) (fun h => by cases h)
    | ok lengthbuf =>
      simp only [overwriteState, bind, Except.bind]
      cases overwrite pm.msgbuf pm.msgLenIndex lengthbuf with
      | error e => exact iff_of_false (fun h => by cases h) (fun h => by cases h)
      | ok msgbuf => simp [pure, Except.pure]

theorem addDataItemState_eq_iff {pm pm' : ProtocolMessage} {di : DataItem}
    (hmemory : ∀ dibuf, di.serialize cfg.toProtocolConfig = .ok dibuf
      → pm.msgbuf.length + dibuf.length ≤ maxVectorSize)
    : addDataItemState cfg pm di = (pm', none) ↔ addDataItem cfg pm di = .ok pm' := by
  unfold addDataItemState addDataItem
  cases hserialize : di.serialize cfg.toProtocolConfig with
  | error e => exact iff_of_false (fun h => by cases h) (fun h => by cases h)
  | ok dibuf =>
    simp only [lift, bind, Except.bind]
    rw [if_neg (Nat.not_lt.mpr (hmemory dibuf hserialize))]
    cases hupdate : updateMessageLength cfg { pm with msgbuf := pm.msgbuf ++ dibuf } with
    | error e =>
      refine iff_of_false (fun h => ?_) (fun h => by cases h)
      split at h
      . cases h
      . next heq => cases hupdate.symm.trans (updateMessageLengthState_eq_iff.mp heq)
    | ok pm₁ =>
      rw [updateMessageLengthState_eq_iff.mpr hupdate]
      cases cfg.getDataItemValueType di.id with
      | error e => exact iff_of_false (fun h => by cases h) (fun h => by cases h)
      | ok diType =>
        cases hname : pm₁.getSignalName cfg with
        | error e => simp [hname]
        | ok name => simp [hname, pure, Except.pure]

section

variable {isSignal : Bool} {id : SignalIdType} {lengthbuf body dibuf : Bytes} {pm : ProtocolMessage}
  {di : DataItem}

theorem bodyLength_eq (h : Shaped cfg isSignal id lengthbuf body pm)
    : pm.bodyLength = body.length := by
  unfold bodyLength
  rw [h.msgbuf, h.headerLength, List.length_append, List.length_append, h.length_lengthbuf]
  omega

theorem lengthField_eq (h : Built cfg isSignal id body pm)
    (hfits : body.length < 256^cfg.signalLengthSize.val)
    : pm.lengthField cfg = body.length := by
  have hsize := cfg.signalLengthSize.property.2
  have htake : (BigEndian.digits cfg.signalLengthSize body.length ++ body).take cfg.signalLengthSize.val
      = BigEndian.digits cfg.signalLengthSize body.length := by
    apply List.take_left'
    rw [BigEndian.length_digits]
  unfold lengthField
  rw [h.msgbuf, h.msgLenIndex, List.drop_left, htake]
  exact BigEndian.foldl_digits hfits (by omega)

theorem shaped_append (h : Shaped cfg isSignal id lengthbuf body pm) (dibuf : Bytes)
    : Shaped cfg isSignal id lengthbuf (body ++ dibuf) { pm with msgbuf := pm.msgbuf ++ dibuf } := by
  refine ⟨?_, h.length_lengthbuf, h.msgLenIndex, h.headerLength, h.signalId,
    h.signalIdInitialized, h.isSignal⟩
  simp only [h.msgbuf, List.append_assoc]

theorem updateMessageLengthState_of_shaped (h : Shaped cfg isSignal id lengthbuf body pm)
    : (∃ e, updateMessageLengthState cfg pm = (pm, some e)
        ∧ serializeSized 8 cfg.signalLengthSize body.length ≠
          .ok (BigEndian.digits cfg.signalLengthSize body.length))
        ∨ ∃ pm', updateMessageLengthState cfg pm = (pm', none) ∧ Built cfg isSignal id body pm'
          ∧ serializeSized 8 cfg.signalLengthSize body.length = .ok
              (BigEndian.digits cfg.signalLengthSize body.length) := by
  have hasserts : ¬ (pm.msgbuf.length < pm.headerLength ∨ pm.msgbuf.length ≤ pm.msgLenIndex) := by
    have hsize := cfg.signalLengthSize.property.1
    rw [h.msgbuf, h.headerLength, h.msgLenIndex, List.length_append, List.length_append,
      h.length_lengthbuf]
    omega
  have htotal : pm.msgbuf.length - pm.headerLength = body.length := bodyLength_eq h
  unfold updateMessageLengthState
  rw [if_neg hasserts, htotal]
  cases hserialize : serializeSized 8 cfg.signalLengthSize body.length with
  | error e =>
    left
    exact ⟨.error e, rfl, by simp⟩
  | ok buf =>
    right
    obtain rfl := eq_digits_of_serializeSized hserialize
    have hover : overwrite pm.msgbuf pm.msgLenIndex (BigEndian.digits cfg.signalLengthSize body.length)
        = .ok (headerStart cfg isSignal id
            ++ (BigEndian.digits cfg.signalLengthSize body.length ++ body)) := by
      rw [h.msgbuf, h.msgLenIndex]
      apply overwrite_eq_ok
      rw [h.length_lengthbuf, BigEndian.length_digits]
    refine ⟨{ pm with msgbuf := headerStart cfg isSignal id
      ++ (BigEndian.digits cfg.signalLengthSize body.length ++ body) }, ?_, ?_, rfl⟩
    . simp only [lift, overwriteState, hover]
    . exact ⟨rfl, h.msgLenIndex, h.headerLength, h.signalId, h.signalIdInitialized, h.isSignal⟩

theorem built_of_addHeader {name : String} (h : addHeader cfg empty name = .ok pm)
    : ∃ isSignal id, Known cfg isSignal id ∧ Built cfg isSignal id [] pm := by
  cases hname : cfg.getSignalId name with
  | error e =>
    unfold addHeader at h
    rw [hname] at h
    cases h
  | ok x =>
    obtain ⟨id, isSignal⟩ := x
    obtain ⟨hid, hfits, hlength⟩ := of_addHeader hname h
    obtain ⟨pm', hpm', hbuilt⟩ := addHeader_built hname hid hfits hlength
    rw [h] at hpm'
    cases hpm'
    exact ⟨isSignal, id, known_of_getSignalId hname, hbuilt⟩

theorem serialize_ne_nil {cfg : ProtocolConfig} (h : di.serialize cfg = .ok dibuf)
    : dibuf ≠ [] := by
  obtain ⟨valbuf, -, rfl, -⟩ := DataItem.serialize_cases h
  have hsize := cfg.dataItemIdSize.property.1
  intro hnil
  have hlength := congrArg List.length hnil
  rw [List.length_append, BigEndian.length_digits] at hlength
  simp only [List.length_nil] at hlength
  omega

theorem serializeSized_length_iff {n : Nat} (hn : n ≤ maxVectorSize)
    : serializeSized 8 cfg.signalLengthSize n = .ok (BigEndian.digits cfg.signalLengthSize n)
        ↔ ShiftsDefined 8 cfg.signalLengthSize ∧ n < 256^cfg.signalLengthSize.val := by
  have hlt : n < 256^8 := by
    unfold maxVectorSize at hn
    omega
  constructor
  . intro h
    exact ⟨shiftsDefined_of_serializeSized h, lt_of_serializeSized hlt h⟩
  . rintro ⟨hshifts, hfits⟩
    exact serializeSized_eq_ok hshifts hlt hfits

theorem serialize_eq_ok {cfg : ProtocolConfig} {valbuf idbuf lengthbuf : Bytes}
    (hvalue : di.value.serialize cfg = .ok valbuf)
    (hid : serializeSized 4 cfg.dataItemIdSize di.id.toNat = .ok idbuf)
    (hlength : serializeSized 8 cfg.dataItemLengthSize valbuf.length = .ok lengthbuf)
    : di.serialize cfg = .ok (idbuf ++ lengthbuf ++ valbuf) := by
  simp only [DataItem.serialize, bind, Except.bind, hvalue, hid, hlength]
  rfl

theorem addDataItemState_cases (h : Shaped cfg isSignal id lengthbuf body pm)
    (hknown : Known cfg isSignal id)
    (di : DataItem)
    : ((∃ e, addDataItemState cfg pm di = (pm, some e))
          ∧ ∀ dibuf, di.serialize cfg.toProtocolConfig = .ok dibuf
            → maxVectorSize < pm.msgbuf.length + dibuf.length)
        ∨ ∃ dibuf, di.serialize cfg.toProtocolConfig = .ok dibuf
          ∧ pm.msgbuf.length + dibuf.length ≤ maxVectorSize
          ∧ ((∃ e, addDataItemState cfg pm di = ({ pm with msgbuf := pm.msgbuf ++ dibuf }, some e)
                ∧ ¬ (ShiftsDefined 8 cfg.signalLengthSize
                  ∧ (body ++ dibuf).length < 256^cfg.signalLengthSize.val))
            ∨ ∃ pm' e, addDataItemState cfg pm di = (pm', e) ∧ Built cfg isSignal id (body ++ dibuf) pm'
                ∧ ShiftsDefined 8 cfg.signalLengthSize
                ∧ (body ++ dibuf).length < 256^cfg.signalLengthSize.val
                ∧ (e = none ↔ ∃ diType, cfg.getDataItemValueType di.id = .ok diType)) := by
  unfold addDataItemState
  cases hserialize : di.serialize cfg.toProtocolConfig with
  | error e =>
    left
    exact ⟨⟨.error e, rfl⟩, fun dibuf hdibuf => by cases hdibuf⟩
  | ok dibuf =>
    simp only [lift]
    by_cases hroom : maxVectorSize < pm.msgbuf.length + dibuf.length
    . left
      rw [if_pos hroom]
      exact ⟨⟨_, rfl⟩, fun dibuf' hdibuf' => by obtain rfl := Except.ok.inj hdibuf'; exact hroom⟩
    . right
      rw [if_neg hroom]
      have hle : (body ++ dibuf).length ≤ maxVectorSize := by
        rw [h.msgbuf, List.length_append, List.length_append] at hroom
        rw [List.length_append]
        omega
      refine ⟨dibuf, rfl, Nat.not_lt.mp hroom, ?_⟩
      rcases updateMessageLengthState_of_shaped
        (shaped_append h dibuf) with ⟨e, hupdate, hnot⟩ | ⟨pm', hupdate, hbuilt, hfits⟩
      . left
        rw [hupdate]
        refine ⟨e, rfl, ?_⟩
        rwa [← serializeSized_length_iff hle]
      . right
        rw [hupdate]
        obtain ⟨hshifts, hlt⟩ := (serializeSized_length_iff hle).mp hfits
        obtain ⟨signalName, hsignalName⟩ := getSignalName_eq_ok hbuilt hknown
        simp only [hsignalName]
        cases htype : cfg.getDataItemValueType di.id with
        | error e => exact ⟨pm', some (.error e), rfl, hbuilt, hshifts, hlt, by simp⟩
        | ok diType => exact ⟨pm', none, rfl, hbuilt, hshifts, hlt, by simp⟩

theorem built_of_addDataItem {pm' : ProtocolMessage} (h : Built cfg isSignal id body pm)
    (hknown : Known cfg isSignal id)
    (hserialize : di.serialize cfg.toProtocolConfig = .ok dibuf)
    (hmemory : pm.msgbuf.length + dibuf.length ≤ maxVectorSize)
    (hadd : addDataItem cfg pm di = .ok pm')
    : Built cfg isSignal id (body ++ dibuf) pm'
        ∧ (body ++ dibuf).length < 256^cfg.signalLengthSize.val := by
  have hstate : addDataItemState cfg pm di = (pm', none) := by
    refine (addDataItemState_eq_iff (fun dibuf' hserialize' => ?_)).mpr hadd
    rwa [← Except.ok.inj (hserialize.symm.trans hserialize')]
  rcases addDataItemState_cases h.shaped hknown di with ⟨⟨e, herror⟩, -⟩
    | ⟨dibuf', hserialize', -, ⟨e, herror, -⟩ | ⟨pm₁, e, hpm₁, hbuilt, -, hfits, -⟩⟩
  . cases hstate.symm.trans herror
  . cases hstate.symm.trans herror
  . cases hserialize.symm.trans hserialize'
    cases hstate.symm.trans hpm₁
    exact ⟨hbuilt, hfits⟩

theorem length_lt_of_addDataItems {pm' : ProtocolMessage} {dataItems : List DataItem} {bufs : List Bytes}
    (hbufs : Serialized cfg dataItems bufs) (h : Built cfg isSignal id body pm)
    (hknown : Known cfg isSignal id)
    (hmemory : pm.msgbuf.length + bufs.flatten.length ≤ maxVectorSize)
    (hadd : addDataItems cfg pm dataItems = .ok pm') (hne : dataItems ≠ [])
    : (body ++ bufs.flatten).length < 256^cfg.signalLengthSize.val := by
  induction hbufs generalizing pm body with
  | nil => exact absurd rfl hne
  | @cons di buf dataItems bufs hserialize hbufs ih =>
    rw [List.flatten_cons, List.length_append] at hmemory
    rw [List.flatten_cons, ← List.append_assoc]
    unfold addDataItems at hadd ih
    rw [List.foldlM_cons] at hadd
    cases hfirst : addDataItem cfg pm di with
    | error e =>
      rw [hfirst] at hadd
      cases hadd
    | ok pm₁ =>
      rw [hfirst] at hadd
      obtain ⟨hbuilt, hfits⟩ := built_of_addDataItem h hknown hserialize (by omega) hfirst
      by_cases hrest : dataItems = []
      . subst hrest
        cases hbufs
        rwa [List.flatten_nil, List.append_nil]
      . refine ih hbuilt ?_ hadd hrest
        have hlength := h.length_msgbuf
        rw [hbuilt.length_msgbuf, List.length_append]
        omega

structure Carried (cfg : MessageConfig) (id : SignalIdType) (dataItems : List DataItem)
    (bufs : List Bytes)
    : Prop where
  idSize : ShiftsDefined 4 cfg.signalIdSize
  id_lt : id.toNat < 256^cfg.signalIdSize.val
  lengthSize : ShiftsDefined 4 cfg.signalLengthSize
  serialized : Serialized cfg dataItems bufs
  shifts : dataItems ≠ [] → ShiftsDefined 8 cfg.signalLengthSize
  length : dataItems ≠ [] → bufs.flatten.length < 256^cfg.signalLengthSize.val
  types : ∀ di ∈ dataItems, ∃ diType, cfg.getDataItemValueType di.id = .ok diType

theorem exists_build_iff {name : String} {dataItems : List DataItem}
    (hname : cfg.getSignalId name = .ok (id, isSignal))
    (hmemory : ∀ bufs, Serialized cfg dataItems bufs
      → (headerStart cfg isSignal id).length + cfg.signalLengthSize.val + bufs.flatten.length
        ≤ maxVectorSize)
    : (∃ pm, build cfg name dataItems = .ok pm) ↔ ∃ bufs, Carried cfg id dataItems bufs := by
  have hknown := known_of_getSignalId hname
  constructor
  . rintro ⟨pm, hbuild⟩
    obtain ⟨pm₀, bufs, hbuilt, hbufs, hadd, hid, hidLt, hlength, hshifts, htypes⟩ := of_build hname hbuild
    refine ⟨bufs, hid, hidLt, hlength, hbufs, hshifts, ?_, htypes⟩
    refine length_lt_of_addDataItems hbufs hbuilt hknown ?_ hadd
    rw [hbuilt.length_msgbuf]
    exact hmemory bufs hbufs
  . rintro ⟨bufs, h⟩
    obtain ⟨pm₀, hheader, hbuilt⟩ := addHeader_built hname h.idSize h.id_lt h.lengthSize
    have hfits : bufs.flatten.length < 256^cfg.signalLengthSize.val := by
      by_cases hne : dataItems = []
      . subst hne
        cases h.serialized
        exact zero_lt _
      . exact h.length hne
    obtain ⟨pm, hadd, -⟩ := addDataItems_built h.serialized hbuilt hknown h.shifts h.types hfits
    refine ⟨pm, ?_⟩
    unfold build
    rw [hheader]
    exact hadd

theorem unchanged_iff (h : Shaped cfg isSignal id lengthbuf body pm)
    (hknown : Known cfg isSignal id) (di : DataItem)
    : ((addDataItemState cfg pm di).2 ≠ none → (addDataItemState cfg pm di).1 = pm)
        ↔ Accommodates cfg pm di := by
  have hbody := bodyLength_eq h
  rcases addDataItemState_cases h hknown di with ⟨⟨e, hstate⟩, hroom⟩ | ⟨dibuf, hserialize, hroom, hcases⟩
  . rw [hstate]
    refine ⟨fun _ dibuf hdibuf hle => ?_, fun _ _ => rfl⟩
    have hlt := hroom dibuf hdibuf
    omega
  . have hne := serialize_ne_nil hserialize
    have hpos := List.length_pos_iff.mpr hne
    rcases hcases with ⟨e, hstate, hnot⟩ | ⟨pm', e, hstate, hbuilt, hshifts, hlt, hknownId⟩
    . rw [hstate]
      constructor
      . intro hunchanged
        have hbuf := congrArg (fun pm => pm.msgbuf.length) (hunchanged (by simp))
        simp only [List.length_append] at hbuf
        omega
      . intro haccommodates
        obtain ⟨hshifts, hfits, -⟩ := haccommodates dibuf hserialize hroom
        rw [List.length_append, ← hbody] at hnot
        exact absurd ⟨hshifts, hfits⟩ hnot
    . rw [hstate]
      constructor
      . intro hunchanged dibuf' hdibuf' hle
        rw [hserialize] at hdibuf'
        cases hdibuf'
        rw [List.length_append, ← hbody] at hlt
        refine ⟨hshifts, hlt, hknownId.mp ?_⟩
        by_contra hsome
        have hbuf := congrArg (fun pm => pm.msgbuf.length) (hunchanged hsome)
        simp only [hbuilt.msgbuf, h.msgbuf, List.length_append, h.length_lengthbuf,
          BigEndian.length_digits] at hbuf
        omega
      . intro haccommodates hsome
        obtain ⟨-, -, hid⟩ := haccommodates dibuf hserialize hroom
        exact absurd (hknownId.mpr hid) hsome

theorem Constructing.shaped {name : String} {steps : List (ProtocolMessage × DataItem)}
    (h : Constructing cfg name steps pm)
    : ∃ isSignal id lengthbuf body, Known cfg isSignal id ∧ Shaped cfg isSignal id lengthbuf body pm := by
  induction h with
  | header hheader =>
    obtain ⟨isSignal, id, hknown, hbuilt⟩ := built_of_addHeader hheader
    exact ⟨isSignal, id, _, [], hknown, hbuilt.shaped⟩
  | add _ di ih =>
    obtain ⟨isSignal, id, lengthbuf, body, hknown, hshaped⟩ := ih
    rcases addDataItemState_cases hshaped hknown di with ⟨⟨e, hstate⟩, -⟩ | ⟨dibuf, -, -,
      ⟨e, hstate, -⟩ | ⟨pm', e, hstate, hbuilt, -⟩⟩
    . rw [hstate]
      exact ⟨isSignal, id, lengthbuf, body, hknown, hshaped⟩
    . rw [hstate]
      exact ⟨isSignal, id, lengthbuf, body ++ dibuf, hknown, shaped_append hshaped dibuf⟩
    . rw [hstate]
      exact ⟨isSignal, id, _, body ++ dibuf, hknown, hbuilt.shaped⟩

theorem Constructing.built {name : String} {steps : List (ProtocolMessage × DataItem)}
    (h : Constructing cfg name steps pm)
    (hsteps : ∀ s ∈ steps, Accommodates cfg s.1 s.2)
    : ∃ isSignal id body, Known cfg isSignal id ∧ Built cfg isSignal id body pm
        ∧ body.length < 256^cfg.signalLengthSize.val := by
  induction h with
  | header hheader =>
    obtain ⟨isSignal, id, hknown, hbuilt⟩ := built_of_addHeader hheader
    exact ⟨isSignal, id, [], hknown, hbuilt, zero_lt cfg.signalLengthSize⟩
  | @add steps pm _ di ih =>
    obtain ⟨isSignal, id, body, hknown, hbuilt, hlt⟩ := ih
      (fun s hs => hsteps s (List.mem_append_left _ hs))
    have haccommodates := hsteps (pm, di) (by simp)
    rcases addDataItemState_cases hbuilt.shaped hknown di with ⟨⟨e, hstate⟩, -⟩ | ⟨dibuf,
      hserialize, hroom, hcases⟩
    . rw [hstate]
      exact ⟨isSignal, id, body, hknown, hbuilt, hlt⟩
    . rcases hcases with ⟨e, hstate, hnot⟩ | ⟨pm', e, hstate, hbuilt', -, hlt', -⟩
      . obtain ⟨hshifts, hfits, -⟩ := haccommodates dibuf hserialize hroom
        rw [bodyLength_eq hbuilt.shaped, ← List.length_append] at hfits
        exact absurd ⟨hshifts, hfits⟩ hnot
      . rw [hstate]
        exact ⟨isSignal, id, body ++ dibuf, hknown, hbuilt', hlt'⟩

end

theorem addDataItem_all_or_nothing (cfg : MessageConfig) (name : String)
    {steps : List (ProtocolMessage × DataItem)}
    {pm : ProtocolMessage} (h : Constructing cfg name steps pm)
    : (∀ di, ((addDataItemState cfg pm di).2 ≠ none → (addDataItemState cfg pm di).1 = pm)
        ↔ Accommodates cfg pm di)
        ∧ ((∀ s ∈ steps, Accommodates cfg s.1 s.2) → pm.lengthField cfg = pm.bodyLength) := by
  constructor
  . intro di
    obtain ⟨isSignal, id, lengthbuf, body, hknown, hshaped⟩ := h.shaped
    exact unchanged_iff hshaped hknown di
  . intro hsteps
    obtain ⟨isSignal, id, body, -, hbuilt, hlt⟩ := h.built hsteps
    rw [lengthField_eq hbuilt hlt, bodyLength_eq hbuilt.shaped]

def sessionUpdateHeader : ProtocolMessage where
  msgbuf := [0, 3, 0, 0]
  msgLenIndex := 2
  headerLength := 4
  signalId := 3
  signalIdInitialized := true
  isSignal := false
  dataItems := []

theorem addDataItem_all_or_nothing_latency
    : lengthField rfc8175Wire (addDataItemState rfc8175Wire sessionUpdateHeader ⟨16, .div_u64 40⟩).1
        = bodyLength (addDataItemState rfc8175Wire sessionUpdateHeader ⟨16, .div_u64 40⟩).1 := by
  have hheader : Constructing rfc8175Wire "Session_Update" [] sessionUpdateHeader :=
    Constructing.header rfl
  refine (addDataItem_all_or_nothing rfc8175Wire "Session_Update" (hheader.add ⟨16, .div_u64 40⟩)).2 ?_
  intro s hs dibuf hdibuf hle
  obtain rfl := List.mem_singleton.mp hs
  have hserialize : DataItem.serialize rfc8175Wire.toProtocolConfig ⟨16, .div_u64 40⟩
      = .ok [0, 16, 0, 8, 0, 0, 0, 0, 0, 0, 0, 40] := by
    rfl
  cases hdibuf
  exact ⟨by decide, by decide, .div_u64, rfl⟩

theorem not_addDataItem_all_or_nothing
    : ∃ di, (addDataItemState rfc8175Wire sessionUpdateHeader di).2 ≠ none
        ∧ (addDataItemState rfc8175Wire sessionUpdateHeader di).1.msgbuf
            ≠ sessionUpdateHeader.msgbuf := by
  have hheader : Constructing rfc8175Wire "Session_Update" [] sessionUpdateHeader :=
    Constructing.header rfl
  obtain ⟨isSignal, id, lengthbuf, body, hknown, hshaped⟩ := hheader.shaped
  let di : DataItem := ⟨4, .div_u8_string 0 (List.replicate 65531 120)⟩
  let valbuf := serializeU8 0 ++ List.replicate 65531 120
  have hvalbuf : valbuf.length = 65532 := by
    rw [List.length_append, List.length_replicate]
    rfl
  have hlength : serializeSized 8 rfc8175Wire.dataItemLengthSize valbuf.length
      = .ok (BigEndian.digits 2 valbuf.length) := by
    rw [hvalbuf]
    exact serializeSized_eq_ok (by decide) (by decide) (by decide)
  have hid : serializeSized 4 rfc8175Wire.dataItemIdSize (UInt32.toNat 4) = .ok [0, 4] := by
    rfl
  have hserialize : di.serialize rfc8175Wire.toProtocolConfig = .ok
      ([0, 4] ++ BigEndian.digits 2 valbuf.length ++ valbuf) :=
    serialize_eq_ok rfl hid hlength
  have hdibuf : ([0, 4] ++ BigEndian.digits 2 valbuf.length ++ valbuf).length = 65536 := by
    rw [List.length_append, List.length_append, BigEndian.length_digits, hvalbuf]
    rfl
  refine ⟨di, ?_⟩
  rcases addDataItemState_cases hshaped hknown di with ⟨-, hroom⟩ | ⟨dibuf, hdi, -,
    ⟨e, hstate, -⟩ | ⟨pm', e, -, -, -, hlt, -⟩⟩
  . have hfull := hroom _ hserialize
    rw [hdibuf] at hfull
    exact absurd hfull (by decide)
  . obtain rfl := Except.ok.inj (hserialize.symm.trans hdi)
    rw [hstate]
    refine ⟨by simp, ?_⟩
    intro hsame
    have hlonger := congrArg List.length hsame
    rw [List.length_append, hdibuf] at hlonger
    exact absurd hlonger (by decide)
  . -- 65536 bytes are too many for a length of two bytes
    obtain rfl := Except.ok.inj (hserialize.symm.trans hdi)
    rw [List.length_append, hdibuf] at hlt
    have hsize : 256^rfc8175Wire.signalLengthSize.val = 65536 := rfl
    omega

end ProtocolMessage
end Wire
end Dlep
end Emane

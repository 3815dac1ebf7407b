import Emane.Dlep.Impl.Validate
import Emane.Dlep.Lemmas.ProtocolConfigImpl
import Emane.Dlep.Lemmas.Wire

/-!
This module contains what the validation of a message accepts, and that it comes to an end with
every message that has been parsed.
-/

namespace Emane
namespace Dlep

open ProtocolConfigImpl

namespace DataItemValue

def subnetMask : DataItemValue → Option (UInt8 × UInt8)
  | div_ipv4_u8 _ field2 => some (field2, 32)
  | div_ipv6_u8 _ field2 => some (field2, 128)
  | div_u8_ipv4_u8 _ _ field3 => some (field3, 32)
  | div_u8_ipv6_u8 _ _ field3 => some (field3, 128)
  | _ => none

def percentage : DataItemValue → Option UInt8
  | div_u8 value => some value
  | _ => none

def statusCode : DataItemValue → Option UInt8
  | div_u8 value => some value
  | div_u8_string field1 _ => some field1
  | _ => none

structure Valid (cfg : ProtocolConfigImpl) (diInfo : ProtocolConfigImpl.DataItemInfo)
    (value : DataItemValue) : Prop where
  type : diInfo.valueType = value.getType
  flags : ∀ id, DataItem.ipFlags ⟨id, value⟩ ≤ 1
  mask : ∀ length max, value.subnetMask = some (length, max) → length ≤ max
  percent : diInfo.units = some .percentage → ∀ percent, value.percentage = some percent → percent ≤ 100
  status : diInfo.name = "Status" → (diInfo.units = some .percentage → value.percentage = none) →
    ∀ code, value.statusCode = some code → (cfg.statusCodeMap.left (UInt32.ofNat code.toNat)).isSome

variable {cfg : ProtocolConfigImpl}

theorem validateAddDrop_eq_empty_iff {field : UInt8} : validateAddDrop field = "" ↔ field ≤ 1 := by
  unfold validateAddDrop
  split
  . next h =>
    constructor
    . intro hempty
      simp at hempty
    . intro hle
      exact absurd h (UInt8.not_lt.mpr hle)
  . next h => simpa using UInt8.not_lt.mp h

theorem validateSubnetMask_eq_empty_iff {field max : UInt8}
    : validateSubnetMask field max = "" ↔ field ≤ max := by
  unfold validateSubnetMask
  split
  . next h =>
    constructor
    . intro hempty
      simp at hempty
    . intro hle
      exact absurd h (UInt8.not_lt.mpr hle)
  . next h => simpa using UInt8.not_lt.mp h

theorem validateStatus_eq_empty_iff {statusId : StatusCodeIdType}
    : validateStatus cfg statusId = "" ↔ (cfg.statusCodeMap.left statusId).isSome := by
  unfold validateStatus getStatusCodeName
  cases cfg.statusCodeMap.left statusId with
  | none => simp
  | some name => simp

theorem validate_u8_eq_empty_iff {diInfo : ProtocolConfigImpl.DataItemInfo} {value : UInt8}
    : (div_u8 value).validate cfg diInfo = ""
        ↔
      (diInfo.units = some .percentage → value ≤ 100)
        ∧ (diInfo.name = "Status" → diInfo.units ≠ some .percentage →
          (cfg.statusCodeMap.left (UInt32.ofNat value.toNat)).isSome) := by
  simp only [validate]
  by_cases hunits : diInfo.units = some .percentage
  . have hlt : value > 100 ↔ ¬ value ≤ 100 := UInt8.not_le.symm
    by_cases hle : value ≤ 100
    . simp [hunits, hlt, hle]
    . simp [hunits, hlt, hle]
  . rw [if_neg hunits]
    by_cases hname : diInfo.name = "Status"
    . rw [if_pos hname, validateStatus_eq_empty_iff]
      simp [hunits, hname]
    . simp [hunits, hname]

theorem validate_eq_empty_iff {diInfo : ProtocolConfigImpl.DataItemInfo} {value : DataItemValue}
    (htype : diInfo.valueType = value.getType)
    : value.validate cfg diInfo = "" ↔ value.Valid cfg diInfo := by
  have hvalid : value.Valid cfg diInfo
      ↔ (∀ id, DataItem.ipFlags ⟨id, value⟩ ≤ 1)
        ∧ (∀ length max, value.subnetMask = some (length, max) → length ≤ max)
        ∧ (diInfo.units = some .percentage → ∀ percent, value.percentage = some percent → percent ≤ 100)
        ∧ (diInfo.name = "Status" → (diInfo.units = some .percentage → value.percentage = none) →
          ∀ code, value.statusCode = some code
              → (cfg.statusCodeMap.left (UInt32.ofNat code.toNat)).isSome) := by
    constructor
    . rintro ⟨-, hflags, hmask, hpercent, hstatus⟩
      exact ⟨hflags, hmask, hpercent, hstatus⟩
    . rintro ⟨hflags, hmask, hpercent, hstatus⟩
      exact ⟨htype, hflags, hmask, hpercent, hstatus⟩
  rw [hvalid]
  clear hvalid htype
  cases value with
  | div_u8 value =>
    rw [validate_u8_eq_empty_iff]
    simp [DataItem.ipFlags, subnetMask, percentage, statusCode]
  | div_u8_string field1 field2 =>
    by_cases hname : diInfo.name = "Status"
    . simp [validate, hname, validateStatus_eq_empty_iff, DataItem.ipFlags, subnetMask,
        percentage, statusCode]
    . simp [validate, hname, DataItem.ipFlags, subnetMask, percentage, statusCode]
  | div_u8_ipv4 field1 field2 =>
    simp [validate, validateAddDrop_eq_empty_iff, DataItem.ipFlags, subnetMask, percentage, statusCode]
  | div_u8_ipv6 field1 field2 =>
    simp [validate, validateAddDrop_eq_empty_iff, DataItem.ipFlags, subnetMask, percentage, statusCode]
  | div_ipv4_u8 field1 field2 =>
    simp [validate, validateSubnetMask_eq_empty_iff, DataItem.ipFlags, subnetMask, percentage, statusCode]
  | div_ipv6_u8 field1 field2 =>
    simp [validate, validateSubnetMask_eq_empty_iff, DataItem.ipFlags, subnetMask, percentage, statusCode]
  | div_u8_ipv4_u8 field1 field2 field3 =>
    by_cases hflag : validateAddDrop field1 = ""
    . have hle := validateAddDrop_eq_empty_iff.mp hflag
      simp [validate, hflag, hle, validateSubnetMask_eq_empty_iff, DataItem.ipFlags, subnetMask,
        percentage, statusCode]
    . have hnot : ¬ field1 ≤ 1 := fun hle => hflag (validateAddDrop_eq_empty_iff.mpr hle)
      simp [validate, hflag, hnot, DataItem.ipFlags]
  | div_u8_ipv6_u8 field1 field2 field3 =>
    by_cases hflag : validateAddDrop field1 = ""
    . have hle := validateAddDrop_eq_empty_iff.mp hflag
      simp [validate, hflag, hle, validateSubnetMask_eq_empty_iff, DataItem.ipFlags, subnetMask,
        percentage, statusCode]
    . have hnot : ¬ field1 ≤ 1 := fun hle => hflag (validateAddDrop_eq_empty_iff.mpr hle)
      simp [validate, hflag, hnot, DataItem.ipFlags]
  | _ => simp [validate, DataItem.ipFlags, subnetMask, percentage, statusCode]

end DataItemValue

namespace DataItem

variable {cfg : ProtocolConfigImpl} {di : DataItem}

def Valid (cfg : ProtocolConfigImpl) (di : DataItem) : Prop :=
  ∃ diInfo, cfg.dataItemInfoMap.find? di.id = some diInfo ∧ di.value.Valid cfg diInfo

theorem validate_of_sound (h : Sound cfg) (hknown : (cfg.dataItemInfoMap.find? di.id).isSome)
    : ∃ err, di.validate cfg = .ok err ∧ (err = "" ↔ di.Valid cfg) := by
  obtain ⟨diInfo, hinfo⟩ := Option.isSome_iff_exists.mp hknown
  have hleft := h.dataItems.left_of_find? hinfo
  have hname : cfg.getDataItemName di.id = .ok diInfo.name := by
    unfold getDataItemName
    rw [hleft]
  obtain ⟨diInfo', hinfo', hfind⟩ := h.dataItems.find?_name (IdNameMap.right_iff_left.mpr hleft)
  obtain rfl := Option.some.inj (hinfo.symm.trans hinfo')
  have hget : cfg.getDataItemInfo diInfo.name = .ok diInfo := by
    unfold getDataItemInfo
    rw [hfind]
  have hvalid : di.Valid cfg ↔ di.value.Valid cfg diInfo := by
    constructor
    . rintro ⟨_, heq, hvalid⟩
      obtain rfl := Option.some.inj (hinfo.symm.trans heq)
      exact hvalid
    . exact fun hvalid => ⟨diInfo, hinfo, hvalid⟩
  unfold validate
  simp only [hname, hget, bind, Except.bind, pure, Except.pure]
  by_cases htype : diInfo.valueType = di.value.getType
  . rw [if_neg (not_not.mpr htype), hvalid, ← DataItemValue.validate_eq_empty_iff htype]
    refine ⟨_, rfl, ?_⟩
    split
    . next hne => simp [hne]
    . exact Iff.rfl
  . rw [if_pos htype]
    refine ⟨_, rfl, ?_⟩
    constructor
    . intro hempty
      simp at hempty
    . intro hdi
      exact absurd (hvalid.mp hdi).type htype

end DataItem
namespace ProtocolConfigImpl

def Occurs.Admits (occurs : Occurs) (n : UInt32) : Prop :=
  match occurs with
  | one => n = 1
  | zeroOrOne => n ≤ 1
  | oneOrMore => 1 ≤ n
  | zeroOrMore => True

end ProtocolConfigImpl

namespace Wire
namespace ProtocolMessage

variable {cfg : ProtocolConfigImpl} {pm : ProtocolMessage}

def occurrences (dataItems : List DataItem) (id : DataItemIdType) : Nat :=
  dataItems.countP (fun di => di.id = id)

variable {dataItems : List DataItem}

theorem occurrences_eq_zero_iff {id : DataItemIdType}
    : occurrences dataItems id = 0 ↔ ∀ di ∈ dataItems, di.id ≠ id := by
  unfold occurrences
  simp

theorem find?_foldl_upsert (dataItems : List DataItem) (id : DataItemIdType)
    (diOccurrences : SortedMap DataItemIdType UInt32)
    : (dataItems.foldl (fun diOccurrences di => diOccurrences.upsert di.id 1 (fun n => n + 1))
        diOccurrences).find? id
        =
      if occurrences dataItems id = 0 then
        diOccurrences.find? id
      else
        some ((diOccurrences.find? id).getD 0 + UInt32.ofNat (occurrences dataItems id)) := by
  induction dataItems generalizing diOccurrences with
  | nil => rfl
  | cons di dataItems ih =>
    rw [List.foldl_cons, ih, SortedMap.find?_upsert]
    unfold occurrences
    rw [List.countP_cons]
    by_cases hid : id = di.id
    . subst hid
      have hfirst : ((diOccurrences.find? di.id).map (fun n => n + 1)).getD 1
          = (diOccurrences.find? di.id).getD 0 + 1 := by
        cases diOccurrences.find? di.id with
        | none => rfl
        | some n => rfl
      simp only [if_true, decide_true, hfirst]
      rw [if_neg (show List.countP (fun di_1 => decide (di_1.id = di.id)) dataItems + 1 ≠ 0 by omega)]
      split
      . next hzero => rw [hzero]; rfl
      . rw [Option.getD_some, UInt32.add_assoc, UInt32.add_comm 1, ← UInt32.ofNat_one, ← UInt32.ofNat_add]
    . simp [hid, Ne.symm hid]

theorem find?_countOccurrences (dataItems : List DataItem) (id : DataItemIdType)
    : (countOccurrences dataItems).find? id
        = if occurrences dataItems id = 0 then none else some
            (UInt32.ofNat (occurrences dataItems id)) := by
  unfold countOccurrences
  rw [find?_foldl_upsert]
  split
  . rfl
  . rw [SortedMap.find?_empty, Option.getD_none, UInt32.zero_add]

theorem occursError_eq_empty_iff {occurs : Occurs} {diName : String} {actual : UInt32}
    : occursError occurs diName actual = "" ↔ occurs.Admits actual := by
  cases occurs with
  | one =>
    show (if actual ≠ 1 then _ else "") = "" ↔ actual = 1
    by_cases h : actual = 1
    . simp [h]
    . simp [h]
  | zeroOrOne =>
    show (if actual > 1 then _ else "") = "" ↔ actual ≤ 1
    by_cases h : actual ≤ 1
    . simp [h]
    . simp [h]
  | oneOrMore =>
    show (if actual < 1 then _ else "") = "" ↔ 1 ≤ actual
    by_cases h : 1 ≤ actual
    . rw [if_neg (UInt32.not_lt.mpr h)]
      simp [h]
    . rw [if_pos (UInt32.not_le.mp h)]
      simp [h]
  | zeroOrMore =>
    show "" = "" ↔ True
    simp

theorem checkOccurrences_cases {dataItems : List DataItemForSignal}
    (hnamed : ∀ difs ∈ dataItems, (cfg.dataItemMap.left difs.id).isSome)
    (diOccurrences : SortedMap DataItemIdType UInt32)
    : ∃ err diOccurrences', checkOccurrences cfg dataItems diOccurrences = .ok (err, diOccurrences')
        ∧ ((dataItems.map (fun difs => difs.id)).Nodup →
          (err = "" ↔ ∀ difs ∈ dataItems, difs.occurs.Admits ((diOccurrences.find? difs.id).getD 0)))
        ∧ (err = "" → ∀ id, diOccurrences'.find? id
          = if id ∈ dataItems.map (fun difs => difs.id) then none else diOccurrences.find? id) := by
  induction dataItems generalizing diOccurrences with
  | nil => exact ⟨"", diOccurrences, rfl, fun _ => by simp, fun _ id => by simp⟩
  | cons difs dataItems ih =>
    obtain ⟨diName, hname⟩ := Option.isSome_iff_exists.mp (hnamed difs List.mem_cons_self)
    have hget : cfg.getDataItemName difs.id = .ok diName := by
      unfold getDataItemName
      rw [hname]
    have hhead := @occursError_eq_empty_iff difs.occurs diName ((diOccurrences.find? difs.id).getD 0)
    simp only [checkOccurrences, hget, bind, Except.bind]
    by_cases herr : occursError difs.occurs diName ((diOccurrences.find? difs.id).getD 0) = ""
    . rw [if_neg (not_not.mpr herr)]
      obtain ⟨err, diOccurrences', hcheck, hiff, hrest⟩ :=
        ih (fun difs hdifs => hnamed difs (List.mem_cons_of_mem _ hdifs)) (diOccurrences.erase difs.id)
      refine ⟨err, diOccurrences', hcheck, ?_, ?_⟩
      . intro hnodup
        rw [List.map_cons, List.nodup_cons] at hnodup
        rw [hiff hnodup.2, List.forall_mem_cons]
        constructor
        . intro htail
          refine ⟨hhead.mp herr, fun other hother => ?_⟩
          have hne : other.id ≠ difs.id := fun heq => hnodup.1 (heq ▸ List.mem_map_of_mem hother)
          have hadmits := htail other hother
          rwa [SortedMap.find?_erase, if_neg hne] at hadmits
        . rintro ⟨-, htail⟩ other hother
          have hne : other.id ≠ difs.id := fun heq => hnodup.1 (heq ▸ List.mem_map_of_mem hother)
          rw [SortedMap.find?_erase, if_neg hne]
          exact htail other hother
      . intro hempty id
        rw [hrest hempty, SortedMap.find?_erase, List.map_cons]
        by_cases hid : id = difs.id
        . simp [hid]
        . simp [hid]
    . rw [if_pos herr]
      refine ⟨_, _, rfl, ?_, fun hempty => absurd hempty herr⟩
      intro _
      constructor
      . exact fun hempty => absurd hempty herr
      . intro hall
        exact hhead.mpr (hall difs List.mem_cons_self)

theorem exists_unexpectedDataItems {diOccurrences : SortedMap DataItemIdType UInt32}
    (hnamed : ∀ id, (diOccurrences.find? id).isSome → (cfg.dataItemMap.left id).isSome)
    : ∃ err, unexpectedDataItems cfg diOccurrences = .ok err ∧ err ≠ "" := by
  have hall : ∀ kvpair ∈ diOccurrences.toList, (cfg.dataItemMap.left kvpair.1).isSome := by
    intro kvpair hmem
    apply hnamed
    rw [(SortedMap.find?_eq_some_iff diOccurrences kvpair.1 kvpair.2).mpr hmem]
    rfl
  have hloop : Ensures (unexpectedDataItems cfg diOccurrences) (fun err => err ≠ "")
      (fun _ => False) := by
    refine Ensures.foldlM ?_ (by decide)
    intro err kvpair hmem hne
    obtain ⟨diName, hname⟩ := Option.isSome_iff_exists.mp (hall kvpair hmem)
    have hget : cfg.getDataItemName kvpair.1 = .ok diName := by
      unfold getDataItemName
      rw [hname]
    apply Ensures.bind_of_eq hget
    apply Ensures.ok
    simp
  cases hresult : unexpectedDataItems cfg diOccurrences with
  | ok err => exact ⟨err, rfl, hloop.of_ok hresult⟩
  | error e => exact (hloop.of_error hresult).elim

theorem toList_ne_nil_iff {diOccurrences : SortedMap DataItemIdType UInt32}
    : diOccurrences.toList ≠ [] ↔ ∃ id, (diOccurrences.find? id).isSome := by
  constructor
  . intro hne
    obtain ⟨⟨id, n⟩, hmem⟩ := List.exists_mem_of_ne_nil _ hne
    exact ⟨id, by rw [(SortedMap.find?_eq_some_iff diOccurrences id n).mpr hmem]; rfl⟩
  . rintro ⟨id, hsome⟩ hnil
    obtain ⟨n, hn⟩ := Option.isSome_iff_exists.mp hsome
    have hmem := (SortedMap.find?_eq_some_iff diOccurrences id n).mp hn
    rw [hnil] at hmem
    cases hmem

structure OccurrencesAllowed (siginfo : ProtocolConfigImpl.SignalInfo) (dataItems : List DataItem)
    : Prop where
  occurs : ∀ difs ∈ siginfo.dataItems, difs.occurs.Admits (UInt32.ofNat (occurrences dataItems difs.id))
  listed : ∀ di ∈ dataItems, ∃ difs ∈ siginfo.dataItems, difs.id = di.id

variable {siginfo : ProtocolConfigImpl.SignalInfo}

theorem validateOccurrences_cases
    (hlisted : ∀ difs ∈ siginfo.dataItems, (cfg.dataItemMap.left difs.id).isSome)
    (hnamed : ∀ di ∈ pm.dataItems, (cfg.dataItemMap.left di.id).isSome)
    : ∃ err, pm.validateOccurrences cfg siginfo = .ok err
        ∧ ((siginfo.dataItems.map (fun difs => difs.id)).Nodup
            → (err = "" ↔ OccurrencesAllowed siginfo pm.dataItems)) := by
  obtain ⟨err, diOccurrences, hcheck, hiff, hrest⟩ := checkOccurrences_cases hlisted
    (countOccurrences pm.dataItems)
  have hcount (id : DataItemIdType)
      : ((countOccurrences pm.dataItems).find? id).getD 0 = UInt32.ofNat
          (occurrences pm.dataItems id) := by
    rw [find?_countOccurrences]
    split
    . next hzero => rw [hzero]; rfl
    . rfl
  have hsome (id : DataItemIdType)
      : ((countOccurrences pm.dataItems).find? id).isSome ↔ ∃ di ∈ pm.dataItems, di.id = id := by
    rw [find?_countOccurrences]
    by_cases hzero : occurrences pm.dataItems id = 0
    . rw [if_pos hzero]
      rw [occurrences_eq_zero_iff] at hzero
      simpa using hzero
    . rw [if_neg hzero]
      rw [occurrences_eq_zero_iff] at hzero
      simpa using hzero
  simp only [hcount] at hiff
  unfold validateOccurrences
  simp only [hcheck, bind, Except.bind]
  by_cases hremain : err = "" ∧ diOccurrences.toList ≠ []
  . rw [if_pos hremain]
    obtain ⟨hempty, hne⟩ := hremain
    have hrest' := hrest hempty
    obtain ⟨err', hunexpected, hne'⟩ := @exists_unexpectedDataItems cfg diOccurrences (by
      intro id hid
      rw [hrest'] at hid
      split at hid
      . cases hid
      . obtain ⟨di, hdi, rfl⟩ := (hsome id).mp hid
        exact hnamed di hdi)
    refine ⟨err', hunexpected, fun _ => ?_⟩
    constructor
    . exact fun hempty' => absurd hempty' hne'
    . intro hallowed
      -- what remains is not listed
      obtain ⟨id, hid⟩ := toList_ne_nil_iff.mp hne
      rw [hrest'] at hid
      split at hid
      . cases hid
      . next hnot =>
        obtain ⟨di, hdi, rfl⟩ := (hsome id).mp hid
        obtain ⟨difs, hdifs, hsame⟩ := hallowed.listed di hdi
        exact absurd (List.mem_map.mpr ⟨difs, hdifs, hsame⟩) hnot
  . rw [if_neg hremain]
    refine ⟨err, rfl, fun hnodup => ?_⟩
    constructor
    . intro hempty
      refine ⟨(hiff hnodup).mp hempty, fun di hdi => ?_⟩
      have hnil : ¬ ∃ id, (diOccurrences.find? id).isSome := by
        rw [← toList_ne_nil_iff]
        exact fun hne => hremain ⟨hempty, hne⟩
      by_contra hnot
      apply hnil
      refine ⟨di.id, ?_⟩
      rw [hrest hempty, if_neg]
      . exact (hsome di.id).mpr ⟨di, hdi, rfl⟩
      . intro hmem
        obtain ⟨difs, hdifs, hsame⟩ := List.mem_map.mp hmem
        exact hnot ⟨difs, hdifs, hsame⟩
    . exact fun hallowed => (hiff hnodup).mpr hallowed.occurs

theorem validateDataItems_cases (h : Sound cfg)
    (hknown : ∀ di ∈ dataItems, (cfg.dataItemInfoMap.find? di.id).isSome)
    : ∃ err, validateDataItems cfg dataItems = .ok err ∧ (err = "" ↔ ∀ di ∈ dataItems, di.Valid cfg) := by
  induction dataItems with
  | nil => exact ⟨"", rfl, by simp⟩
  | cons di dataItems ih =>
    obtain ⟨err, hvalidate, hvalid⟩ := DataItem.validate_of_sound h (hknown di List.mem_cons_self)
    obtain ⟨err', hrest, hrestValid⟩ := ih (fun di hdi => hknown di (List.mem_cons_of_mem _ hdi))
    simp only [validateDataItems, hvalidate, bind, Except.bind]
    rw [List.forall_mem_cons, ← hvalid, ← hrestValid]
    by_cases hempty : err = ""
    . rw [if_neg (not_not.mpr hempty)]
      exact ⟨err', hrest, by simp [hempty]⟩
    . rw [if_pos hempty]
      exact ⟨err, rfl, by simp [hempty]⟩

theorem of_parse {cfg : MessageConfig} {pm₀ pm : ProtocolMessage} {bytes : Bytes} {isSignal : Bool}
    {logPrefix : String}
    (h : parse cfg pm₀ bytes isSignal logPrefix = .ok ("", pm))
    : Known cfg pm.isSignal pm.signalId ∧ pm.signalIdInitialized = true
        ∧ ∃ body, Tiles cfg body pm.dataItems := by
  cases @parse_cases cfg pm₀ bytes isSignal logPrefix with
  | inr herr =>
    obtain ⟨err, pm', hparse, hne⟩ := herr
    rw [h] at hparse
    exact absurd (Prod.mk.inj (Except.ok.inj hparse)).1.symm hne
  | inl hheader =>
    obtain ⟨id, signalLen, body, hheader, hknown⟩ := hheader
    rcases @parseDataItems_cases cfg body.length body (Nat.le_refl _) [] with
      ⟨dataItems, htiles, -⟩ | ⟨hpast, -⟩ | ⟨e, hthrown, hloop⟩
    . rw [parse_of_tiles hheader hknown htiles] at h
      cases h
      exact ⟨hknown, rfl, body, htiles⟩
    . rw [parse_of_runsPastBehind hheader hknown hpast] at h
      cases h
    . obtain ⟨err, pm', hparse, hne⟩ := parse_of_thrown hheader hknown hthrown hloop pm₀ logPrefix
      rw [h] at hparse
      exact absurd (Prod.mk.inj (Except.ok.inj hparse)).1.symm hne

theorem isSome_of_tiles {body : Bytes} (h : Tiles cfg.toMessageConfig body dataItems)
    : ∀ di ∈ dataItems, (cfg.dataItemInfoMap.find? di.id).isSome := by
  obtain ⟨chunks, -, hchunks⟩ := h
  intro di hdi
  obtain ⟨chunk, valbuf, hlaid⟩ : ∃ chunk valbuf,
      di.LaidOut cfg.toMessageConfig.toProtocolConfig chunk valbuf := by
    induction hchunks with
    | nil => cases hdi
    | cons hlaid _ ih =>
      cases List.mem_cons.mp hdi with
      | inl heq => exact heq ▸ ⟨_, hlaid⟩
      | inr hmem => exact ih hmem
  obtain ⟨diType, htype, -⟩ := hlaid.value
  unfold ProtocolConfig.getDataItemValueType at htype
  cases hlookup : cfg.toMessageConfig.dataItemInfoMap.lookup di.id with
  | none =>
    rw [hlookup] at htype
    cases htype
  | some valueType =>
    obtain ⟨front, back, heq, -⟩ := List.lookup_eq_some_iff.mp hlookup
    have hmem : (di.id, valueType) ∈ cfg.toMessageConfig.dataItemInfoMap := by
      rw [heq]
      simp
    obtain ⟨e, he, hpair⟩ := List.mem_map.mp hmem
    rw [← (Prod.mk.inj hpair).1, (SortedMap.find?_eq_some_iff cfg.dataItemInfoMap e.1 e.2).mpr he]
    rfl

structure Allowed (cfg : ProtocolConfigImpl) (siginfo : ProtocolConfigImpl.SignalInfo)
    (dataItems : List DataItem)
    (modemSender : Bool) : Prop where
  sender : (if modemSender then siginfo.flags.modemSends else siginfo.flags.routerSends) = true
  occurrences : OccurrencesAllowed siginfo dataItems
  valid : ∀ di ∈ dataItems, di.Valid cfg

theorem validateSender_eq_empty_iff {siginfo : ProtocolConfigImpl.SignalInfo} {modemSender : Bool}
    : validateSender siginfo modemSender = ""
        ↔ (if modemSender then siginfo.flags.modemSends else siginfo.flags.routerSends) = true := by
  unfold validateSender
  by_cases hsends : (if modemSender then siginfo.flags.modemSends else siginfo.flags.routerSends) = true
  . rw [if_pos hsends]
    exact ⟨fun _ => hsends, fun _ => rfl⟩
  . rw [if_neg hsends]
    refine ⟨fun hempty => ?_, fun hsends' => absurd hsends' hsends⟩
    rw [String.append_eq_empty_iff] at hempty
    exact absurd hempty.1 (by decide)

theorem validate_of_siginfo (h : Sound cfg) {name : String}
    (hname : pm.signalName cfg = .ok name) (hget : cfg.getSignalInfo name = .ok siginfo)
    (hlisted : ∀ difs ∈ siginfo.dataItems, (cfg.dataItemMap.left difs.id).isSome)
    (hknown : ∀ di ∈ pm.dataItems, (cfg.dataItemInfoMap.find? di.id).isSome) (modemSender : Bool)
    : ∃ err, pm.validate cfg modemSender = .ok err
        ∧ ((siginfo.dataItems.map (fun difs => difs.id)).Nodup
            → (err = "" ↔ Allowed cfg siginfo pm.dataItems modemSender)) := by
  have hnamed : ∀ di ∈ pm.dataItems, (cfg.dataItemMap.left di.id).isSome := by
    intro di hdi
    obtain ⟨diInfo, hinfo⟩ := Option.isSome_iff_exists.mp (hknown di hdi)
    rw [h.dataItems.left_of_find? hinfo]
    rfl
  obtain ⟨occursErr, hoccurs, hoccursIff⟩ := validateOccurrences_cases hlisted hnamed
  obtain ⟨itemsErr, hitems, hitemsIff⟩ := validateDataItems_cases h hknown
  have hsender := @validateSender_eq_empty_iff siginfo modemSender
  have hallowed : Allowed cfg siginfo pm.dataItems modemSender
      ↔ validateSender siginfo modemSender = "" ∧ OccurrencesAllowed siginfo pm.dataItems
          ∧ itemsErr = "" := by
    rw [hsender, hitemsIff]
    exact ⟨fun h => ⟨h.sender, h.occurrences, h.valid⟩, fun h => ⟨h.1, h.2.1, h.2.2⟩⟩
  simp only [validate, hname, hget, hoccurs, hitems, bind, Except.bind, pure, Except.pure]
  by_cases hsenderErr : validateSender siginfo modemSender = ""
  . by_cases hoccursErr : occursErr = ""
    . by_cases hitemsErr : itemsErr = ""
      . simp only [hsenderErr, hoccursErr, hitemsErr, if_true, ne_eq, not_true_eq_false, if_false]
        refine ⟨"", rfl, fun hnodup => ?_⟩
        rw [hallowed]
        simp [hsenderErr, hitemsErr, (hoccursIff hnodup).mp hoccursErr]
      . simp only [hsenderErr, hoccursErr, hitemsErr, if_true, ne_eq, not_false_eq_true]
        refine ⟨_, rfl, fun hnodup => ?_⟩
        rw [hallowed]
        simp [hitemsErr]
    . simp only [hsenderErr, hoccursErr, if_true, if_false, ne_eq, not_false_eq_true]
      refine ⟨_, rfl, fun hnodup => ?_⟩
      rw [hallowed, ← hoccursIff hnodup]
      simp [hoccursErr]
  . simp only [hsenderErr, if_true, if_false, ne_eq, not_false_eq_true]
    refine ⟨_, rfl, fun hnodup => ?_⟩
    rw [hallowed]
    simp [hsenderErr]

theorem exists_info_of_getSignalInfo {name : String}
    (h : cfg.getSignalInfo name = .ok siginfo)
    : ∃ kind id, (cfg.idInfoMap kind).find? id = some siginfo := by
  unfold getSignalInfo at h
  split at h
  . next hfind =>
    cases h
    obtain ⟨⟨id, info⟩, hmem, rfl⟩ := List.mem_map.mp (List.mem_of_find?_eq_some hfind)
    rcases List.mem_append.mp hmem with hmem | hmem
    . exact ⟨false, id, (SortedMap.find?_eq_some_iff cfg.signalInfoMap id info).mpr hmem⟩
    . exact ⟨true, id, (SortedMap.find?_eq_some_iff cfg.messageInfoMap id info).mpr hmem⟩
  . cases h

theorem signalName_of_known (h : Known cfg.toMessageConfig pm.isSignal pm.signalId)
    (hinit : pm.signalIdInitialized = true)
    : ∃ name, (cfg.idNameMap (!pm.isSignal)).left pm.signalId = some name
        ∧ pm.signalName cfg = .ok name := by
  obtain ⟨name, hname⟩ := h
  unfold signalName
  rw [if_pos hinit]
  cases hsignal : pm.isSignal with
  | true =>
    rw [hsignal, if_pos rfl] at hname
    unfold MessageConfig.getSignalName at hname
    cases hleft : cfg.toMessageConfig.signalMap.left pm.signalId with
    | none =>
      rw [hleft] at hname
      cases hname
    | some name' =>
      refine ⟨name', hleft, ?_⟩
      rw [if_pos rfl]
      unfold ProtocolConfigImpl.getSignalName
      rw [show cfg.signalMap.left pm.signalId = some name' from hleft]
  | false =>
    rw [hsignal, if_neg (by decide)] at hname
    unfold MessageConfig.getMessageName at hname
    cases hleft : cfg.toMessageConfig.messageMap.left pm.signalId with
    | none =>
      rw [hleft] at hname
      cases hname
    | some name' =>
      refine ⟨name', hleft, ?_⟩
      rw [if_neg (by decide)]
      unfold ProtocolConfigImpl.getMessageName
      rw [show cfg.messageMap.left pm.signalId = some name' from hleft]

theorem validate_accepts_iff (signalPrefix : Bytes)
    (signalLengthSize signalIdSize dataItemLengthSize dataItemIdSize extensionIdSize : FieldSizeInBytes)
    {modules : List ModuleNode}
    (h : modules.foldlM extractModule
      (.empty signalPrefix signalLengthSize signalIdSize dataItemLengthSize dataItemIdSize
        extensionIdSize) = .ok cfg)
    {pm₀ : ProtocolMessage} {bytes : Bytes} {isSignal : Bool} {logPrefix : String}
    (hparse : parse cfg.toMessageConfig pm₀ bytes isSignal logPrefix = .ok ("", pm)) (modemSender : Bool)
    : ∃ siginfo err, (cfg.idInfoMap (!pm.isSignal)).find? pm.signalId = some siginfo
        ∧ pm.validate cfg modemSender = .ok err
        ∧ ((pm.isSignal = false → cfg.signalMap.right siginfo.name = none) →
          (siginfo.dataItems.map (fun difs => difs.id)).Nodup →
          (err = "" ↔ Allowed cfg siginfo pm.dataItems modemSender)) := by
  have hsound :=
    (load_consistent signalPrefix signalLengthSize signalIdSize dataItemLengthSize dataItemIdSize
    extensionIdSize h).1.1
  obtain ⟨hknown, hinit, body, htiles⟩ := of_parse hparse
  have hdataItems := isSome_of_tiles htiles
  obtain ⟨name, hleft, hname⟩ := signalName_of_known hknown hinit
  have hright := IdNameMap.right_iff_left.mpr hleft
  obtain ⟨siginfo, hsiginfo, rfl⟩ := (hsound.signals _).exists_info hleft
  by_cases hother : pm.isSignal = false → cfg.signalMap.right siginfo.name = none
  . obtain ⟨siginfo', hsiginfo', hget⟩ := hsound.getSignalInfo hright
      (fun hkind => hother (by simpa using hkind))
    obtain rfl := Option.some.inj (hsiginfo.symm.trans hsiginfo')
    obtain ⟨err, hvalidate, hiff⟩ := validate_of_siginfo hsound hname hget
      (hsound.listed _ _ _ hsiginfo) hdataItems modemSender
    exact ⟨siginfo, err, hsiginfo, hvalidate, fun _ hnodup => hiff hnodup⟩
  . obtain ⟨siginfo', hget⟩ := hsound.exists_getSignalInfo hright
    obtain ⟨kind, id, hsiginfo'⟩ := exists_info_of_getSignalInfo hget
    obtain ⟨err, hvalidate, -⟩ := validate_of_siginfo hsound hname hget
      (hsound.listed _ _ _ hsiginfo') hdataItems modemSender
    exact ⟨siginfo, err, hsiginfo, hvalidate, fun hnot => absurd hnot hother⟩

def loaded (modules : List ModuleNode) : ProtocolConfigImpl :=
  match modules.foldlM extractModule (.empty [] .two .two .two .two .two) with
  | .ok cfg => cfg
  | .error _ => .empty [] .two .two .two .two .two

theorem validate_accepts_iff_response
    : ∃ pm siginfo, parse (loaded [coreModule]).toMessageConfig .empty
        [0, 4, 0, 5, 0, 1, 0, 1, 0] false "" = .ok ("", pm)
        ∧ ((loaded [coreModule]).idInfoMap true).find? 4 = some siginfo
        ∧ ∃ err, pm.validate (loaded [coreModule]) true = .ok err
          ∧ (err = "" ↔ Allowed (loaded [coreModule]) siginfo pm.dataItems true) := by
  have hload : [coreModule].foldlM extractModule (.empty [] .two .two .two .two .two)
    = .ok (loaded [coreModule]) := rfl
  have hparse : parse (loaded [coreModule]).toMessageConfig .empty
    [0, 4, 0, 5, 0, 1, 0, 1, 0] false "" = .ok ("",
    { msgbuf := [0, 4, 0, 5, 0, 1, 0, 1, 0]
      msgLenIndex := 0
      headerLength := 0
      signalId := 4
      signalIdInitialized := true
      isSignal := false
      dataItems := [⟨1, .div_u8_string 0 []⟩] }) := by
    decide
  obtain ⟨siginfo, err, hsiginfo, hvalidate, hiff⟩ := validate_accepts_iff
    [] .two .two .two .two .two hload hparse true
  have hplain : (((loaded [coreModule]).idInfoMap true).find? 4).all (fun siginfo =>
      (loaded [coreModule]).signalMap.right siginfo.name = none
          ∧ (siginfo.dataItems.map (fun difs => difs.id)).Nodup) = true := by
    decide
  rw [show ((loaded [coreModule]).idInfoMap true).find? 4 = some siginfo from hsiginfo,
    Option.all_some, decide_eq_true_eq] at hplain
  exact ⟨_, siginfo, hparse, hsiginfo, err, hvalidate, hiff (fun _ => hplain.1) hplain.2⟩

def unitsModule : ModuleNode where
  name := "core"
  draft := ""
  experimentName := ""
  extensionId := 0
  dataItems := [
    { name := "IPv4_Connection_Point", type := .div_u8_ipv4_u16, id := 2, metric := .word false,
      units := none },
    { name := "Resources", type := .div_u16, id := 17, metric := .word true, units := some .percentage },
    { name := "Credit_Request", type := .blank, id := 52, metric := .word false, units := none }
  ]
  signals := [
    {
      name := "Session_Update"
      id := some 3
      message := some (.word true)
      sender := some .both
      response := none
      dataItems := [
        { name := "IPv4_Connection_Point", occurs := .zeroOrOne },
        { name := "Resources", occurs := .zeroOrOne },
        { name := "Credit_Request", occurs := .zeroOrOne }
      ]
    }
  ]
  statusCodes := []

theorem parse_replicate (n : Nat)
    : parse (loaded [unitsModule]).toMessageConfig .empty
        ([0, 3, 0, 0] ++ (List.replicate n [0, 52, 0, 0]).flatten) false ""
        = .ok ("", {
          msgbuf := [0, 3, 0, 0] ++ (List.replicate n [0, 52, 0, 0]).flatten
          msgLenIndex := 0
          headerLength := 0
          signalId := 3
          signalIdInitialized := true
          isSignal := false
          dataItems := List.replicate n ⟨52, .blank⟩
        }) := by
  have hheader : HasHeader (loaded [unitsModule]).toMessageConfig false
      ([0, 3, 0, 0] ++ (List.replicate n [0, 52, 0, 0]).flatten) 3 0
          (List.replicate n [0, 52, 0, 0]).flatten :=
    ⟨rfl, by decide, by decide⟩
  have hlaid : DataItem.LaidOut (loaded [unitsModule]).toMessageConfig.toProtocolConfig ⟨52, .blank⟩
      [0, 52, 0, 0] [] :=
    ⟨⟨rfl, by decide, by decide⟩, by decide, .blank, rfl, rfl⟩
  have htiles : Tiles (loaded [unitsModule]).toMessageConfig (List.replicate n [0, 52, 0, 0]).flatten
      (List.replicate n ⟨52, .blank⟩) := by
    clear hheader
    refine ⟨List.replicate n [0, 52, 0, 0], rfl, ?_⟩
    induction n with
    | zero => exact .nil
    | succ n ih => exact .cons ⟨_, hlaid⟩ ih
  exact parse_of_tiles hheader ⟨"Session_Update", rfl⟩ htiles .empty ""

def unitsInfo : ProtocolConfigImpl.SignalInfo where
  name := "Session_Update"
  id := 3
  flags := { message := true, modemSends := true, routerSends := true }
  dataItems := [⟨2, .zeroOrOne⟩, ⟨17, .zeroOrOne⟩, ⟨52, .zeroOrOne⟩]
  responseId := 0
  module := "core"

theorem occurrences_replicate (n : Nat) (di : DataItem) (id : DataItemIdType)
    : occurrences (List.replicate n di) id = if di.id = id then n else 0 := by
  unfold occurrences
  rw [List.countP_replicate]
  simp

theorem allowed_replicate {n : Nat} (h : UInt32.ofNat n ≤ 1)
    : Allowed (loaded [unitsModule]) unitsInfo (List.replicate n ⟨52, .blank⟩) true := by
  refine ⟨rfl, ⟨?_, ?_⟩, ?_⟩
  . intro difs hdifs
    rw [occurrences_replicate]
    simp only [unitsInfo, List.mem_cons, List.not_mem_nil, or_false] at hdifs
    rcases hdifs with rfl | rfl | rfl
    . show (0 : UInt32) ≤ 1
      decide
    . show (0 : UInt32) ≤ 1
      decide
    . exact h
  . intro di hdi
    rw [List.eq_of_mem_replicate hdi]
    exact ⟨⟨52, .zeroOrOne⟩, by simp [unitsInfo], rfl⟩
  . intro di hdi
    rw [List.eq_of_mem_replicate hdi]
    refine ⟨_, rfl, rfl, ?_, ?_, ?_, ?_⟩
    . intro _
      show (0 : UInt8) ≤ 1
      decide
    . intro length max hmask
      cases hmask
    . intro _ percent hpercent
      cases hpercent
    . intro _ _ code hcode
      cases hcode

theorem not_validate_accepts_iff
    : (∃ pm, parse (loaded [unitsModule]).toMessageConfig .empty
            [0, 3, 0, 15, 0, 2, 0, 5, 2, 10, 0, 0, 1, 0, 17, 0, 2, 0, 101] false "" = .ok ("", pm)
          ∧ pm.dataItems = [⟨2, .div_u8_ipv4_u16 2 ⟨[10, 0, 0, 1], rfl⟩ 0⟩, ⟨17, .div_u16 101⟩]
          ∧ pm.validate (loaded [unitsModule]) true = .ok "")
        ∧ ∃ bytes pm, parse (loaded [unitsModule]).toMessageConfig .empty bytes false "" = .ok ("", pm)
          ∧ occurrences pm.dataItems 52 = 2^32 ∧ pm.validate (loaded [unitsModule]) true = .ok "" := by
  constructor
  . exact ⟨_, rfl, rfl, rfl⟩
  . have hparse := parse_replicate (2^32)
    have hload : [unitsModule].foldlM extractModule (.empty [] .two .two .two .two .two)
      = .ok (loaded [unitsModule]) := rfl
    have hsound := (load_consistent [] .two .two .two .two .two hload).1.1
    obtain ⟨err, hvalidate, hiff⟩ := validate_of_siginfo hsound
      (show signalName (loaded [unitsModule]) _ = _ from rfl)
      (show (loaded [unitsModule]).getSignalInfo "Session_Update" = .ok unitsInfo from rfl)
      (by decide) (isSome_of_tiles (of_parse hparse).2.2.choose_spec) true
    rw [(hiff (by decide)).mpr (allowed_replicate (by decide))] at hvalidate
    exact ⟨_, _, hparse, by rw [occurrences_replicate]; rfl, hvalidate⟩

end ProtocolMessage
end Wire
end Dlep
end Emane

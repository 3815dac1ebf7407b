import Emane.Dlep.Lemmas.AdvertItems
import Emane.Dlep.Lemmas.DestAdvertRun

/-!
This module contains the addresses of the entries over whole runs, with everything that can happen
to the table of advertisements.
-/

namespace Emane
namespace Dlep

open DataItem

theorem ipKeys_of_omitsPrefix {a b : DataItem} (h : OmitsPrefix a b)
    : ∃ k k', a.ipKey = some k ∧ b.ipKey = some k' ∧ k' ≠ k
        ∧ (k.valueType = .div_ipv4_u8 ∨ k.valueType = .div_ipv6_u8)
        ∧ k'.valueType = k.valueType ∧ k'.address = k.address := by
  obtain ⟨id, value⟩ := a
  obtain ⟨id', value'⟩ := b
  cases value <;> cases value' <;> simp_all [ipKey, OmitsPrefix, eq_comm]

def Unambiguous (s : Set IpKey) : Prop :=
  ∀ k ∈ s, ∀ k' ∈ s, k.valueType = .div_ipv4_u8 ∨ k.valueType = .div_ipv6_u8
    → k'.valueType = k.valueType →
    k'.address = k.address → k' = k

def DestAdvertInfo.ipItems (info : DestAdvertInfo) : List DataItem :=
  IpKind.all.flatMap info.ipDataItems

namespace DestAdvert

variable {cfg : AdvertConfig}

theorem Holds.once {dataItems : List DataItem} {s : Set IpKey} (h : Holds cfg dataItems s)
    (hunambiguous : Unambiguous s) : Once dataItems := by
  have honce := List.pairwise_filter.mp h.represents.once
  apply honce.imp_of_mem
  intro a b ha hb hab
  by_contra heq
  rw [Bool.not_eq_false, ipEqual_iff] at heq
  rcases heq with ⟨k, hka, hkb⟩ | homits
  . have hipa := h.named a ha (Option.isSome_of_eq_some hka)
    have hipb := h.named b hb (Option.isSome_of_eq_some hkb)
    exact hab hipa hipb k hka hkb
  . obtain ⟨k, k', hka, hkb, hne, htype, hsame, haddress⟩ := ipKeys_of_omitsPrefix homits
    exact hne (hunambiguous k ((h.mem_iff k).mpr ⟨a, ha, hka⟩) k'
      ((h.mem_iff k').mpr ⟨b, hb, hkb⟩) htype hsame haddress)

def addressesOf (dataItems : List DataItem) : Set IpKey :=
  {k | ∃ di ∈ dataItems, di.ipKey = some k}

theorem Holds.eq_addressesOf {dataItems : List DataItem} {s : Set IpKey} (h : Holds cfg dataItems s)
    : s = addressesOf dataItems := by
  ext k
  exact h.mem_iff k

def calledItems (cfg : AdvertConfig) (dataItems : List DataItem) (entry : DestAdvertDBEntry)
    : List DataItem :=
  dataItems.filter (fun di => !isIpDataItem cfg di) ++ entry.dataItems.filter
    (fun di => isIpDataItem cfg di)

inductive ItemsFrom (cfg : AdvertConfig) (parse : Bytes → Option DestinationAdvertisement)
    (d : DestAdvert) (e : Env × Event)
    (mac : DlepMac) : List DataItem → Prop where
  | same (entry : DestAdvertDBEntry) (hfind : d.destAdvertDb.find? mac = some entry) : ItemsFrom cfg
    parse d e mac entry.dataItems
  | heard (msg : Bytes) (info : DestAdvertInfo) (hevent : e.2 = .message msg)
    (hreceived : received cfg parse msg = some info)
    (hrfId : info.rfId = mac) (hfind : d.destAdvertDb.find? mac = none) : ItemsFrom cfg parse d e
      mac info.ipItems
  | heardAgain (msg : Bytes) (info : DestAdvertInfo) (entry : DestAdvertDBEntry)
    (hevent : e.2 = .message msg)
    (hreceived : received cfg parse msg = some info) (hrfId : info.rfId = mac)
    (hfind : d.destAdvertDb.find? mac = some entry)
    : ItemsFrom cfg parse d e mac (updateEntry e.1 info entry).dataItems
  | called (dataItems : List DataItem) (entry : DestAdvertDBEntry)
    (hevent : e.2 = .destinationUp mac dataItems ∨ e.2 = .destinationUpdate mac dataItems)
    (hfind : d.destAdvertDb.find? mac = some entry) : ItemsFrom cfg parse d e mac
    (calledItems cfg dataItems entry)
  | placeholder (dataItems : List DataItem) (hevent : e.2 = .destinationUp mac dataItems)
    (hfind : d.destAdvertDb.find? mac = none) : ItemsFrom cfg parse d e mac dataItems

section

variable {parse : Bytes → Option DestinationAdvertisement} {d : DestAdvert} {env : Env}
  {mac mac' : DlepMac} {entry' : DestAdvertDBEntry}
  {dataItems : List DataItem} {e : Env × Event}

theorem find?_modifyEntry {f : DestAdvertDBEntry → DestAdvertDBEntry}
    (h : (d.modifyEntry mac f).destAdvertDb.find? mac' = some entry')
    : (mac' ≠ mac ∧ d.destAdvertDb.find? mac' = some entry')
        ∨ (mac' = mac ∧ ∃ entry, d.destAdvertDb.find? mac = some entry ∧ f entry = entry') := by
  cases hfind : d.destAdvertDb.find? mac with
  | none =>
    rw [modifyEntry_none hfind] at h
    refine Or.inl ⟨?_, h⟩
    rintro rfl
    rw [hfind] at h
    cases h
  | some entry =>
    rcases (modifyEntry_some hfind).1.find?_cases h with ⟨rfl, rfl⟩ | ⟨hne, hold⟩
    . exact Or.inr ⟨rfl, entry, rfl, rfl⟩
    . exact Or.inl ⟨hne, hold⟩

variable {d' : DestAdvert}

theorem handleAdvert_items {msg : Bytes} {info : DestAdvertInfo}
    (hreceived : received cfg parse msg = some info)
    (h : handleAdvert cfg env info d = .ok d') (hfind : d'.destAdvertDb.find? mac' = some entry')
    : ItemsFrom cfg parse d (env, .message msg) mac' entry'.dataItems := by
  rcases (handleAdvert_ensures cfg env info d).of_ok h with ⟨hnone, -, hupdated⟩ | ⟨entry, hsome,
    hupdated, -⟩
  . rcases hupdated.find?_cases hfind with ⟨rfl, rfl⟩ | ⟨-, hold⟩
    . exact .heard msg info rfl hreceived rfl hnone
    . exact .same entry' hold
  . rcases hupdated.find?_cases hfind with ⟨rfl, rfl⟩ | ⟨-, hold⟩
    . exact .heardAgain msg info entry rfl hreceived rfl hsome
    . exact .same entry' hold

theorem updateAdvertEntryDataItems_items
    (hevent : e.2 = .destinationUp mac dataItems ∨ e.2 = .destinationUpdate mac dataItems)
    (hfind : (d.updateAdvertEntryDataItems cfg mac dataItems).destAdvertDb.find? mac' = some entry')
    : ItemsFrom cfg parse d e mac' entry'.dataItems := by
  rcases find?_modifyEntry hfind with ⟨-, hold⟩ | ⟨rfl, entry, hold, rfl⟩
  . exact .same entry' hold
  . exact .called dataItems entry hevent hold

variable {res : ReturnStatus × DestAdvert}

theorem destinationUp_items (h : d.destinationUp cfg env mac dataItems = .ok res)
    (hfind : res.2.destAdvertDb.find? mac' = some entry')
    : ItemsFrom cfg parse d (env, .destinationUp mac dataItems) mac' entry'.dataItems := by
  unfold destinationUp at h
  simp only at h
  rw [bind_eq_ok_iff] at h
  obtain ⟨⟨rs, dlep⟩, -, h⟩ := h
  split at h
  . cases h
    rcases find?_modifyEntry hfind with ⟨-, hold⟩ | ⟨rfl, entry, hold, rfl⟩
    . exact updateAdvertEntryDataItems_items (Or.inl rfl) hold
    . exact @updateAdvertEntryDataItems_items cfg parse d mac' mac' entry dataItems _ (Or.inl rfl) hold
  . next hnone =>
    cases h
    rcases (SortedMap.updated_set _ _ _).find?_cases hfind with ⟨rfl, rfl⟩ | ⟨-, hold⟩
    . refine .placeholder dataItems rfl ?_
      cases hold : d.destAdvertDb.find? mac' with
      | none => rfl
      | some entry =>
        obtain ⟨entry₁, -, -, hupdated, -⟩ := updateAdvertEntryDataItems_some cfg hold dataItems
        rw [hupdated.find?_self] at hnone
        cases hnone
    . exact updateAdvertEntryDataItems_items (Or.inl rfl) hold

theorem destinationUpdate_items (h : d.destinationUpdate cfg env mac dataItems = .ok res)
    (hfind : res.2.destAdvertDb.find? mac' = some entry')
    : ItemsFrom cfg parse d (env, .destinationUpdate mac dataItems) mac' entry'.dataItems := by
  unfold destinationUpdate at h
  rw [bind_eq_ok_iff] at h
  obtain ⟨⟨rs, dlep⟩, -, h⟩ := h
  cases h
  exact updateAdvertEntryDataItems_items (Or.inr rfl) hfind

theorem destinationDown_items (h : d.destinationDown cfg env mac = .ok res)
    (hfind : res.2.destAdvertDb.find? mac' = some entry')
    : ∃ entry, d.destAdvertDb.find? mac' = some entry ∧ entry.dataItems = entry'.dataItems := by
  unfold destinationDown at h
  rw [bind_eq_ok_iff] at h
  obtain ⟨⟨rs, dlep⟩, -, h⟩ := h
  cases h
  rcases find?_modifyEntry hfind with ⟨-, hold⟩ | ⟨rfl, entry, hold, rfl⟩
  . exact ⟨entry', hold, rfl⟩
  . exact ⟨entry, hold, rfl⟩

theorem step_items (h : d.step cfg parse e = some d') (hfind : d'.destAdvertDb.find? mac' = some entry')
    : ItemsFrom cfg parse d e mac' entry'.dataItems := by
  obtain ⟨env, event⟩ := e
  unfold step at h
  cases event with
  | message msg =>
    rcases handleMessage_ok cfg parse
      (toOption_eq_some_iff.mp h) with ⟨-, rfl⟩ | ⟨info, hreceived, hadvert⟩
    . exact .same entry' hfind
    . exact handleAdvert_items hreceived hadvert hfind
  | destinationUp mac dataItems =>
    obtain ⟨res, hres, rfl⟩ := Option.map_eq_some_iff.mp h
    exact destinationUp_items (toOption_eq_some_iff.mp hres) hfind
  | destinationUpdate mac dataItems =>
    obtain ⟨res, hres, rfl⟩ := Option.map_eq_some_iff.mp h
    exact destinationUpdate_items (toOption_eq_some_iff.mp hres) hfind
  | destinationDown mac =>
    obtain ⟨res, hres, rfl⟩ := Option.map_eq_some_iff.mp h
    obtain ⟨entry, hold, heq⟩ := destinationDown_items (toOption_eq_some_iff.mp hres) hfind
    rw [← heq]
    exact .same entry hold
  | purgeAdvertTimeout aborted holdInterval expireCount =>
    cases aborted with
    | true =>
      cases h
      exact .same entry' hfind
    | false =>
      obtain ⟨hdb, -⟩ :=
        (handlePurgeAdvertTimeout_ensures cfg env holdInterval expireCount d).of_toOption h
      exact .same entry' ((hdb mac' entry').mp hfind).1
  | node event =>
    simp only at h
    split at h
    . obtain ⟨dlep, -, rfl⟩ := Option.map_eq_some_iff.mp h
      exact .same entry' hfind
    . cases h

def Proper (cfg : AdvertConfig) (dataItems : List DataItem) : Prop :=
  Holds cfg dataItems (addressesOf dataItems) ∧ Unambiguous (addressesOf dataItems)

def AllProper (cfg : AdvertConfig) (d : DestAdvert) : Prop :=
  ∀ mac entry, d.destAdvertDb.find? mac = some entry → Proper cfg entry.dataItems

def inOrder (info : DestAdvertInfo) (entry : DestAdvertDBEntry) : Set IpKey :=
  info.ipItems.foldl updateSet (addressesOf entry.dataItems)

structure Applicable (cfg : AdvertConfig) (info : DestAdvertInfo) (entry : DestAdvertDBEntry) : Prop where
  clean : Clean cfg entry.dataItems info.ipItems
  settled : AllSettled (addressesOf entry.dataItems) (IpKind.all.map info.ipDataItems)
  unambiguous : Unambiguous (inOrder info entry)

/--
What is put in the table for the first time is a set of addresses, and what the client says about
a radio that is known has no addresses under other names.
-/
def ItemsOk (cfg : AdvertConfig) (parse : Bytes → Option DestinationAdvertisement) (d : DestAdvert)
    (e : Env × Event) : Prop :=
  (∀ msg info, e.2 = .message msg → received cfg parse msg = some info
    → d.destAdvertDb.find? info.rfId = none →
    Proper cfg info.ipItems)
    ∧ (∀ msg info entry, e.2 = .message msg → received cfg parse msg = some info
      → d.destAdvertDb.find? info.rfId = some entry →
    Applicable cfg info entry)
    ∧ (∀ mac dataItems, e.2 = .destinationUp mac dataItems → d.destAdvertDb.find? mac = none
      → Proper cfg dataItems)
    ∧ ∀ mac dataItems, e.2 = .destinationUp mac dataItems ∨ e.2 = .destinationUpdate mac dataItems →
    d.destAdvertDb.find? mac ≠ none → ∀ di ∈ dataItems, di.ipKey.isSome = true
      → isIpDataItem cfg di = true

structure InOrder (cfg : AdvertConfig) (parse : Bytes → Option DestinationAdvertisement)
    (d : DestAdvert) (e : Env × Event) (d' : DestAdvert)
    : Prop where
  advert : ∀ msg info entry, e.2 = .message msg → received cfg parse msg = some info
    → d.destAdvertDb.find? info.rfId = some entry →
    ∃ entry', d'.destAdvertDb.find? info.rfId = some entry'
      ∧ Represents ipKey (entry'.dataItems.filter (fun di => isIpDataItem cfg di)) (inOrder info entry)
      ∧ Once entry'.dataItems
      ∧ entry'.dataItems.filter (fun di => !isIpDataItem cfg di) = entry.dataItems.filter
        (fun di => !isIpDataItem cfg di)
  update : ∀ mac dataItems entry, e.2 = .destinationUpdate mac dataItems
    → d.destAdvertDb.find? mac = some entry →
    ∃ entry', d'.destAdvertDb.find? mac = some entry'
      ∧ entry'.dataItems.filter (fun di => isIpDataItem cfg di) = entry.dataItems.filter
        (fun di => isIpDataItem cfg di)

theorem updateEntry_items {info : DestAdvertInfo} {entry : DestAdvertDBEntry}
    (h : Proper cfg entry.dataItems)
    (happlicable : Applicable cfg info entry) (env : Env)
    : Holds cfg (updateEntry env info entry).dataItems (inOrder info entry)
        ∧ (updateEntry env info entry).dataItems.filter (fun di => !isIpDataItem cfg di)
        =
      entry.dataItems.filter (fun di => !isIpDataItem cfg di) := by
  have hclean := happlicable.clean
  have hlists := h.1.updateLists hclean happlicable.settled
  exact hlists

theorem ipItems_calledItems (dataItems : List DataItem) (entry : DestAdvertDBEntry)
    : (calledItems cfg dataItems entry).filter (fun di => isIpDataItem cfg di)
        = entry.dataItems.filter (fun di => isIpDataItem cfg di) := by
  unfold calledItems
  simp

theorem proper_calledItems {dataItems : List DataItem} {entry : DestAdvertDBEntry}
    (h : Proper cfg entry.dataItems)
    (hnamed : ∀ di ∈ dataItems, di.ipKey.isSome = true → isIpDataItem cfg di = true)
    : Proper cfg (calledItems cfg dataItems entry) := by
  have hmem : ∀ di ∈ calledItems cfg dataItems entry, di.ipKey.isSome = true → di ∈ entry.dataItems
      ∧ isIpDataItem cfg di = true := by
    intro di hdi hsome
    rcases List.mem_append.mp hdi with hdi | hdi
    . obtain ⟨hdi, hother⟩ := List.mem_filter.mp hdi
      rw [hnamed di hdi hsome] at hother
      cases hother
    . exact List.mem_filter.mp hdi
  have hholds : Holds cfg (calledItems cfg dataItems entry) (addressesOf entry.dataItems) := by
    refine ⟨?_, fun di hdi hsome => (hmem di hdi hsome).2, fun di hdi hsome => h.1.adds di
      (hmem di hdi hsome).1 hsome⟩
    rw [ipItems_calledItems]
    exact h.1.represents
  unfold Proper
  rw [← hholds.eq_addressesOf]
  exact ⟨hholds, h.2⟩

theorem AllProper.step (h : d.AllProper cfg) (hok : ItemsOk cfg parse d e)
    (hstep : d.step cfg parse e = some d')
    : d'.AllProper cfg := by
  intro mac' entry' hfind
  have hfrom := step_items hstep hfind
  generalize entry'.dataItems = dataItems at hfrom ⊢
  cases hfrom with
  | same entry hold => exact h mac' entry hold
  | heard msg info hevent hreceived hrfId hnone =>
    subst hrfId
    exact hok.1 msg info hevent hreceived hnone
  | heardAgain msg info entry hevent hreceived hrfId hold =>
    subst hrfId
    have happlicable := hok.2.1 msg info entry hevent hreceived hold
    have hholds := (updateEntry_items (h _ entry hold) happlicable e.1).1
    unfold Proper
    rw [← hholds.eq_addressesOf]
    exact ⟨hholds, happlicable.unambiguous⟩
  | called dataItems entry hevent hold =>
    apply proper_calledItems (h mac' entry hold)
    exact hok.2.2.2 mac' dataItems hevent (by simp [hold])
  | placeholder dataItems hevent hnone => exact hok.2.2.1 mac' _ hevent hnone

end

def addressItem (flags : UInt8) : Bytes :=
  [0, 8, 0, 5, flags, 10, 0, 0, 1]

end DestAdvert
end Dlep
end Emane

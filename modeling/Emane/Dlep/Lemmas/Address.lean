import Emane.Lib.KeyedList
import Emane.Dlep.Lemmas.Roster

/-!
This module contains the addresses that are held by the local node, by its peers and by their
destinations, and what the moves on a roster do to them.
-/

namespace Emane
namespace Dlep

open Holdings

theorem DataItem.ipEqual_comm (di di' : DataItem) : di.ipEqual di' = di'.ipEqual di := by
  obtain ⟨id, value⟩ := di
  obtain ⟨id', value'⟩ := di'
  cases value <;> cases value' <;> simp [DataItem.ipEqual, eq_comm]

def added (cfg : SessionConfig) (dataItems : List DataItem) : List DataItem :=
  dataItems.filter (fun di => cfg.isIpaddr di.id && di.isAdd)

theorem mem_added {cfg : SessionConfig} {dataItems : List DataItem} {di : DataItem}
    : di ∈ added cfg dataItems ↔ di ∈ dataItems ∧ cfg.isIpaddr di.id = true ∧ di.isAdd = true := by
  simp [added]

theorem updateIpDataItems_grows {new : DataItem → Prop} {di : DataItem} (hnew : di.isAdd = true → new di)
    (ipDataItems : List DataItem)
    : Grows DataItem.ipEqual new ipDataItems (updateIpDataItems ipDataItems di) := by
  unfold updateIpDataItems
  split
  . split
    . exact .refl _ _
    . exact .of_sublist List.eraseP_sublist
  . next hfresh =>
    split
    . next hadd =>
      apply Grows.concat (hnew hadd)
      intro b hb
      have hall : ∀ b ∈ ipDataItems, b.ipEqual di = false := by simpa using hfresh
      exact hall b hb
    . exact .refl _ _

theorem Items.update_grows (cfg : SessionConfig) (updates : List DataItem) (items : Items)
    : Grows DataItem.ipEqual (fun a => a ∈ added cfg updates) items.ipDataItems
        (items.update cfg updates).ipDataItems := by
  have hall : ∀ (new : DataItem → Prop) (dataItems : List DataItem) (items : Items),
    (∀ di ∈ added cfg dataItems, new di) →
      Grows DataItem.ipEqual new items.ipDataItems (items.update cfg dataItems).ipDataItems := by
    intro new dataItems
    induction dataItems with
    | nil => exact fun items _ => .refl new _
    | cons di dataItems ih =>
      intro items hnew
      have hone : Grows DataItem.ipEqual new items.ipDataItems (items.updateOne cfg di).ipDataItems := by
        unfold updateOne
        split
        . exact .refl new _
        . split
          . next haddress =>
            apply updateIpDataItems_grows
            exact fun hadd => hnew di (mem_added.mpr ⟨List.mem_cons_self, haddress, hadd⟩)
          . exact .refl new _
      apply hone.trans
      apply ih
      intro di' hdi'
      obtain ⟨hmem, hrest⟩ := mem_added.mp hdi'
      exact hnew di' (mem_added.mpr ⟨List.mem_cons_of_mem _ hmem, hrest⟩)
  exact hall _ updates items (fun _ hdi => hdi)

theorem Items.update_metrics {cfg : SessionConfig} {updates : List DataItem}
    (h : ∀ di ∈ updates, cfg.isMetric di.id = true)
    (items : Items)
    : (items.update cfg updates).ipDataItems = items.ipDataItems := by
  induction updates generalizing items with
  | nil => rfl
  | cons di updates ih =>
    have hone : (items.updateOne cfg di).ipDataItems = items.ipDataItems := by
      unfold updateOne
      rw [if_pos (h di List.mem_cons_self)]
    exact (ih (fun di hdi => h di (List.mem_cons_of_mem _ hdi)) _).trans hone

namespace PeerData

def addresses (pdp : PeerData) : Option DlepMac → List DataItem
  | none => pdp.items.ipDataItems
  | some mac => ((pdp.destinationData.find? mac).map (fun ddp => ddp.items.ipDataItems)).getD []

variable {cfg : SessionConfig} {pdp pdp' : PeerData} {mac : DlepMac} {dataItems : List DataItem}

theorem addresses_set (pdp : PeerData) (mac : DlepMac) (ddp : DestinationData)
    (destination : Option DlepMac)
    : ({ pdp with destinationData := pdp.destinationData.set mac ddp } : PeerData).addresses destination
        =
      if destination = some mac then ddp.items.ipDataItems else pdp.addresses destination := by
  cases destination with
  | none => rfl
  | some mac' =>
    simp only [addresses, SortedMap.find?_set, Option.some.injEq]
    split
    . rfl
    . rfl

theorem addresses_setNeedsResponse (pdp : PeerData) (mac : DlepMac) (responseName : Option MessageName)
    (destination : Option DlepMac)
    : (pdp.setNeedsResponse mac responseName).addresses destination = pdp.addresses destination := by
  unfold setNeedsResponse
  split
  . next ddp hddp =>
    rw [addresses_set]
    split
    . next heq => simp [heq, addresses, hddp]
    . rfl
  . rfl

theorem removeDestination_grows (h : pdp.removeDestination mac = some pdp') (new : DataItem → Prop)
    (destination : Option DlepMac)
    : Grows DataItem.ipEqual new (pdp.addresses destination) (pdp'.addresses destination) := by
  unfold removeDestination at h
  split at h
  . cases h
    cases destination with
    | none => exact .refl new _
    | some mac' =>
      simp only [addresses, SortedMap.find?_erase]
      split
      . exact .of_sublist (List.nil_sublist _)
      . exact .refl new _
  . cases h

theorem addDestination_grows (h : pdp.addDestination cfg mac dataItems = some pdp')
    (destination : Option DlepMac)
    : Grows DataItem.ipEqual (fun a => destination = some mac ∧ a ∈ added cfg dataItems)
        (pdp.addresses destination)
        (pdp'.addresses destination) := by
  unfold addDestination at h
  split at h
  . cases h
  . cases h
    rw [addresses_set]
    split
    . next heq =>
      apply Grows.of_nil
      exact (Items.update_grows cfg dataItems .empty).mono (fun a ha => ⟨heq, ha⟩)
    . exact .refl _ _

theorem updateDestination_grows (h : pdp.updateDestination cfg mac dataItems = some pdp')
    (destination : Option DlepMac)
    : Grows DataItem.ipEqual (fun a => destination = some mac ∧ a ∈ added cfg dataItems)
        (pdp.addresses destination)
        (pdp'.addresses destination) := by
  unfold updateDestination at h
  split at h
  . next ddp hddp =>
    cases h
    rw [addresses_set]
    split
    . next heq =>
      have hold : pdp.addresses destination = ddp.items.ipDataItems := by
        simp [heq, addresses, hddp]
      rw [hold]
      exact (Items.update_grows cfg dataItems ddp.items).mono (fun a ha => ⟨heq, ha⟩)
    . exact .refl _ _
  . cases h

theorem addresses_updateAllDestinations {updates : List DataItem}
    (h : ∀ di ∈ updates, cfg.isMetric di.id = true)
    (pdp : PeerData) (destination : Option DlepMac)
    : (pdp.updateAllDestinations cfg updates).addresses destination = pdp.addresses destination := by
  have hone : ∀ (pdp : PeerData) mac,
    ((pdp.updateDestination cfg mac updates).getD pdp).addresses destination
      = pdp.addresses destination := by
    intro pdp mac
    unfold updateDestination
    split
    . next ddp hddp =>
      rw [Option.getD_some, addresses_set]
      split
      . next heq =>
        simp only [DestinationData.update, Items.update_metrics h]
        simp [heq, addresses, hddp]
      . rfl
    . rfl
  have hall : ∀ (macs : List DlepMac) (pdp : PeerData),
      (macs.foldl (fun pdp mac => (pdp.updateDestination cfg mac updates).getD pdp) pdp).addresses
        destination
        = pdp.addresses destination := by
    intro macs
    induction macs with
    | nil => exact fun pdp => rfl
    | cons mac macs ih => exact fun pdp => (ih _).trans (hone pdp mac)
  exact hall _ pdp

theorem updateDataItems_grows (cfg : SessionConfig) (pdp : PeerData) (dataItems : List DataItem)
    (destination : Option DlepMac)
    : Grows DataItem.ipEqual (fun a => destination = none ∧ a ∈ added cfg dataItems)
        (pdp.addresses destination)
        ((pdp.updateDataItems cfg dataItems).2.addresses destination) := by
  have hitems : Grows DataItem.ipEqual (fun a => destination = none ∧ a ∈ added cfg dataItems)
    (pdp.addresses destination)
      (({ pdp with items := pdp.items.update cfg dataItems } : PeerData).addresses destination) := by
    cases destination with
    | none => exact (Items.update_grows cfg dataItems pdp.items).mono (fun a ha => ⟨rfl, ha⟩)
    | some mac => exact .refl _ _
  unfold updateDataItems
  split
  . exact .refl _ _
  . simp only
    split
    . exact hitems
    . rw [addresses_updateAllDestinations]
      . exact hitems
      . intro di hdi
        simpa using (List.mem_filter.mp hdi).2

theorem create_grows (cfg : SessionConfig) (peerId : Option PeerId) (dataItems : List DataItem)
    (l : List DataItem)
    (destination : Option DlepMac)
    : Grows DataItem.ipEqual (fun a => destination = none ∧ a ∈ added cfg dataItems) l
        ((create cfg peerId dataItems).addresses destination) := by
  apply Grows.of_nil
  cases destination with
  | none => exact (Items.update_grows cfg dataItems .empty).mono (fun a ha => ⟨rfl, ha⟩)
  | some mac => exact .refl _ _

theorem ipEqual_of_findIpDataItem {di : DataItem} (h : pdp.findIpDataItem di = none)
    (destination : Option DlepMac)
    : ∀ a ∈ pdp.addresses destination, di.ipEqual a = false := by
  unfold findIpDataItem at h
  split at h
  . cases h
  . next hself =>
    rw [Option.map_eq_none_iff, List.find?_eq_none] at h
    cases destination with
    | none => simpa [DataItem.findIpDataItem, addresses] using hself
    | some mac =>
      intro a ha
      unfold addresses at ha
      cases hddp : pdp.destinationData.find? mac with
      | none => simp [hddp] at ha
      | some ddp =>
        simp only [hddp, Option.map_some, Option.getD_some] at ha
        have hnot := h (mac, ddp) ((SortedMap.find?_eq_some_iff _ _ _).mp hddp)
        simp only [DataItem.findIpDataItem, Bool.not_eq_true, List.any_eq_false] at hnot
        simpa using hnot a ha

end PeerData

structure IpKey where
  valueType : DataItemValueType
  address : AddressV4 ⊕ AddressV6
  prefixLength : Option UInt8
  deriving DecidableEq

namespace DataItem

def ipKey (di : DataItem) : Option IpKey :=
  match di.value with
  | .div_u8_ipv4 _ field2 => some ⟨.div_u8_ipv4, .inl field2, none⟩
  | .div_ipv4_u8 field1 field2 => some ⟨.div_ipv4_u8, .inl field1, some field2⟩
  | .div_u8_ipv6 _ field2 => some ⟨.div_u8_ipv6, .inr field2, none⟩
  | .div_ipv6_u8 field1 field2 => some ⟨.div_ipv6_u8, .inr field1, some field2⟩
  | .div_u8_ipv4_u8 _ field2 field3 => some ⟨.div_u8_ipv4_u8, .inl field2, some field3⟩
  | .div_u8_ipv6_u8 _ field2 field3 => some ⟨.div_u8_ipv6_u8, .inr field2, some field3⟩
  | _ => none

def SameIp (a b : DataItem) : Prop :=
  ∃ k, a.ipKey = some k ∧ b.ipKey = some k

def OmitsPrefix (a b : DataItem) : Prop :=
  match a.value, b.value with
  | .div_ipv4_u8 field1 field2, .div_ipv4_u8 field1' field2' => field1 = field1' ∧ field2 ≠ field2'
  | .div_ipv6_u8 field1 field2, .div_ipv6_u8 field1' field2' => field1 = field1' ∧ field2 ≠ field2'
  | _, _ => False

theorem ipEqual_iff (a b : DataItem) : a.ipEqual b = true ↔ a.SameIp b ∨ OmitsPrefix a b := by
  obtain ⟨id, value⟩ := a
  obtain ⟨id', value'⟩ := b
  cases value <;> cases value' <;> simp [ipEqual, SameIp, ipKey, OmitsPrefix] <;> grind

theorem ipKey_of_omitsPrefix {a b : DataItem} (h : OmitsPrefix a b)
    : ∃ k k', a.ipKey = some k ∧ b.ipKey = some k' ∧ k ≠ k' := by
  obtain ⟨id, value⟩ := a
  obtain ⟨id', value'⟩ := b
  cases value <;> cases value' <;> simp_all [ipKey, OmitsPrefix]

theorem not_sameIp_of_omitsPrefix {a b : DataItem} (h : OmitsPrefix a b) : ¬ a.SameIp b := by
  rintro ⟨k, ha, hb⟩
  obtain ⟨k', k'', hk', hk'', hne⟩ := ipKey_of_omitsPrefix h
  apply hne
  rw [← Option.some.injEq, ← hk', ← hk'', ha, hb]

theorem sameIp_of_ipEqual_iff {a b : DataItem}
    : (a.ipEqual b = true → a.SameIp b) ↔ ¬ OmitsPrefix a b := by
  rw [ipEqual_iff]
  constructor
  . intro himp homits
    exact not_sameIp_of_omitsPrefix homits (himp (Or.inr homits))
  . exact fun homits h => h.resolve_right homits

theorem ipEqual_sameIp_iff (a b : DataItem) : (a.ipEqual b = true ↔ a.SameIp b) ↔ ¬ OmitsPrefix a b := by
  rw [ipEqual_iff]
  constructor
  . intro hiff homits
    exact not_sameIp_of_omitsPrefix homits (hiff.mp (Or.inr homits))
  . intro homits
    exact or_iff_left homits

theorem isAdd_eq_false {di : DataItem} (h : di.ipKey = none) : di.isAdd = false := by
  obtain ⟨id, value⟩ := di
  cases value <;> simp_all [ipKey, isAdd, ipFlags]

theorem ipEqual_eq_false {di : DataItem} (h : di.ipKey = none) (other : DataItem)
    : other.ipEqual di = false := by
  obtain ⟨id, value⟩ := di
  obtain ⟨id', value'⟩ := other
  cases value <;> cases value' <;> simp_all [ipKey, ipEqual]

theorem ipEqual_trans {a b c : DataItem} (h : a.ipEqual b = true) (h' : b.ipEqual c = true)
    : a.ipEqual c = true := by
  obtain ⟨id, value⟩ := a
  obtain ⟨id', value'⟩ := b
  obtain ⟨id'', value''⟩ := c
  cases value <;> cases value' <;> simp only [ipEqual, Bool.false_eq_true] at h <;>
    cases value'' <;> simp_all [ipEqual]

def updateSet (s : Set IpKey) (di : DataItem) : Set IpKey :=
  match di.ipKey with
  | none => s
  | some k => if di.isAdd then insert k s else s \ {k}

end DataItem

open DataItem

def Apart (ipDataItems : List DataItem) (di : DataItem) : Prop :=
  ∀ other ∈ ipDataItems, other.ipEqual di = true → other.SameIp di

abbrev Once (ipDataItems : List DataItem) : Prop :=
  ipDataItems.Pairwise (fun a b => a.ipEqual b = false)

theorem once_class {ipDataItems : List DataItem} (h : Once ipDataItems) (di : DataItem)
    : ipDataItems.Pairwise (fun a b => a.ipEqual di = true → b.ipEqual di = false) := by
  apply h.imp
  intro a b hab ha
  by_contra hb
  rw [Bool.not_eq_false, ipEqual_comm] at hb
  rw [ipEqual_trans ha hb] at hab
  cases hab

theorem eq_of_ipEqual {ipDataItems : List DataItem} (h : Once ipDataItems) {a b : DataItem}
    (ha : a ∈ ipDataItems) (hb : b ∈ ipDataItems)
    (heq : a.ipEqual b = true)
    : a = b := by
  by_contra hne
  have : Std.Symm (fun a b : DataItem => a.ipEqual b = false) :=
    ⟨fun a b hab => by rw [ipEqual_comm]; exact hab⟩
  have hdiffers : a.ipEqual b = false := h.forall ha hb hne
  rw [heq] at hdiffers
  cases hdiffers

section

variable {ipDataItems : List DataItem} {s : Set IpKey} {di : DataItem} {k : IpKey}

theorem ipEqual_iff_of_apart (hapart : Apart ipDataItems di) (hk : di.ipKey = some k)
    {other : DataItem} (hother : other ∈ ipDataItems)
    : other.ipEqual di = true ↔ other.ipKey = some k := by
  constructor
  . intro heq
    obtain ⟨k', hk', hk''⟩ := hapart other hother heq
    rw [hk', ← hk'', hk]
  . exact fun hkey => (ipEqual_iff other di).mpr (Or.inl ⟨k, hkey, hk⟩)

theorem represents_updateIpDataItems (h : Represents ipKey ipDataItems s) (honce : Once ipDataItems)
    (hapart : Apart ipDataItems di)
    : Represents ipKey (updateIpDataItems ipDataItems di) (updateSet s di) := by
  unfold updateIpDataItems updateSet
  cases hk : di.ipKey with
  | none =>
    have hany : ipDataItems.any (fun other => other.ipEqual di) = false := by simp [ipEqual_eq_false hk]
    rw [hany, isAdd_eq_false hk]
    exact h
  | some k =>
    have hiff : ∀ other ∈ ipDataItems, other.ipEqual di = true ↔ other.ipKey = some k :=
      fun other hother => ipEqual_iff_of_apart hapart hk hother
    have hany : (ipDataItems.any (fun other => other.ipEqual di) = true) ↔ k ∈ s := by
      rw [List.any_eq_true, h.mem_iff]
      exact exists_congr (fun other => and_congr_right (fun hother => hiff other hother))
    simp only
    split
    . next hthere =>
      have hmem : k ∈ s := hany.mp hthere
      split
      . rw [Set.insert_eq_of_mem hmem]
        exact h
      . have hfilter : ipDataItems.eraseP (fun other => other.ipEqual di) = ipDataItems.filter
            (fun other => other.ipKey ≠ some k) := by
          rw [eraseP_eq_filter (once_class honce di)]
          apply List.filter_congr
          intro other hother
          rw [Bool.eq_iff_iff, Bool.not_eq_true', decide_eq_true_eq, ← Bool.not_eq_true,
            hiff other hother]
        rw [hfilter]
        exact h.filter k
    . next hthere =>
      have hnew : k ∉ s := fun hmem => hthere (hany.mpr hmem)
      split
      . exact h.concat hk hnew
      . rw [Set.sdiff_singleton_eq_self hnew]
        exact h

theorem once_updateIpDataItems (h : Once ipDataItems) (di : DataItem)
    : Once (updateIpDataItems ipDataItems di) := by
  have hgrows := @updateIpDataItems_grows (fun _ => True) di (fun _ => trivial) ipDataItems
  exact hgrows.once h

theorem apart_of_represents (h : Represents ipKey ipDataItems s) (honce : Once ipDataItems)
    (h' : Represents ipKey (updateIpDataItems ipDataItems di) (updateSet s di))
    : Apart ipDataItems di := by
  intro other hother heq
  by_contra hdiffers
  have homits : OmitsPrefix other di := ((ipEqual_iff other di).mp heq).resolve_left hdiffers
  obtain ⟨k, k', hk, hk', hne⟩ := ipKey_of_omitsPrefix homits
  have hnew : k' ∉ s := by
    intro hmem
    obtain ⟨twin, htwin, hkey⟩ := (h.mem_iff k').mp hmem
    have hsame : twin.ipEqual other = true := by
      apply ipEqual_trans ((ipEqual_iff twin di).mpr (Or.inl ⟨k', hkey, hk'⟩))
      rw [ipEqual_comm]
      exact heq
    obtain rfl : twin = other := eq_of_ipEqual honce htwin hother hsame
    exact hne (Option.some.inj (hk.symm.trans hkey))
  have hany : ipDataItems.any (fun other => other.ipEqual di) = true := List.any_eq_true.mpr
    ⟨other, hother, heq⟩
  unfold updateIpDataItems updateSet at h'
  rw [if_pos hany, hk'] at h'
  split at h'
  . obtain ⟨twin, htwin, hkey⟩ := (h'.mem_iff k').mp (Set.mem_insert k' s)
    exact hnew (h.mem htwin hkey)
  . have hmem : k ∈ s \ {k'} := ⟨h.mem hother hk, hne⟩
    obtain ⟨twin, htwin, hkey⟩ := (h'.mem_iff k).mp hmem
    rw [eraseP_eq_filter (once_class honce di)] at htwin
    obtain ⟨htwin, hdiffers'⟩ := List.mem_filter.mp htwin
    obtain rfl : twin = other := h.eq_of_key htwin hother hkey hk
    rw [heq] at hdiffers'
    cases hdiffers'

end

def SessionConfig.isAddressUpdate (cfg : SessionConfig) (di : DataItem) : Bool :=
  !cfg.isMetric di.id && cfg.isIpaddr di.id

def addressSet (cfg : SessionConfig) (updates : List DataItem) : Set IpKey :=
  (updates.filter cfg.isAddressUpdate).foldl updateSet ∅

section

variable {cfg : SessionConfig}

theorem addressSet_concat (updates : List DataItem) (di : DataItem)
    : addressSet cfg (updates ++ [di]) = if cfg.isAddressUpdate di
        then updateSet (addressSet cfg updates) di else addressSet cfg updates := by
  unfold addressSet
  rw [List.filter_append, List.foldl_append]
  split
  . next h => rw [List.filter_singleton, h, cond_true, List.foldl_cons, List.foldl_nil]
  . next h => rw [List.filter_singleton, Bool.eq_false_of_not_eq_true h, cond_false, List.foldl_nil]

theorem ipDataItems_updateOne (items : Items) (di : DataItem)
    : (items.updateOne cfg di).ipDataItems
        =
      if cfg.isAddressUpdate di then updateIpDataItems items.ipDataItems di else items.ipDataItems := by
  unfold Items.updateOne SessionConfig.isAddressUpdate
  cases cfg.isMetric di.id
  . cases cfg.isIpaddr di.id
    . rfl
    . rfl
  . rfl

theorem update_concat (items : Items) (updates : List DataItem) (di : DataItem)
    : items.update cfg (updates ++ [di]) = (items.update cfg updates).updateOne cfg di := by
  unfold Items.update
  rw [List.foldl_append]
  rfl

def KeepsSet (cfg : SessionConfig) (updates : List DataItem) : Prop :=
  ∀ fed later, updates = fed ++ later
    → Represents ipKey (Items.empty.update cfg fed).ipDataItems (addressSet cfg fed)

theorem keepsSet_iff (cfg : SessionConfig) (updates : List DataItem)
    : KeepsSet cfg updates
        ↔
      ∀ fed di later, updates = fed ++ di :: later → cfg.isAddressUpdate di = true
          → Apart (Items.empty.update cfg fed).ipDataItems di := by
  apply @forall_fed_inv_iff _ _ (fun fed => Once (Items.empty.update cfg fed).ipDataItems)
  . exact .nil
  . exact List.Pairwise.nil
  . intro fed di later _ honce h
    rw [update_concat, ipDataItems_updateOne, addressSet_concat]
    split
    . next hupdate =>
      refine ⟨⟨fun h' _ => apart_of_represents h honce h', fun hapart => ?_⟩,
        fun _ => once_updateIpDataItems honce di⟩
      exact represents_updateIpDataItems h honce (hapart hupdate)
    . next hupdate => exact ⟨iff_of_true h (fun htrue => absurd htrue hupdate), fun _ => honce⟩

end

/--
Two data items are equal if and only if they are about the same address, unless it is the prefix
of a subnet without flags that makes the difference; and the list of an owner is the set of its
addresses if and only if no such subnets meet in it.
-/
theorem ip_identity_iff (cfg : SessionConfig)
    : (∀ a b : DataItem, (a.ipEqual b = true ↔ a.SameIp b) ↔ ¬ OmitsPrefix a b)
        ∧ ∀ updates : List DataItem,
        KeepsSet cfg updates
          ↔
        ∀ fed di later, updates = fed ++ di :: later → cfg.isAddressUpdate di = true →
          ∀ other ∈ (Items.empty.update cfg fed).ipDataItems, ¬ OmitsPrefix other di := by
  refine ⟨ipEqual_sameIp_iff, fun updates => ?_⟩
  rw [keepsSet_iff]
  unfold Apart
  simp only [sameIp_of_ipEqual_iff]

theorem not_ip_identity : ¬ ∀ a b : DataItem, a.ipEqual b = true ↔ a.SameIp b := by
  intro h
  have hsame :=
    (h ⟨10, .div_ipv4_u8 ⟨[10, 0, 0, 0], rfl⟩ 8⟩ ⟨10, .div_ipv4_u8 ⟨[10, 0, 0, 0], rfl⟩ 16⟩).mp rfl
  apply not_sameIp_of_omitsPrefix _ hsame
  exact ⟨rfl, by decide⟩

end Dlep
end Emane

import Emane.Dlep.Impl.DestAdvert
import Emane.Dlep.Lemmas.Address

/-!
This module contains what the addresses in an advertisement do to an entry.
-/

namespace Emane
namespace Dlep

open DataItem

def about (k : IpKey) (ipdis : List DataItem) : List DataItem :=
  ipdis.filter (fun di => di.ipKey = some k)

theorem mem_about {k : IpKey} {ipdis : List DataItem} {di : DataItem}
    : di ∈ about k ipdis ↔ di ∈ ipdis ∧ di.ipKey = some k := by
  simp [about]

theorem mem_foldl_updateSet (ipdis : List DataItem) (s : Set IpKey) (k : IpKey)
    : k ∈ ipdis.foldl updateSet s ↔ match (about k ipdis).getLast? with
        | none => k ∈ s
        | some di => di.isAdd = true := by
  induction ipdis using List.reverseRecOn with
  | nil => rfl
  | append_singleton ipdis di ih =>
    rw [List.foldl_append, List.foldl_cons, List.foldl_nil]
    unfold about
    rw [List.filter_append, List.filter_singleton]
    by_cases hk : di.ipKey = some k
    . simp only [updateSet, hk]
      cases hadd : di.isAdd with
      | true => simp [hadd]
      | false => simp [hadd]
    . rw [decide_eq_false hk, cond_false, List.append_nil]
      refine Iff.trans ?_ ih
      unfold updateSet
      cases hkey : di.ipKey with
      | none => rfl
      | some k' =>
        have hne : k ≠ k' := fun heq => hk (heq ▸ hkey)
        cases di.isAdd with
        | true => simp [hne]
        | false => simp [hne]

namespace DataItem

theorem ipKey_isSome_of_ipFlags {di : DataItem} (h : di.ipFlags = 1) : di.ipKey.isSome = true := by
  obtain ⟨id, value⟩ := di
  cases value <;> simp_all [ipKey, ipFlags]

theorem isAdd_of_ipFlags {di : DataItem} (h : di.ipFlags = 1) : di.isAdd = true := by
  unfold isAdd
  rw [h]
  rfl

theorem eq_of_sameIp {a b : DataItem} (hid : a.id = b.id) (hflags : a.ipFlags = b.ipFlags)
    (h : a.SameIp b) : a = b := by
  obtain ⟨k, ha, hb⟩ := h
  have hkey : a.ipKey = b.ipKey := ha.trans hb.symm
  have hsome : a.ipKey ≠ none := by simp [ha]
  clear ha hb
  obtain ⟨id, value⟩ := a
  obtain ⟨id', value'⟩ := b
  cases value <;> cases value' <;> simp_all [ipKey, ipFlags]

theorem ipFlags_of_omitsPrefix {a b : DataItem} (h : OmitsPrefix a b) : a.ipFlags = 1 := by
  obtain ⟨id, value⟩ := a
  obtain ⟨id', value'⟩ := b
  cases value <;> cases value' <;> simp_all [ipFlags, OmitsPrefix]

end DataItem
namespace DestAdvert

section

variable (cfg : AdvertConfig)

/--
The data items stand for a set of addresses: those with an address, and no others, have one of the
names, and all of them are adds.
-/
structure Holds (dataItems : List DataItem) (s : Set IpKey) : Prop where
  represents : Represents ipKey (dataItems.filter (fun di => isIpDataItem cfg di)) s
  named : ∀ di ∈ dataItems, di.ipKey.isSome = true → isIpDataItem cfg di = true
  adds : ∀ di ∈ dataItems, di.ipKey.isSome = true → di.ipFlags = 1

structure Clean (dataItems ipdis : List DataItem) : Prop where
  named : ∀ di ∈ ipdis, di.ipKey.isSome = true → isIpDataItem cfg di = true
  sameId : ∀ di ∈ ipdis, ∀ di' ∈ ipdis ++ dataItems, di.SameIp di' → di.id = di'.id
  flags : ∀ di ∈ ipdis, di.isAdd = true → di.ipFlags = 1

end

/--
What one list needs: an address that is held is only added, or the last word on it is a drop; one
that is not held is only dropped before the last word on it.
-/
def Settled (s : Set IpKey) (ipdis : List DataItem) : Prop :=
  ∀ k,
    (k ∈ s → (∀ di ∈ about k ipdis, di.isAdd = true) ∨ ∃ di, (about k ipdis).getLast? = some di
      ∧ di.isAdd = false)
      ∧ (k ∉ s → ∀ di ∈ (about k ipdis).dropLast, di.isAdd = false)

section

variable {cfg : AdvertConfig} {dataItems ipdis : List DataItem} {s : Set IpKey}

def ipdisAdd (dataItems ipdis : List DataItem) : List DataItem :=
  ipdis.filter (fun ipdi => decide (ipdi.ipFlags = 1) && !dataItems.contains ipdi)

def ipdisRemove (dataItems ipdis : List DataItem) : List DataItem :=
  ipdis.flatMap
    (fun ipdi => if ipdi.ipFlags = 1 then [] else dataItems.filter (fun di => ipdi.ipEqual di))

theorem updateIpParameters_eq (dataItems ipdis : List DataItem)
    : updateIpParameters dataItems ipdis
        =
      (dataItems ++ ipdisAdd dataItems ipdis).filter
          (fun di => !(ipdisRemove dataItems ipdis).contains di) := by
  exact foldl_filter_ne _ _

theorem mem_ipdisAdd {di : DataItem}
    : di ∈ ipdisAdd dataItems ipdis ↔ di ∈ ipdis ∧ di.ipFlags = 1 ∧ di ∉ dataItems := by
  simp [ipdisAdd]

theorem mem_ipdisRemove {di : DataItem}
    : di ∈ ipdisRemove dataItems ipdis ↔ di ∈ dataItems ∧ ∃ ipdi ∈ ipdis, ipdi.ipFlags ≠ 1
        ∧ ipdi.ipEqual di = true := by
  unfold ipdisRemove
  rw [List.mem_flatMap]
  constructor
  . rintro ⟨ipdi, hipdi, hdi⟩
    split at hdi
    . cases hdi
    . next hflags =>
      obtain ⟨hdi, heq⟩ := List.mem_filter.mp hdi
      exact ⟨hdi, ipdi, hipdi, hflags, heq⟩
  . rintro ⟨hdi, ipdi, hipdi, hflags, heq⟩
    refine ⟨ipdi, hipdi, ?_⟩
    rw [if_neg hflags]
    exact List.mem_filter.mpr ⟨hdi, heq⟩

theorem mem_updateIpParameters {di : DataItem}
    : di ∈ updateIpParameters dataItems ipdis
        ↔
      (di ∈ dataItems ∨ di ∈ ipdisAdd dataItems ipdis) ∧ di ∉ ipdisRemove dataItems ipdis := by
  rw [updateIpParameters_eq, List.mem_filter, List.mem_append, Bool.not_eq_true',
    List.contains_eq_mem, decide_eq_false_iff_not]

theorem mem_ipdisRemove_iff (hclean : Clean cfg dataItems ipdis) {di : DataItem} {k : IpKey}
    (hdi : di ∈ dataItems)
    (hk : di.ipKey = some k)
    : di ∈ ipdisRemove dataItems ipdis ↔ ∃ ipdi ∈ about k ipdis, ipdi.isAdd = false := by
  rw [mem_ipdisRemove]
  constructor
  . rintro ⟨-, ipdi, hipdi, hflags, heq⟩
    have hsame : ipdi.SameIp di := ((ipEqual_iff ipdi di).mp heq).resolve_right
      (fun homits => hflags (ipFlags_of_omitsPrefix homits))
    obtain ⟨k', hk', hk''⟩ := hsame
    obtain rfl := Option.some.inj (hk''.symm.trans hk)
    refine ⟨ipdi, mem_about.mpr ⟨hipdi, hk'⟩, ?_⟩
    by_contra hadd
    exact hflags (hclean.flags ipdi hipdi (Bool.eq_true_of_not_eq_false hadd))
  . rintro ⟨ipdi, hipdi, hdrop⟩
    obtain ⟨hipdi, hk'⟩ := mem_about.mp hipdi
    refine ⟨hdi, ipdi, hipdi, ?_, (ipEqual_iff ipdi di).mpr (Or.inl ⟨k, hk', hk⟩)⟩
    intro hflags
    rw [isAdd_of_ipFlags hflags] at hdrop
    cases hdrop

theorem exists_mem_filter_iff
    (h : ∀ di ∈ dataItems, di.ipKey.isSome = true → isIpDataItem cfg di = true) (k : IpKey)
    : (∃ di ∈ dataItems.filter (fun di => isIpDataItem cfg di), di.ipKey = some k)
        ↔ ∃ di ∈ dataItems, di.ipKey = some k := by
  constructor
  . rintro ⟨di, hdi, hk⟩
    exact ⟨di, (List.mem_filter.mp hdi).1, hk⟩
  . rintro ⟨di, hdi, hk⟩
    exact ⟨di, List.mem_filter.mpr ⟨hdi, h di hdi (Option.isSome_of_eq_some hk)⟩, hk⟩

theorem Holds.mem_iff (h : Holds cfg dataItems s) (k : IpKey)
    : k ∈ s ↔ ∃ di ∈ dataItems, di.ipKey = some k := by
  rw [h.represents.mem_iff]
  exact exists_mem_filter_iff h.named k

theorem key_ipdisAdd (h : Holds cfg dataItems s) (hclean : Clean cfg dataItems ipdis)
    {di : DataItem} (hdi : di ∈ ipdisAdd dataItems ipdis)
    {k : IpKey} (hk : di.ipKey = some k)
    : k ∉ s := by
  intro hmem
  obtain ⟨hipdi, hflags, hnew⟩ := mem_ipdisAdd.mp hdi
  obtain ⟨other, hother, hk'⟩ := (h.mem_iff k).mp hmem
  have hsame : di.SameIp other := ⟨k, hk, hk'⟩
  have hid := hclean.sameId di hipdi other (List.mem_append_right _ hother) hsame
  have heq := eq_of_sameIp hid
    (hflags.trans (h.adds other hother (Option.isSome_of_eq_some hk')).symm) hsame
  exact hnew (heq ▸ hother)

theorem length_ipdisAdd_le (h : Holds cfg dataItems s) (hclean : Clean cfg dataItems ipdis)
    (hsettled : Settled s ipdis) (k : IpKey)
    : ((ipdisAdd dataItems ipdis).filter (fun di => di.ipKey = some k)).length ≤ 1 := by
  by_cases hmem : k ∈ s
  . have hnil : (ipdisAdd dataItems ipdis).filter (fun di => di.ipKey = some k) = [] := by
      rw [List.filter_eq_nil_iff]
      intro di hdi hk
      exact key_ipdisAdd h hclean hdi (of_decide_eq_true hk) hmem
    rw [hnil]
    exact Nat.zero_le 1
  . have hsublist : ((ipdisAdd dataItems ipdis).filter (fun di => di.ipKey = some k)).Sublist
        ((about k ipdis).filter isAdd) := by
      unfold ipdisAdd about
      rw [List.filter_filter, List.filter_filter]
      apply List.monotone_filter_right
      intro di hdi
      simp only [Bool.and_eq_true, decide_eq_true_eq] at hdi ⊢
      exact ⟨isAdd_of_ipFlags hdi.2.1, hdi.1⟩
    apply hsublist.length_le.trans
    have hbefore := (hsettled k).2 hmem
    rcases List.eq_nil_or_concat' (about k ipdis) with hnil | ⟨before, last, heq⟩
    . rw [hnil]
      exact Nat.zero_le 1
    . rw [heq, List.dropLast_concat] at hbefore
      have hnil : before.filter isAdd = [] := by
        rw [List.filter_eq_nil_iff]
        intro di hdi
        rw [hbefore di hdi]
        exact Bool.false_ne_true
      rw [heq, List.filter_append, hnil, List.nil_append]
      exact List.length_filter_le _ _

theorem exists_mem_updateIpParameters_iff (h : Holds cfg dataItems s)
    (hclean : Clean cfg dataItems ipdis) (hsettled : Settled s ipdis)
    (k : IpKey)
    : (∃ di ∈ updateIpParameters dataItems ipdis, di.ipKey = some k) ↔ k ∈ ipdis.foldl updateSet s := by
  rw [mem_foldl_updateSet]
  by_cases hmem : k ∈ s
  . have hadds : (∃ di ∈ updateIpParameters dataItems ipdis, di.ipKey = some k)
        ↔ ∀ ipdi ∈ about k ipdis, ipdi.isAdd = true := by
      constructor
      . rintro ⟨di, hdi, hk⟩ ipdi hipdi
        obtain ⟨hdi | hdi, hkept⟩ := mem_updateIpParameters.mp hdi
        . by_contra hdrop
          exact hkept ((mem_ipdisRemove_iff hclean hdi hk).mpr
            ⟨ipdi, hipdi, Bool.eq_false_of_not_eq_true hdrop⟩)
        . exact absurd hmem (key_ipdisAdd h hclean hdi hk)
      . intro hall
        obtain ⟨di, hdi, hk⟩ := (h.mem_iff k).mp hmem
        refine ⟨di, mem_updateIpParameters.mpr ⟨Or.inl hdi, ?_⟩, hk⟩
        rw [mem_ipdisRemove_iff hclean hdi hk]
        rintro ⟨ipdi, hipdi, hdrop⟩
        rw [hall ipdi hipdi] at hdrop
        cases hdrop
    rw [hadds]
    cases hlast : (about k ipdis).getLast? with
    | none =>
      rw [List.getLast?_eq_none_iff] at hlast
      simp [hlast, hmem]
    | some last =>
      have hself := List.mem_of_getLast? hlast
      rcases (hsettled k).1 hmem with hall | ⟨last', hlast', hdrop⟩
      . exact iff_of_true hall (hall last hself)
      . obtain rfl := Option.some.inj (hlast.symm.trans hlast')
        apply iff_of_false
        . intro hall
          rw [hall last hself] at hdrop
          cases hdrop
        . exact fun hadd => Bool.false_ne_true (hdrop.symm.trans hadd)
  . have hadds : (∃ di ∈ updateIpParameters dataItems ipdis, di.ipKey = some k)
        ↔ ∃ ipdi ∈ about k ipdis, ipdi.isAdd = true := by
      constructor
      . rintro ⟨di, hdi, hk⟩
        obtain ⟨hdi | hdi, -⟩ := mem_updateIpParameters.mp hdi
        . exact absurd ((h.mem_iff k).mpr ⟨di, hdi, hk⟩) hmem
        . obtain ⟨hipdi, hflags, -⟩ := mem_ipdisAdd.mp hdi
          exact ⟨di, mem_about.mpr ⟨hipdi, hk⟩, isAdd_of_ipFlags hflags⟩
      . rintro ⟨ipdi, hipdi, hadd⟩
        obtain ⟨hipdi, hk⟩ := mem_about.mp hipdi
        have hnew : ipdi ∉ dataItems := fun hdi => hmem ((h.mem_iff k).mpr ⟨ipdi, hdi, hk⟩)
        refine ⟨ipdi, mem_updateIpParameters.mpr
          ⟨Or.inr (mem_ipdisAdd.mpr ⟨hipdi, hclean.flags ipdi hipdi hadd, hnew⟩), ?_⟩, hk⟩
        exact fun hremove => hnew (mem_ipdisRemove.mp hremove).1
    rw [hadds]
    have hbefore := (hsettled k).2 hmem
    rcases List.eq_nil_or_concat' (about k ipdis) with hnil | ⟨before, last, heq⟩
    . simp [hnil, hmem]
    . rw [heq, List.dropLast_concat] at hbefore
      rw [heq, List.getLast?_concat]
      constructor
      . rintro ⟨ipdi, hipdi, hadd⟩
        rcases List.mem_append.mp hipdi with hipdi | hipdi
        . rw [hbefore ipdi hipdi] at hadd
          cases hadd
        . obtain rfl := List.mem_singleton.mp hipdi
          exact hadd
      . exact fun hadd => ⟨last, List.mem_append_right _ (List.mem_singleton_self last), hadd⟩

theorem named_updateIpParameters (h : Holds cfg dataItems s) (hclean : Clean cfg dataItems ipdis)
    : ∀ di ∈ updateIpParameters dataItems ipdis, di.ipKey.isSome = true → isIpDataItem cfg di = true := by
  intro di hdi hsome
  rcases (mem_updateIpParameters.mp hdi).1 with hdi | hdi
  . exact h.named di hdi hsome
  . exact hclean.named di (mem_ipdisAdd.mp hdi).1 hsome

theorem once_ipdisAdd (h : Holds cfg dataItems s) (hclean : Clean cfg dataItems ipdis)
    (hsettled : Settled s ipdis)
    : (dataItems.filter (fun di => isIpDataItem cfg di) ++ ipdisAdd dataItems ipdis).Pairwise
        (fun a b => ∀ k, a.ipKey = some k → b.ipKey ≠ some k) := by
  rw [List.pairwise_append]
  refine ⟨h.represents.once, pairwise_of_length_filter_le (length_ipdisAdd_le h hclean hsettled), ?_⟩
  intro a ha b hb k hka hkb
  exact key_ipdisAdd h hclean hb hkb ((h.mem_iff k).mpr ⟨a, (List.mem_filter.mp ha).1, hka⟩)

theorem Holds.updateIpParameters (h : Holds cfg dataItems s) (hclean : Clean cfg dataItems ipdis)
    (hsettled : Settled s ipdis)
    : Holds cfg (updateIpParameters dataItems ipdis) (ipdis.foldl updateSet s) where
  represents := by
    refine ⟨?_, ?_, ?_⟩
    . intro k
      rw [exists_mem_filter_iff (named_updateIpParameters h hclean),
        exists_mem_updateIpParameters_iff h hclean hsettled]
    . intro di hdi
      obtain ⟨hdi, hip⟩ := List.mem_filter.mp hdi
      rcases (mem_updateIpParameters.mp hdi).1 with hdi | hdi
      . exact h.represents.keyed di (List.mem_filter.mpr ⟨hdi, hip⟩)
      . exact ipKey_isSome_of_ipFlags (mem_ipdisAdd.mp hdi).2.1
    . refine (once_ipdisAdd h hclean hsettled).sublist ?_
      rw [updateIpParameters_eq, List.filter_comm]
      apply List.filter_sublist.trans
      rw [List.filter_append]
      exact (List.Sublist.refl _).append List.filter_sublist
  named := named_updateIpParameters h hclean
  adds di hdi hsome := by
    rcases (mem_updateIpParameters.mp hdi).1 with hdi | hdi
    . exact h.adds di hdi hsome
    . exact (mem_ipdisAdd.mp hdi).2.1

theorem others_updateIpParameters (h : Holds cfg dataItems s) (hclean : Clean cfg dataItems ipdis)
    : (DestAdvert.updateIpParameters dataItems ipdis).filter (fun di => !isIpDataItem cfg di)
        =
      dataItems.filter (fun di => !isIpDataItem cfg di) := by
  have hadds : (ipdisAdd dataItems ipdis).filter (fun di => !isIpDataItem cfg di) = [] := by
    rw [List.filter_eq_nil_iff]
    intro di hdi
    obtain ⟨hipdi, hflags, -⟩ := mem_ipdisAdd.mp hdi
    rw [hclean.named di hipdi (ipKey_isSome_of_ipFlags hflags)]
    exact Bool.false_ne_true
  rw [updateIpParameters_eq, List.filter_comm, List.filter_append, hadds, List.append_nil,
    List.filter_eq_self]
  intro di hdi
  obtain ⟨hdi, hother⟩ := List.mem_filter.mp hdi
  rw [Bool.not_eq_true', List.contains_eq_mem, decide_eq_false_iff_not]
  intro hremove
  obtain ⟨-, ipdi, -, -, heq⟩ := mem_ipdisRemove.mp hremove
  have hsome : di.ipKey.isSome = true := by
    rw [Option.isSome_iff_ne_none]
    intro hnone
    rw [ipEqual_eq_false hnone] at heq
    cases heq
  rw [h.named di hdi hsome] at hother
  cases hother

def AllSettled : Set IpKey → List (List DataItem) → Prop
  | _, [] => True
  | s, ipdis :: lists => Settled s ipdis ∧ AllSettled (ipdis.foldl updateSet s) lists

theorem Holds.updateLists {lists : List (List DataItem)} (h : Holds cfg dataItems s)
    (hclean : Clean cfg dataItems lists.flatten)
    (hsettled : AllSettled s lists)
    : Holds cfg (lists.foldl DestAdvert.updateIpParameters dataItems) (lists.flatten.foldl updateSet s)
        ∧ (lists.foldl DestAdvert.updateIpParameters dataItems).filter (fun di => !isIpDataItem cfg di)
        =
      dataItems.filter (fun di => !isIpDataItem cfg di) := by
  induction lists generalizing dataItems s with
  | nil => exact ⟨h, rfl⟩
  | cons ipdis lists ih =>
    rw [List.flatten_cons] at hclean ⊢
    have hfirst : Clean cfg dataItems ipdis := by
      refine ⟨fun di hdi => hclean.named di (by simp [hdi]), ?_, fun di hdi => hclean.flags di
        (by simp [hdi])⟩
      intro di hdi di' hdi'
      apply hclean.sameId di (by simp [hdi]) di'
      simp only [List.mem_append] at hdi' ⊢
      tauto
    have hrest : Clean cfg (DestAdvert.updateIpParameters dataItems ipdis) lists.flatten := by
      refine ⟨fun di hdi => hclean.named di (List.mem_append_right _ hdi), ?_,
        fun di hdi => hclean.flags di (List.mem_append_right _ hdi)⟩
      intro di hdi di' hdi'
      apply hclean.sameId di (List.mem_append_right _ hdi) di'
      rcases List.mem_append.mp hdi' with hdi' | hdi'
      . simp only [List.mem_append, hdi', or_true, true_or]
      . rcases (mem_updateIpParameters.mp hdi').1 with hdi' | hdi'
        . simp only [List.mem_append, hdi', or_true]
        . simp only [List.mem_append, (mem_ipdisAdd.mp hdi').1, true_or]
    obtain ⟨hholds, hothers⟩ := ih (h.updateIpParameters hfirst hsettled.1) hrest hsettled.2
    rw [List.foldl_append, List.foldl_cons]
    exact ⟨hholds, hothers.trans (others_updateIpParameters h hfirst)⟩

end

end DestAdvert
end Dlep
end Emane

import Mathlib.Algebra.BigOperators.Group.List.Basic
import Mathlib.Algebra.GroupWithZero.Nat
import Mathlib.Data.List.Nodup
import Mathlib.Data.Set.Basic
import Emane.Lib.SortedMap

/-!
This module contains what a walk over the entries of an ordered map leaves behind, what the
entries show together, and sums over them.
-/

namespace Emane

theorem foldl_iff {σ : Type u} {α : Type v} {step : σ → α → σ} {holds : σ → Prop} {adds : α → Prop}
    (hstep : ∀ s a, holds (step s a) ↔ adds a ∨ holds s) (l : List α) (s : σ)
    : holds (l.foldl step s) ↔ (∃ a ∈ l, adds a) ∨ holds s := by
  induction l generalizing s with
  | nil => simp
  | cons a l ih =>
    rw [List.foldl_cons, ih, hstep, List.exists_mem_cons_iff, or_left_comm, or_assoc]

namespace SortedMap

section

variable {κ : Type u} {ν : Type v} [LinearOrder κ]

variable {m : SortedMap κ ν} {k : κ}

theorem contains_eq_true_iff : m.contains k = true ↔ ∃ v, m.find? k = some v := by
  exact Option.isSome_iff_exists

theorem contains_eq_false_iff : m.contains k = false ↔ m.find? k = none := by
  unfold contains
  rw [Option.isSome_eq_false_iff, Option.isNone_iff_eq_none]

variable {v : ν}

theorem contains_upsert {k' : κ} {f : ν → ν}
    : (m.upsert k v f).contains k' = true ↔ k' = k ∨ m.contains k' = true := by
  unfold contains
  rw [find?_upsert]
  split
  . next h => simp [h]
  . next h => simp [h]

theorem contains_insert {m : SortedMap κ ν} {k k' : κ} {v : ν}
    : (m.insert k v).contains k' = true ↔ k' = k ∨ m.contains k' = true := by
  exact contains_upsert

theorem contains_set {k' : κ} : (m.set k v).contains k' = true ↔ k' = k ∨ m.contains k' = true := by
  exact contains_upsert

theorem find?_foldl_erase {μ : Type w} (l : List (κ × μ)) (m : SortedMap κ ν) (k : κ)
    : (l.foldl (fun m e => m.erase e.1) m).find? k = if k ∈ l.map Prod.fst then none else m.find? k := by
  induction l generalizing m with
  | nil => simp
  | cons e l ih =>
    rw [List.foldl_cons, ih, find?_erase]
    have hmem : k ∈ (e :: l).map Prod.fst ↔ k = e.1 ∨ k ∈ l.map Prod.fst := List.mem_cons
    by_cases hk : k = e.1
    . rw [if_pos hk, ite_self, if_pos (hmem.mpr (Or.inl hk))]
    . rw [if_neg hk, if_congr (hmem.trans (or_iff_right hk)) rfl rfl]

theorem mem_toList_of_find? (h : m.find? k = some v) : (k, v) ∈ m.toList := by
  exact (find?_eq_some_iff m k v).mp h

theorem find?_of_mem {e : κ × ν} (h : e ∈ m.toList) : m.find? e.1 = some e.2 := by
  exact (find?_eq_some_iff m e.1 e.2).mpr h

theorem find?_foldl_insert (l : List (κ × ν)) (m : SortedMap κ ν) (k : κ)
    : (l.foldl (fun m e => m.insert e.1 e.2) m).find? k = (m.find? k).or
        ((l.find? (fun e => e.1 = k)).map Prod.snd) := by
  induction l generalizing m with
  | nil => simp
  | cons e l ih =>
    rw [List.foldl_cons, ih, find?_insert]
    by_cases hk : k = e.1
    . rw [if_pos hk, hk, List.find?_cons_of_pos (by simp)]
      cases m.find? e.1 with
      | none => rfl
      | some v => rfl
    . rw [if_neg hk, List.find?_cons_of_neg (by simpa using Ne.symm hk)]

theorem mem_foldl_insert_empty_iff {l : List (κ × ν)} (hnodup : (l.map Prod.fst).Nodup) (e : κ × ν)
    : e ∈ (l.foldl (fun m e => m.insert e.1 e.2) empty).toList ↔ e ∈ l := by
  rw [← find?_eq_some_iff, find?_foldl_insert, find?_empty, Option.none_or]
  constructor
  . intro h
    obtain ⟨e', he', hvalue⟩ := Option.map_eq_some_iff.mp h
    have hkey : e'.1 = e.1 := by simpa using List.find?_some he'
    have heq : e' = e := Prod.ext hkey hvalue
    exact heq ▸ List.mem_of_find?_eq_some he'
  . intro hmem
    cases hfind : l.find? (fun e' => e'.1 = e.1) with
    | none =>
      have hnot := List.find?_eq_none.mp hfind e hmem
      simp at hnot
    | some e' =>
      have hkey : e'.1 = e.1 := by simpa using List.find?_some hfind
      have heq : e' = e := List.inj_on_of_nodup_map hnodup (List.mem_of_find?_eq_some hfind) hmem hkey
      rw [heq, Option.map_some]

theorem find?_foldl_set (f : ν → ν) (l : List (κ × ν)) (m : SortedMap κ ν)
    (hl : ∀ e ∈ l, m.find? e.1 = some e.2)
    (hnodup : (l.map Prod.fst).Nodup) (k : κ)
    : (l.foldl (fun m e => m.set e.1 (f e.2)) m).find? k =
        if k ∈ l.map Prod.fst then (m.find? k).map f else m.find? k := by
  induction l generalizing m with
  | nil => simp
  | cons e l ih =>
    rw [List.map_cons, List.nodup_cons] at hnodup
    have hrest : ∀ e' ∈ l, (m.set e.1 (f e.2)).find? e'.1 = some e'.2 := by
      intro e' he'
      have hne : e'.1 ≠ e.1 := by
        intro heq
        exact hnodup.1 (heq ▸ List.mem_map_of_mem he')
      rw [find?_set, if_neg hne]
      exact hl e' (by simp [he'])
    rw [List.foldl_cons, ih _ hrest hnodup.2, find?_set]
    have hmem : k ∈ (e :: l).map Prod.fst ↔ k = e.1 ∨ k ∈ l.map Prod.fst := List.mem_cons
    by_cases hk : k = e.1
    . subst hk
      rw [if_neg hnodup.1, if_pos rfl, if_pos (hmem.mpr (Or.inl rfl)), hl e (by simp)]
      rfl
    . rw [if_neg hk, if_congr (hmem.trans (or_iff_right hk)) rfl rfl]

theorem nodup_keys (m : SortedMap κ ν) : (m.toList.map Prod.fst).Nodup := by
  rw [List.nodup_iff_pairwise_ne, List.pairwise_map]
  exact m.sorted.imp (fun h => ne_of_lt h)

theorem mem_keys_iff : k ∈ m.toList.map Prod.fst ↔ m.contains k = true := by
  rw [contains_eq_true_iff, List.mem_map]
  constructor
  . rintro ⟨e, he, rfl⟩
    exact ⟨e.2, find?_of_mem he⟩
  . rintro ⟨v, hv⟩
    exact ⟨(k, v), mem_toList_of_find? hv, rfl⟩

theorem find?_foldl_set_self (f : ν → ν) (m : SortedMap κ ν) (k : κ)
    : (m.toList.foldl (fun m e => m.set e.1 (f e.2)) m).find? k = (m.find? k).map f := by
  rw [find?_foldl_set f m.toList m (fun e he => find?_of_mem he) m.nodup_keys]
  split
  . rfl
  . next h =>
    rw [mem_keys_iff, Bool.not_eq_true, contains_eq_false_iff] at h
    rw [h]
    rfl

end

section

variable {κ : Type u} {ν : Type v} {α : Type w} [LinearOrder κ] (shows : ν → Set α) (m : SortedMap κ ν)

def view : Set α :=
  {a | ∃ k v, m.find? k = some v ∧ a ∈ shows v}

def viewOthers (k : κ) : Set α :=
  {a | ∃ k' v, k' ≠ k ∧ m.find? k' = some v ∧ a ∈ shows v}

variable {shows m} {k : κ} {v : ν}

theorem view_eq_of_find? (h : m.find? k = some v) : m.view shows = shows v ∪ m.viewOthers shows k := by
  ext a
  constructor
  . rintro ⟨k', v', hfind, ha⟩
    by_cases hk : k' = k
    . subst hk
      obtain rfl := Option.some.inj (h.symm.trans hfind)
      exact Or.inl ha
    . exact Or.inr ⟨k', v', hk, hfind, ha⟩
  . rintro (ha | ⟨k', v', -, hfind, ha⟩)
    . exact ⟨k, v, h, ha⟩
    . exact ⟨k', v', hfind, ha⟩

theorem view_eq_of_none (h : m.find? k = none) : m.view shows = m.viewOthers shows k := by
  ext a
  constructor
  . rintro ⟨k', v', hfind, ha⟩
    refine ⟨k', v', ?_, hfind, ha⟩
    rintro rfl
    rw [h] at hfind
    cases hfind
  . rintro ⟨k', v', -, hfind, ha⟩
    exact ⟨k', v', hfind, ha⟩

def Updated (m n : SortedMap κ ν) (k : κ) (v : ν) : Prop :=
  ∀ k', n.find? k' = if k' = k then some v else m.find? k'

theorem updated_set (m : SortedMap κ ν) (k : κ) (v : ν) : Updated m (m.set k v) k v := by
  exact fun k' => find?_set m k k' v

variable {v' : ν}

theorem Updated.trans {n o : SortedMap κ ν} (h : Updated m n k v) (h' : Updated n o k v')
    : Updated m o k v' := by
  intro k'
  rw [h' k', h k']
  split
  . rfl
  . rfl

variable {n : SortedMap κ ν}

theorem Updated.find?_self (h : Updated m n k v) : n.find? k = some v := by
  rw [h k, if_pos rfl]

theorem Updated.find?_cases (h : Updated m n k v) {k' : κ} (hfind : n.find? k' = some v')
    : (k' = k ∧ v' = v) ∨ (k' ≠ k ∧ m.find? k' = some v') := by
  rw [h k'] at hfind
  split at hfind
  . next heq => exact Or.inl ⟨heq, (Option.some.inj hfind).symm⟩
  . next hne => exact Or.inr ⟨hne, hfind⟩

theorem Updated.view (h : Updated m n k v) : n.view shows = shows v ∪ m.viewOthers shows k := by
  have hothers : n.viewOthers shows k = m.viewOthers shows k := by
    ext a
    constructor
    . rintro ⟨k', v', hk, hfind, ha⟩
      rw [h k', if_neg hk] at hfind
      exact ⟨k', v', hk, hfind, ha⟩
    . rintro ⟨k', v', hk, hfind, ha⟩
      refine ⟨k', v', hk, ?_, ha⟩
      rw [h k', if_neg hk]
      exact hfind
  rw [view_eq_of_find? h.find?_self, hothers]

theorem Updated.view_same (h : Updated m n k v') (hfind : m.find? k = some v) (hsame : shows v' = shows v)
    : n.view shows = m.view shows := by
  rw [h.view, view_eq_of_find? hfind, hsame]

theorem Updated.view_new (h : Updated m n k v) (hfind : m.find? k = none)
    : n.view shows = shows v ∪ m.view shows := by
  rw [h.view, view_eq_of_none hfind]

@[simp]
theorem view_empty : (empty : SortedMap κ ν).view shows = ∅ := by
  ext a
  simp [view]

variable {mine before after others : Set α}

theorem replace_subset (h : mine ⊆ before ∪ others)
    : (mine ∪ (after \ before)) \ (before \ after) ⊆ after ∪ others := by
  intro a ha
  have hmine := @h a
  simp only [Set.mem_sdiff, Set.mem_union] at ha hmine ⊢
  tauto

theorem subset_replace (h : before ∪ others ⊆ mine) (hothers : ∀ a ∈ before \ after, a ∉ others)
    : after ∪ others ⊆ (mine ∪ (after \ before)) \ (before \ after) := by
  intro a ha
  have hmine := @h a
  have hother := hothers a
  simp only [Set.mem_sdiff, Set.mem_union] at ha hmine hother ⊢
  tauto

theorem remove_subset (h : mine ⊆ before ∪ others) : mine \ before ⊆ others := by
  rintro a ⟨hmem, hnot⟩
  exact (h hmem).resolve_left hnot

theorem subset_remove (h : before ∪ others ⊆ mine) (hothers : ∀ a ∈ before, a ∉ others)
    : others ⊆ mine \ before := by
  intro a ha
  exact ⟨h (Or.inr ha), fun hmem => hothers a hmem ha⟩

end

variable {κ : Type u} {ν : Type v} [LinearOrder κ]

def total (m : SortedMap κ ν) (weight : κ → ν → Nat) : Nat :=
  (m.toList.map (fun e => weight e.1 e.2)).sum

def weightAt (m : SortedMap κ ν) (weight : κ → ν → Nat) (k : κ) : Nat :=
  match m.find? k with
  | some v => weight k v
  | none => 0

variable {m : SortedMap κ ν} {weight : κ → ν → Nat} {k : κ} {v : ν}

theorem weightAt_of_some (h : m.find? k = some v) : m.weightAt weight k = weight k v := by
  unfold weightAt
  rw [h]

theorem weightAt_of_none (h : m.find? k = none) : m.weightAt weight k = 0 := by
  unfold weightAt
  rw [h]

theorem upsert.sum_go (k : κ) (v : ν) (f : ν → ν) {l : List (κ × ν)}
    (h : l.Pairwise (fun a b => a.1 < b.1))
    : ((go k v f l).map (fun e => weight e.1 e.2)).sum + (weightAt ⟨l, h⟩ weight k)
        =
      (l.map (fun e => weight e.1 e.2)).sum + weight k (((find? ⟨l, h⟩ k).map f).getD v) := by
  induction l with
  | nil => simp [go, weightAt, find?]
  | cons hd tl ih =>
    obtain ⟨k', v'⟩ := hd
    have htl := (List.pairwise_cons.mp h).2
    unfold go
    split
    . next hlt =>
      have hnone : find? ⟨(k', v') :: tl, h⟩ k = none := by
        unfold find?
        rw [Option.map_eq_none_iff, List.find?_eq_none]
        intro e he
        have hlt' : k < e.1 := by
          cases List.mem_cons.mp he with
          | inl heq => exact heq ▸ hlt
          | inr hmem => exact lt_trans hlt ((List.pairwise_cons.mp h).1 e hmem)
        simpa using ne_of_gt hlt'
      rw [weightAt_of_none hnone, hnone]
      simp only [List.map_cons, List.sum_cons, Option.map_none, Option.getD_none]
      omega
    . next hge =>
      split
      . next hlt =>
        have hfind : find? ⟨(k', v') :: tl, h⟩ k = find? ⟨tl, htl⟩ k := by
          unfold find?
          rw [List.find?_cons_of_neg]
          simpa using ne_of_lt hlt
        have ih := ih htl
        unfold weightAt at ih ⊢
        rw [hfind]
        simp only [List.map_cons, List.sum_cons]
        omega
      . next hle =>
        obtain rfl : k' = k := le_antisymm (not_lt.mp hge) (not_lt.mp hle)
        have hfind : find? ⟨(k', v') :: tl, h⟩ k' = some v' := by
          unfold find?
          rw [List.find?_cons_of_pos (by simp)]
          rfl
        rw [weightAt_of_some hfind, hfind]
        simp only [List.map_cons, List.sum_cons, Option.map_some, Option.getD_some]
        omega

theorem total_upsert (m : SortedMap κ ν) (weight : κ → ν → Nat) (k : κ) (v : ν) (f : ν → ν)
    : (m.upsert k v f).total weight + m.weightAt weight k
        = m.total weight + weight k (((m.find? k).map f).getD v) :=
  upsert.sum_go k v f m.sorted

theorem total_insert_of_none (h : m.find? k = none) (v : ν)
    : (m.insert k v).total weight = m.total weight + weight k v := by
  have htotal := m.total_upsert weight k v id
  rw [weightAt_of_none h, h] at htotal
  exact htotal

theorem total_insert_of_some (h : m.find? k = some v) (v' : ν)
    : (m.insert k v').total weight = m.total weight := by
  have htotal := m.total_upsert weight k v' id
  rw [weightAt_of_some h, h] at htotal
  exact Nat.add_right_cancel htotal

theorem eq_of_key_eq {e e' : κ × ν} (he : e ∈ m.toList) (he' : e' ∈ m.toList) (h : e.1 = e'.1)
    : e = e' := by
  obtain ⟨k, v⟩ := e
  obtain ⟨k', v'⟩ := e'
  obtain rfl : k = k' := h
  rw [← find?_eq_some_iff] at he he'
  rw [Option.some.inj (he.symm.trans he')]

theorem filter_key_of_some (h : m.find? k = some v) : m.toList.filter (fun e => e.1 = k) = [(k, v)] := by
  have hmem := (find?_eq_some_iff m k v).mp h
  have hall : ∀ e ∈ m.toList.filter (fun e => e.1 = k), e = (k, v) := by
    intro e he
    rw [List.mem_filter, decide_eq_true_eq] at he
    exact eq_of_key_eq he.1 hmem he.2
  have hsorted := m.sorted.filter (fun e => e.1 = k)
  have hmem' : (k, v) ∈ m.toList.filter (fun e => e.1 = k) := List.mem_filter.mpr ⟨hmem, by simp⟩
  generalize m.toList.filter (fun e => e.1 = k) = l at hall hsorted hmem'
  match l with
  | [] => simp at hmem'
  | [e] => rw [hall e List.mem_cons_self]
  | e :: e' :: l =>
    have hlt := (List.pairwise_cons.mp hsorted).1 e' List.mem_cons_self
    rw [hall e List.mem_cons_self, hall e' (by simp)] at hlt
    exact absurd hlt (lt_irrefl _)

end SortedMap
end Emane

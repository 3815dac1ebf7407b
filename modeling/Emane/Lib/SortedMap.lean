import Mathlib.Data.List.Basic
import Mathlib.Data.List.TakeWhile
import Mathlib.Order.Lattice

/-!
This module contains ordered maps with unique keys, kept as an association list that is strictly
increasing in its keys, and ordered maps that can have a key more than once.
-/

namespace Emane

section

variable {κ : Type u} {ν : Type v} [LinearOrder κ]

/--
An ordered map. The field `sorted` makes both the order and the uniqueness of the keys part of the
type.
-/
structure SortedMap (κ : Type u) (ν : Type v) [LinearOrder κ] where
  toList : List (κ × ν)
  sorted : toList.Pairwise (fun a b => a.1 < b.1)

namespace SortedMap

@[reducible]
def linearOrderUInt8 : LinearOrder UInt8 where
  le_refl _ := UInt8.le_refl _
  le_trans _ _ _ := UInt8.le_trans
  lt_iff_le_not_ge _ _ := UInt8.lt_iff_le_and_ne.trans (by
    rw [and_congr_right_iff]
    intro hle
    exact ⟨fun hne hge => hne (UInt8.le_antisymm hle hge), fun hge heq => hge (heq ▸ UInt8.le_refl _)⟩)
  le_antisymm _ _ := UInt8.le_antisymm
  le_total _ _ := UInt8.le_total _ _
  toDecidableLE := inferInstance

def empty : SortedMap κ ν := ⟨[], by simp⟩

instance : Inhabited (SortedMap κ ν) := ⟨empty⟩

@[ext]
theorem ext {m n : SortedMap κ ν} (h : m.toList = n.toList) : m = n := by
  cases m
  cases n
  simpa using h

instance [DecidableEq ν] : DecidableEq (SortedMap κ ν) :=
  fun m n => decidable_of_iff (m.toList = n.toList) ⟨ext, fun h => h ▸ rfl⟩

def find? (m : SortedMap κ ν) (k : κ) : Option ν :=
  (m.toList.find? (fun e => e.1 = k)).map Prod.snd

def contains (m : SortedMap κ ν) (k : κ) : Bool :=
  (m.find? k).isSome

def first? (m : SortedMap κ ν) : Option (κ × ν) :=
  m.toList.head?

def size (m : SortedMap κ ν) : Nat :=
  m.toList.length

def upsert.go (k : κ) (v : ν) (f : ν → ν) : List (κ × ν) → List (κ × ν)
  | [] => [(k, v)]
  | (k', v') :: l =>
    if k < k' then
      (k, v) :: (k', v') :: l
    else if k' < k then
      (k', v') :: go k v f l
    else
      (k', f v') :: l

theorem upsert.mem_go {k : κ} {v : ν} {f : ν → ν} {l : List (κ × ν)} {e : κ × ν} (h : e ∈ go k v f l)
    : e.1 = k ∨ e ∈ l := by
  induction l with
  | nil =>
    simp only [go, List.mem_singleton] at h
    simp [h]
  | cons hd tl ih =>
    obtain ⟨k', v'⟩ := hd
    unfold go at h
    split at h
    . rcases List.mem_cons.mp h with h | h
      . simp [h]
      . simp [h]
    . split at h
      . rcases List.mem_cons.mp h with h | h
        . simp [h]
        . rcases ih h with h | h
          . simp [h]
          . simp [h]
      . next h1 h2 =>
        have hk : k' = k := le_antisymm (not_lt.mp h1) (not_lt.mp h2)
        rcases List.mem_cons.mp h with h | h
        . simp [h, hk]
        . simp [h]

variable (m : SortedMap κ ν) (k k' : κ) (v : ν)

theorem upsert.go_sorted (f : ν → ν) {l : List (κ × ν)}
    (h : l.Pairwise (fun a b => a.1 < b.1))
    : (go k v f l).Pairwise (fun a b => a.1 < b.1) := by
  induction l with
  | nil => simp [go]
  | cons hd tl ih =>
    obtain ⟨k', v'⟩ := hd
    rw [List.pairwise_cons] at h
    obtain ⟨hhd, htl⟩ := h
    unfold go
    split
    . next hlt =>
      rw [List.pairwise_cons, List.pairwise_cons]
      refine ⟨?_, hhd, htl⟩
      intro e he
      rcases List.mem_cons.mp he with he | he
      . simpa [he] using hlt
      . exact lt_trans hlt (hhd e he)
    . split
      . next hlt =>
        rw [List.pairwise_cons]
        refine ⟨?_, ih htl⟩
        intro e he
        rcases mem_go he with he | he
        . simpa [he] using hlt
        . exact hhd e he
      . rw [List.pairwise_cons]
        exact ⟨hhd, htl⟩

def upsert (m : SortedMap κ ν) (k : κ) (v : ν) (f : ν → ν) : SortedMap κ ν :=
  ⟨upsert.go k v f m.toList, upsert.go_sorted k v f m.sorted⟩

def insert (m : SortedMap κ ν) (k : κ) (v : ν) : SortedMap κ ν :=
  m.upsert k v id

def set (m : SortedMap κ ν) (k : κ) (v : ν) : SortedMap κ ν :=
  m.upsert k v (fun _ => v)

def erase (m : SortedMap κ ν) (k : κ) : SortedMap κ ν :=
  ⟨m.toList.filter (fun e => e.1 ≠ k), m.sorted.filter _⟩

@[simp]
theorem find?_empty : (empty : SortedMap κ ν).find? k = none := by
  rfl

@[simp]
theorem toList_empty : (empty : SortedMap κ ν).toList = [] := by
  rfl

@[simp]
theorem toList_erase
    : (m.erase k).toList = m.toList.filter (fun e => e.1 ≠ k) := by
  rfl

theorem upsert.find?_go (f : ν → ν) (l : List (κ × ν))
    (h : l.Pairwise (fun a b => a.1 < b.1))
    : ((go k v f l).find? (fun e => e.1 = k')).map Prod.snd
        =
      if k' = k then
        some (((l.find? (fun e => e.1 = k)).map (fun e => f e.2)).getD v)
      else
        (l.find? (fun e => e.1 = k')).map Prod.snd := by
  induction l with
  | nil =>
    by_cases hk : k' = k
    . simp [go, hk]
    . simp [go, hk, Ne.symm hk]
  | cons hd tl ih =>
    obtain ⟨a, b⟩ := hd
    rw [List.pairwise_cons] at h
    obtain ⟨hhd, htl⟩ := h
    unfold go
    split
    . next hlt =>
      have hnone : tl.find? (fun e => e.1 = k) = none := by
        rw [List.find?_eq_none]
        intro e he
        have := lt_trans hlt (hhd e he)
        simpa using this.ne'
      by_cases hk : k' = k
      . simp [hk, hlt.ne', hnone]
      . simp [hk, Ne.symm hk]
    . split
      . next hlt =>
        by_cases hk : k' = k
        . subst hk
          simpa [hlt.ne] using ih htl
        . by_cases ha : a = k'
          . simp [ha, hk]
          . have := ih htl
            simp only [hk, ↓reduceIte] at this ⊢
            simpa [ha] using this
      . next h1 h2 =>
        have : a = k := le_antisymm (not_lt.mp h1) (not_lt.mp h2)
        subst this
        by_cases hk : k' = a
        . simp [hk]
        . simp [hk, Ne.symm hk]

theorem find?_upsert (f : ν → ν)
    : (m.upsert k v f).find? k' = if k' = k then some (((m.find? k).map f).getD v) else m.find? k' := by
  unfold find? upsert
  rw [upsert.find?_go _ _ _ _ _ m.sorted]
  simp [Function.comp_def]

theorem find?_insert
    : (m.insert k v).find? k' = if k' = k then some ((m.find? k).getD v) else m.find? k' := by
  simp [insert, find?_upsert]

theorem find?_set
    : (m.set k v).find? k' = if k' = k then some v else m.find? k' := by
  unfold set
  rw [find?_upsert]
  split
  . cases m.find? k with
    | none => rfl
    | some _ => rfl
  . rfl

theorem find?_erase
    : (m.erase k).find? k' = if k' = k then none else m.find? k' := by
  unfold find? erase
  simp only [List.find?_filter]
  split
  . next h =>
    subst h
    simp
  . next h =>
    congr 2
    funext e
    by_cases he : e.1 = k'
    . simp [he, h]
    . simp [he]

theorem find?_eq_some_iff
    : m.find? k = some v ↔ (k, v) ∈ m.toList := by
  obtain ⟨l, hl⟩ := m
  unfold find?
  induction l with
  | nil => simp
  | cons hd tl ih =>
    obtain ⟨a, b⟩ := hd
    rw [List.pairwise_cons] at hl
    obtain ⟨hhd, htl⟩ := hl
    by_cases ha : a = k
    . subst ha
      have : (a, v) ∉ tl := by
        intro hmem
        exact (lt_irrefl a) (hhd _ hmem)
      simp [this, eq_comm]
    . simp [ha, Ne.symm ha, ih htl]

theorem mem_toList_insert {m : SortedMap κ ν} {k : κ} {v : ν} {e : κ × ν} (h : e ∈ (m.insert k v).toList)
    : e ∈ m.toList ∨ e = (k, v) := by
  obtain ⟨k', v'⟩ := e
  rw [← find?_eq_some_iff, find?_insert] at h
  split at h
  . next hk =>
    rw [hk]
    cases hfind : m.find? k with
    | none =>
      rw [hfind, Option.getD_none, Option.some.injEq] at h
      exact Or.inr (by rw [h])
    | some w =>
      rw [hfind, Option.getD_some, Option.some.injEq] at h
      rw [h] at hfind
      exact Or.inl ((find?_eq_some_iff _ _ _).mp hfind)
  . exact Or.inl ((find?_eq_some_iff _ _ _).mp h)

theorem toList_insert_ne_nil : (m.insert k v).toList ≠ [] := by
  have hfind : (m.insert k v).find? k = some ((m.find? k).getD v) := by
    rw [find?_insert, if_pos rfl]
  rw [find?_eq_some_iff] at hfind
  exact List.ne_nil_of_mem hfind

theorem toList_upsert_of_forall_lt (f : ν → ν)
    (h : ∀ e ∈ m.toList, e.1 < k)
    : (m.upsert k v f).toList = m.toList ++ [(k, v)] := by
  obtain ⟨l, hl⟩ := m
  unfold upsert
  simp only at h ⊢
  clear hl
  induction l with
  | nil => simp [upsert.go]
  | cons hd tl ih =>
    obtain ⟨a, b⟩ := hd
    have ha : a < k := h (a, b) (by simp)
    have := ih (fun e he => h e (by simp [he]))
    simp [upsert.go, ha, not_lt.mpr ha.le, this]

theorem toList_insert_of_forall_lt
    (h : ∀ e ∈ m.toList, e.1 < k)
    : (m.insert k v).toList = m.toList ++ [(k, v)] := by
  exact m.toList_upsert_of_forall_lt k v id h

theorem toList_set_of_forall_lt
    (h : ∀ e ∈ m.toList, e.1 < k)
    : (m.set k v).toList = m.toList ++ [(k, v)] := by
  exact m.toList_upsert_of_forall_lt k v (fun _ => v) h

end SortedMap

end

variable {ν : Type u} {κ : Type v} [LinearOrder κ]

structure SortedMultiMap (key : ν → κ) where
  toList : List ν
  sorted : toList.Pairwise (fun a b => key a ≤ key b)

namespace SortedMultiMap

variable {key : ν → κ}

def empty : SortedMultiMap key :=
  ⟨[], .nil⟩

def insert.go (key : ν → κ) (v : ν) : List ν → List ν
  | [] => [v]
  | v' :: l =>
    if key v < key v' then
      v :: v' :: l
    else
      v' :: go key v l

theorem insert.perm_go (key : ν → κ) (v : ν) (l : List ν) : (go key v l).Perm (v :: l) := by
  induction l with
  | nil => exact .refl _
  | cons v' l ih =>
    unfold go
    split
    . exact .refl _
    . exact (ih.cons v').trans (.swap v v' l)

theorem insert.go_sorted (v : ν) {l : List ν} (h : l.Pairwise (fun a b => key a ≤ key b))
    : (go key v l).Pairwise (fun a b => key a ≤ key b) := by
  induction l with
  | nil => exact List.pairwise_singleton _ _
  | cons v' l ih =>
    rw [List.pairwise_cons] at h
    unfold go
    split
    . next hlt =>
      rw [List.pairwise_cons, List.pairwise_cons, List.forall_mem_cons]
      refine ⟨⟨hlt.le, ?_⟩, h⟩
      intro a ha
      exact hlt.le.trans (h.1 a ha)
    . next hle =>
      rw [List.pairwise_cons]
      refine ⟨?_, ih h.2⟩
      intro a ha
      rw [(perm_go key v l).mem_iff, List.mem_cons] at ha
      rcases ha with rfl | ha
      . exact not_lt.mp hle
      . exact h.1 a ha

def insert (m : SortedMultiMap key) (v : ν) : SortedMultiMap key :=
  ⟨insert.go key v m.toList, insert.go_sorted v m.sorted⟩

def erase (m : SortedMultiMap key) (k : κ) : SortedMultiMap key :=
  ⟨m.toList.filter (fun v => key v ≠ k), m.sorted.filter _⟩

def first? (m : SortedMultiMap key) : Option ν :=
  m.toList.head?

theorem perm_insert (m : SortedMultiMap key) (v : ν) : (m.insert v).toList.Perm (v :: m.toList) := by
  exact insert.perm_go key v m.toList

variable {m : SortedMultiMap key} {a : ν}

theorem mem_insert {v : ν} : a ∈ (m.insert v).toList ↔ a = v ∨ a ∈ m.toList := by
  rw [(m.perm_insert v).mem_iff, List.mem_cons]

theorem mem_erase {m : SortedMultiMap key} {k : κ} {a : ν}
    : a ∈ (m.erase k).toList ↔ a ∈ m.toList ∧ key a ≠ k := by
  unfold erase
  rw [List.mem_filter, decide_eq_true_iff]

theorem first?_eq_none_iff : m.first? = none ↔ m.toList = [] := by
  unfold first?
  rw [List.head?_eq_none_iff]

theorem mem_of_first? (h : m.first? = some a) : a ∈ m.toList := by
  exact List.mem_of_head? h

theorem first?_le {b : ν} (h : m.first? = some a) (hb : b ∈ m.toList) : key a ≤ key b := by
  have hsorted := m.sorted
  unfold first? at h
  cases hlist : m.toList with
  | nil => simp [hlist] at h
  | cons a' l =>
    rw [hlist, List.pairwise_cons] at hsorted
    rw [hlist] at h hb
    cases h
    rw [List.mem_cons] at hb
    rcases hb with rfl | hb
    . exact le_rfl
    . exact hsorted.1 b hb

theorem takeWhile_eq_filter (m : SortedMultiMap key) {p : ν → Bool}
    (hp : ∀ a b, key a ≤ key b → p b → p a)
    : m.toList.takeWhile p = m.toList.filter p := by
  obtain ⟨l, hsorted⟩ := m
  induction l with
  | nil => rfl
  | cons a l ih =>
    rw [List.pairwise_cons] at hsorted
    by_cases ha : p a
    . rw [List.takeWhile_cons_of_pos ha, List.filter_cons_of_pos ha, List.cons.injEq]
      exact ⟨rfl, ih hsorted.2⟩
    . rw [List.takeWhile_cons_of_neg ha, List.filter_cons_of_neg ha, eq_comm, List.filter_eq_nil_iff]
      intro b hb hpb
      exact ha (hp a b (hsorted.1 b hb) hpb)

end SortedMultiMap
end Emane

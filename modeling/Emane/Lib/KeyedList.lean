import Mathlib.Data.List.Basic
import Mathlib.Data.List.Pairwise
import Mathlib.Data.Set.Insert

/-!
This module contains lists whose elements carry a key: narrowed down to one key, as sets of keys,
and what owners hold, where `same` says which entries stand for the same thing.
-/

namespace Emane

section

variable {α : Type u} {β : Type v} {κ : Type w} [DecidableEq κ]

def withKey (key : α → κ) (k : κ) (as : List α) : List α :=
  as.filter (fun a => key a = k)

section

variable (key : α → κ) (k : κ)

@[simp]
theorem withKey_nil : withKey key k [] = [] := by
  rfl

@[simp]
theorem withKey_append (as bs : List α)
    : withKey key k (as ++ bs) = withKey key k as ++ withKey key k bs := by
  simp [withKey]

theorem withKey_cons (a : α) (as : List α)
    : withKey key k (a :: as) = if key a = k then a :: withKey key k as else withKey key k as := by
  simp [withKey, List.filter_cons]

theorem mem_withKey {key : α → κ} {k : κ} {a : α} {as : List α}
    : a ∈ withKey key k as ↔ a ∈ as ∧ key a = k := by
  simp [withKey]

theorem withKey_eq_nil {key : α → κ} {k : κ} {as : List α} (h : ∀ a ∈ as, key a ≠ k)
    : withKey key k as = [] := by
  unfold withKey
  rw [List.filter_eq_nil_iff]
  intro a ha
  simpa using h a ha

end

theorem withKey_filterMap {key : α → κ} {key' : β → κ} {f : α → Option β}
    (hf : ∀ a b, f a = some b → key' b = key a) (k : κ) (as : List α)
    : withKey key' k (as.filterMap f) = (withKey key k as).filterMap f := by
  induction as with
  | nil => rfl
  | cons a as ih =>
    rw [withKey_cons]
    cases hfa : f a with
    | none =>
      rw [List.filterMap_cons_none hfa]
      rw [ih]
      split
      . rw [List.filterMap_cons_none hfa]
      . rfl
    | some b =>
      rw [List.filterMap_cons_some hfa]
      rw [withKey_cons]
      rw [hf a b hfa]
      rw [ih]
      split
      . rw [List.filterMap_cons_some hfa]
      . rfl

end

variable {α : Type u} {κ : Type v}

structure Represents (key : α → Option κ) (l : List α) (s : Set κ) : Prop where
  mem_iff : ∀ k, k ∈ s ↔ ∃ a ∈ l, key a = some k
  keyed : ∀ a ∈ l, (key a).isSome
  once : l.Pairwise (fun a b => ∀ k, key a = some k → key b ≠ some k)

namespace Represents

variable {key : α → Option κ} {l : List α} {s : Set κ}

theorem nil : Represents key [] ∅ := by
  constructor
  . simp
  . simp
  . exact List.Pairwise.nil

theorem mem (h : Represents key l s) {a : α} (ha : a ∈ l) {k : κ} (hk : key a = some k) : k ∈ s := by
  exact (h.mem_iff k).mpr ⟨a, ha, hk⟩

theorem eq_of_key (h : Represents key l s) {a b : α} (ha : a ∈ l) (hb : b ∈ l) {k : κ}
    (hka : key a = some k) (hkb : key b = some k)
    : a = b := by
  by_contra hne
  have : Std.Symm (fun a b : α => ∀ k, key a = some k → key b ≠ some k) :=
    ⟨fun x y hxy k hy hx => hxy k hx hy⟩
  exact (h.once.forall ha hb hne) k hka hkb

theorem concat (h : Represents key l s) {a : α} {k : κ} (hk : key a = some k) (hnew : k ∉ s)
    : Represents key (l ++ [a]) (insert k s) := by
  constructor
  . intro k'
    rw [Set.mem_insert_iff, h.mem_iff]
    constructor
    . rintro (rfl | ⟨b, hb, hkb⟩)
      . exact ⟨a, List.mem_append_right _ (List.mem_singleton_self a), hk⟩
      . exact ⟨b, List.mem_append_left _ hb, hkb⟩
    . rintro ⟨b, hb, hkb⟩
      rcases List.mem_append.mp hb with hb | hb
      . exact Or.inr ⟨b, hb, hkb⟩
      . obtain rfl := List.mem_singleton.mp hb
        exact Or.inl (Option.some.inj (hkb.symm.trans hk))
  . intro b hb
    rcases List.mem_append.mp hb with hb | hb
    . exact h.keyed b hb
    . obtain rfl := List.mem_singleton.mp hb
      exact Option.isSome_of_eq_some hk
  . rw [List.pairwise_append]
    refine ⟨h.once, List.pairwise_singleton _ _, ?_⟩
    intro b hb c hc k' hkb hkc
    obtain rfl := List.mem_singleton.mp hc
    obtain rfl := Option.some.inj (hkc.symm.trans hk)
    exact hnew (h.mem hb hkb)

theorem filter [DecidableEq κ] (h : Represents key l s) (k : κ)
    : Represents key (l.filter (fun a => key a ≠ some k)) (s \ {k}) := by
  constructor
  . intro k'
    rw [Set.mem_sdiff, h.mem_iff, Set.mem_singleton_iff]
    constructor
    . rintro ⟨⟨a, ha, hka⟩, hne⟩
      refine ⟨a, List.mem_filter.mpr ⟨ha, ?_⟩, hka⟩
      rw [decide_eq_true_eq, hka]
      exact fun heq => hne (Option.some.inj heq)
    . rintro ⟨a, ha, hka⟩
      obtain ⟨ha, hne⟩ := List.mem_filter.mp ha
      rw [decide_eq_true_eq, hka] at hne
      exact ⟨⟨a, ha, hka⟩, fun heq => hne (congrArg some heq)⟩
  . exact fun a ha => h.keyed a ((List.mem_filter.mp ha).1)
  . exact h.once.sublist List.filter_sublist

end Represents

theorem pairwise_of_length_filter_le [DecidableEq κ] {key : α → Option κ} {l : List α}
    (h : ∀ k, (l.filter (fun a => key a = some k)).length ≤ 1)
    : l.Pairwise (fun a b => ∀ k, key a = some k → key b ≠ some k) := by
  induction l with
  | nil => exact List.Pairwise.nil
  | cons a l ih =>
    constructor
    . intro b hb k hka hkb
      have hlength := h k
      rw [List.filter_cons_of_pos (by simp [hka]), List.length_cons] at hlength
      have hmem : b ∈ l.filter (fun a => key a = some k) := List.mem_filter.mpr ⟨hb, decide_eq_true hkb⟩
      have hpos := List.length_pos_of_mem hmem
      omega
    . apply ih
      intro k
      exact ((List.sublist_cons_self a l).filter _).length_le.trans (h k)

theorem foldl_filter_ne [DecidableEq α] (rs l : List α)
    : rs.foldl (fun l r => l.filter (fun a => a ≠ r)) l = l.filter (fun a => !rs.contains a) := by
  induction rs generalizing l with
  | nil => exact (List.filter_eq_self.mpr (by simp)).symm
  | cons r rs ih =>
    rw [List.foldl_cons, ih, List.filter_filter]
    apply List.filter_congr
    intro a _
    rw [List.contains_cons, Bool.not_or, Bool.and_comm, beq_eq_decide, decide_not]

theorem eraseP_eq_filter {l : List α} {p : α → Bool}
    (h : l.Pairwise (fun a b => p a = true → p b = false))
    : l.eraseP p = l.filter (fun a => !p a) := by
  induction l with
  | nil => rfl
  | cons a l ih =>
    obtain ⟨hhead, htail⟩ := List.pairwise_cons.mp h
    by_cases hpa : p a = true
    . have hrest : l.filter (fun b => !p b) = l := by
        rw [List.filter_eq_self]
        intro b hb
        rw [hhead b hb hpa, Bool.not_false]
      rw [List.eraseP_cons_of_pos hpa, List.filter_cons_of_neg (by simp [hpa]), hrest]
    . rw [List.eraseP_cons_of_neg hpa, List.filter_cons_of_pos (by simp [hpa]), ih htail]

namespace Holdings

variable {ω : Type u} {α : Type v} (same : α → α → Bool)

structure Unique (holds : ω → List α) : Prop where
  apart : ∀ o o', o ≠ o' → ∀ a ∈ holds o, ∀ b ∈ holds o', same a b = false
  once : ∀ o, (holds o).Pairwise (fun a b => same a b = false)

/--
The entries that come to a list are new, and the list holds nothing twice if it did not before.
-/
structure Grows (new : α → Prop) (l l' : List α) : Prop where
  mem : ∀ a ∈ l', a ∈ l ∨ new a
  once : l.Pairwise (fun a b => same a b = false) → l'.Pairwise (fun a b => same a b = false)

namespace Grows

variable {same} {new new' : α → Prop} {l l' l'' : List α}

theorem refl (new : α → Prop) (l : List α) : Grows same new l l := by
  exact ⟨fun _ ha => Or.inl ha, id⟩

theorem trans (h : Grows same new l l') (h' : Grows same new l' l'') : Grows same new l l'' := by
  constructor
  . intro a ha
    rcases h'.mem a ha with hmem | hnew
    . exact h.mem a hmem
    . exact Or.inr hnew
  . exact fun honce => h'.once (h.once honce)

theorem mono (hnew : ∀ a, new a → new' a) (h : Grows same new l l') : Grows same new' l l' := by
  exact ⟨fun a ha => (h.mem a ha).imp_right (hnew a), h.once⟩

theorem of_sublist (h : l'.Sublist l) : Grows same new l l' := by
  exact ⟨fun _ ha => Or.inl (h.subset ha), fun honce => honce.sublist h⟩

theorem concat {a : α} (hnew : new a) (h : ∀ b ∈ l, same b a = false) : Grows same new l (l ++ [a]) := by
  constructor
  . intro b hb
    rcases List.mem_append.mp hb with hmem | hself
    . exact Or.inl hmem
    . obtain rfl := List.mem_singleton.mp hself
      exact Or.inr hnew
  . intro honce
    rw [List.pairwise_append]
    refine ⟨honce, List.pairwise_singleton _ _, ?_⟩
    intro b hb c hc
    obtain rfl := List.mem_singleton.mp hc
    exact h b hb

theorem of_nil (h : Grows same new [] l') : Grows same new l l' := by
  refine ⟨fun a ha => ?_, fun _ => h.once List.Pairwise.nil⟩
  rcases h.mem a ha with hmem | hnew
  . cases hmem
  . exact Or.inr hnew

end Grows

theorem Unique.grow {same} (hsymm : ∀ a b, same a b = same b a) {holds holds' : ω → List α}
    {new : ω → α → Prop}
    (h : Unique same holds) (hgrows : ∀ o, Grows same (new o) (holds o) (holds' o))
    (hold : ∀ o o' a, new o a → o ≠ o' → ∀ b ∈ holds o', same a b = false)
    (hnew : ∀ o o' a b, new o a → new o' b → o ≠ o' → same a b = false)
    : Unique same holds' := by
  constructor
  . intro o o' hne a ha b hb
    rcases (hgrows o).mem a ha with ha | ha
    . rcases (hgrows o').mem b hb with hb | hb
      . exact h.apart o o' hne a ha b hb
      . rw [hsymm]
        exact hold o' o b hb (Ne.symm hne) a ha
    . rcases (hgrows o').mem b hb with hb | hb
      . exact hold o o' a ha hne b hb
      . exact hnew o o' a b ha hb hne
  . exact fun o => (hgrows o).once (h.once o)

end Holdings
end Emane

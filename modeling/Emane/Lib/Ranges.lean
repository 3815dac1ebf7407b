import Mathlib.Algebra.BigOperators.Group.List.Basic
import Mathlib.Algebra.Group.Basic
import Mathlib.Data.Finset.Card
import Mathlib.Order.Defs.LinearOrder
import Mathlib.Order.Interval.Finset.Nat

/-!
This module contains the numbers that are missing from a sequence of numbers that arrive in any
order, those between the first one and the largest one, and the ranges that an interval is cut into,
one after another.
-/

namespace Emane
namespace Gaps

def largest (first : Nat) (rest : List Nat) : Nat :=
  rest.foldl max first

def missing (first : Nat) (rest : List Nat) : Finset Nat :=
  Finset.Ioo first (largest first rest) \ (first :: rest).toFinset

theorem missing_nil (first : Nat) : missing first [] = ∅ := by
  simp [missing, largest]

@[simp]
theorem largest_append (first : Nat) (rest : List Nat) (n : Nat)
    : largest first (rest ++ [n]) = max (largest first rest) n := by
  simp [largest]

variable {first n : Nat} {rest : List Nat}

theorem le_largest (h : n ∈ first :: rest) : n ≤ largest first rest := by
  induction rest using List.reverseRecOn with
  | nil =>
    rw [List.mem_singleton] at h
    exact h.le
  | append_singleton rest last ih =>
    rw [largest_append]
    rw [← List.cons_append, List.mem_append, List.mem_singleton] at h
    cases h with
    | inl hmem => exact le_trans (ih hmem) (le_max_left _ _)
    | inr heq => exact heq.le.trans (le_max_right _ _)

theorem largest_mem (first : Nat) (rest : List Nat) : largest first rest ∈ first :: rest := by
  induction rest using List.reverseRecOn with
  | nil => exact List.mem_singleton.mpr rfl
  | append_singleton rest last ih =>
    rw [largest_append, ← List.cons_append, List.mem_append, List.mem_singleton]
    cases le_total (largest first rest) last with
    | inl hle => exact Or.inr (max_eq_right hle)
    | inr hle => exact Or.inl ((max_eq_left hle).symm ▸ ih)

theorem mem_missing {x : Nat}
    : x ∈ missing first rest ↔ (first < x ∧ x < largest first rest) ∧ x ∉ rest := by
  unfold missing
  rw [Finset.mem_sdiff, Finset.mem_Ioo, List.mem_toFinset, List.mem_cons]
  constructor
  . rintro ⟨hbetween, hnot⟩
    exact ⟨hbetween, fun hmem => hnot (Or.inr hmem)⟩
  . rintro ⟨hbetween, hnot⟩
    refine ⟨hbetween, ?_⟩
    rintro (heq | hmem)
    . omega
    . exact hnot hmem

theorem missing_append_of_gt (h : largest first rest < n)
    : missing first (rest ++ [n]) = missing first rest ∪ Finset.Ioo (largest first rest) n := by
  ext x
  rw [Finset.mem_union, Finset.mem_Ioo, mem_missing, mem_missing, largest_append, max_eq_right h.le,
    List.mem_append,
    List.mem_singleton]
  have hle : ∀ y ∈ rest, y ≤ largest first rest := fun y hy => le_largest (List.mem_cons_of_mem _ hy)
  have hfirst : first ≤ largest first rest := le_largest List.mem_cons_self
  have hlargest : largest first rest = first ∨ largest first rest ∈ rest := List.mem_cons.mp
    (largest_mem first rest)
  constructor
  . rintro ⟨⟨hgt, hlt⟩, hnot⟩
    rw [not_or] at hnot
    by_cases hx : x < largest first rest
    . exact Or.inl ⟨⟨hgt, hx⟩, hnot.1⟩
    . refine Or.inr ⟨?_, hlt⟩
      have hne : x ≠ largest first rest := by
        rintro rfl
        cases hlargest with
        | inl heq => omega
        | inr hmem => exact hnot.1 hmem
      omega
  . rintro (⟨⟨hgt, hlt⟩, hnot⟩ | ⟨hgt, hlt⟩)
    . exact ⟨⟨hgt, hlt.trans h⟩, fun hor => hor.elim hnot (fun heq => by omega)⟩
    . refine ⟨⟨by omega, hlt⟩, ?_⟩
      rintro (hmem | heq)
      . have := hle x hmem
        omega
      . omega

theorem card_missing_append_of_gt (h : largest first rest < n)
    : (missing first (rest ++ [n])).card = (missing first rest).card + (n - largest first rest - 1) := by
  have hdisjoint : Disjoint (missing first rest) (Finset.Ioo (largest first rest) n) := by
    rw [Finset.disjoint_left]
    intro x hx hx'
    have hlt := (mem_missing.mp hx).1.2
    have hgt := (Finset.mem_Ioo.mp hx').1
    omega
  rw [missing_append_of_gt h, Finset.card_union_of_disjoint hdisjoint, Nat.card_Ioo]

theorem missing_append_of_le (h : n ≤ largest first rest)
    : missing first (rest ++ [n]) = (missing first rest).erase n := by
  ext x
  rw [Finset.mem_erase, mem_missing, mem_missing, largest_append, max_eq_left h, List.mem_append,
    List.mem_singleton, not_or]
  tauto

theorem card_missing_append_of_between (hgt : first < n)
    (hle : n ≤ largest first rest) (hnew : n ∉ first :: rest)
    : (missing first (rest ++ [n])).card = (missing first rest).card - 1 := by
  have hne : n ≠ largest first rest := fun heq => hnew (heq ▸ largest_mem first rest)
  have hmem : n ∈ missing first rest :=
    mem_missing.mpr ⟨⟨hgt, by omega⟩, fun hmem => hnew (List.mem_cons_of_mem _ hmem)⟩
  rw [missing_append_of_le hle, Finset.card_erase_of_mem hmem]

theorem missing_append_of_lt (h : n < first)
    : missing first (rest ++ [n]) = missing first rest := by
  have hle : n ≤ largest first rest := h.le.trans (le_largest List.mem_cons_self)
  rw [missing_append_of_le hle]
  apply Finset.erase_eq_of_notMem
  intro hmem
  have := (mem_missing.mp hmem).1.1
  omega

theorem card_missing_le (first : Nat) (rest : List Nat)
    : (missing first rest).card ≤ largest first rest := by
  have hsubset : missing first rest ⊆ Finset.Ioo first (largest first rest) := Finset.sdiff_subset
  have hle := Finset.card_le_card hsubset
  rw [Nat.card_Ioo] at hle
  omega

end Gaps

namespace Ranges

variable {κ : Type u} {ω : Type v} {K : Type w}

def Spans (lo hi : K) : List (κ × K × K) → Prop
  | [] => lo = hi
  | e :: l => e.2.1 = lo ∧ Spans e.2.2 hi l

theorem Spans.exists_mem [LinearOrder K] {lo hi x : K} {l : List (κ × K × K)} (h : Spans lo hi l)
    (hne : l ≠ []) (hlo : lo ≤ x)
    (hhi : x ≤ hi)
    : ∃ e ∈ l, e.2.1 ≤ x ∧ x ≤ e.2.2 := by
  induction l generalizing lo with
  | nil => exact absurd rfl hne
  | cons e l ih =>
    obtain ⟨hbegin, hrest⟩ := h
    by_cases hx : x ≤ e.2.2
    . exact ⟨e, by simp, hbegin ▸ hlo, hx⟩
    . have hlt := not_le.mp hx
      cases l with
      | nil =>
        have hend : e.2.2 = hi := hrest
        exact absurd (hend ▸ hhi) hx
      | cons e' l =>
        obtain ⟨r, hr, hmem⟩ := ih hrest (by simp) hlt.le
        exact ⟨r, List.mem_cons_of_mem e hr, hmem⟩

def cut [Add K] (hi : K) (weight : ω → K) : K → List (κ × ω) → List (κ × K × K)
  | _, [] => []
  | lo, [e] => [(e.1, lo, hi)]
  | lo, e :: e' :: l => (e.1, lo, lo + weight e.2) :: cut hi weight (lo + weight e.2) (e' :: l)

theorem map_fst_cut [Add K] (hi : K) (weight : ω → K) (lo : K) (l : List (κ × ω))
    : (cut hi weight lo l).map Prod.fst = l.map Prod.fst := by
  induction l generalizing lo with
  | nil => rfl
  | cons e l ih =>
    cases l with
    | nil => rfl
    | cons e' l =>
      unfold cut
      rw [List.map_cons, ih]
      rfl

theorem spans_cut [Add K] (hi : K) (weight : ω → K) (lo : K) {l : List (κ × ω)} (hne : l ≠ [])
    : Spans lo hi (cut hi weight lo l) := by
  induction l generalizing lo with
  | nil => exact absurd rfl hne
  | cons e l ih =>
    cases l with
    | nil => exact ⟨rfl, rfl⟩
    | cons e' l => exact ⟨rfl, ih (lo + weight e.2) (by simp)⟩

theorem lengths_cut [AddCommGroup K] {hi : K} {weight : ω → K} {lo : K} {l : List (κ × ω)}
    (hsum : lo + (l.map (fun e => weight e.2)).sum = hi)
    : (cut hi weight lo l).map (fun e => e.2.2 - e.2.1) = l.map (fun e => weight e.2) := by
  induction l generalizing lo with
  | nil => rfl
  | cons e l ih =>
    rw [List.map_cons, List.sum_cons, ← add_assoc] at hsum
    cases l with
    | nil =>
      unfold cut
      simp [← hsum]
    | cons e' l =>
      unfold cut
      rw [List.map_cons, ih hsum]
      simp

end Ranges
end Emane

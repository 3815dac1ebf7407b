import Mathlib.Algebra.Order.Field.Basic
import Mathlib.Tactic.FieldSimp
import Mathlib.Tactic.Linarith

/-!
This module contains lines through points at whole positions.
-/

namespace Emane
namespace Polyline

variable {K : Type u}

structure Neighbours (points : List (Int × K)) (p q : Int × K) : Prop where
  left : p ∈ points
  right : q ∈ points
  lt : p.1 < q.1
  none_between : ∀ e ∈ points, e.1 ≤ p.1 ∨ q.1 ≤ e.1

def Ascending (points : List (Int × K)) : Prop :=
  points.Pairwise (fun p q => p.1 < q.1)

section

variable {p q : Int × K} {points : List (Int × K)}

theorem Neighbours.congr {points' : List (Int × K)} (h : ∀ e, e ∈ points ↔ e ∈ points')
    : Neighbours points p q ↔ Neighbours points' p q := by
  constructor
  . intro hn
    exact ⟨(h p).mp hn.left, (h q).mp hn.right, hn.lt, fun e he => hn.none_between e ((h e).mpr he)⟩
  . intro hn
    exact ⟨(h p).mpr hn.left, (h q).mpr hn.right, hn.lt, fun e he => hn.none_between e ((h e).mp he)⟩

theorem Neighbours.adjacent (h : Ascending points) (hn : Neighbours points p q)
    : ∃ before after, points = before ++ p :: q :: after := by
  induction points with
  | nil => exact absurd hn.left List.not_mem_nil
  | cons e points ih =>
    obtain ⟨hhead, htail⟩ := List.pairwise_cons.mp h
    have hq : q ∈ points := by
      rcases List.mem_cons.mp hn.right with rfl | hq
      . rcases List.mem_cons.mp hn.left with rfl | hp
        . exact absurd hn.lt (lt_irrefl _)
        . exact absurd (hhead p hp) (not_lt.mpr (le_of_lt hn.lt))
      . exact hq
    rcases List.mem_cons.mp hn.left with rfl | hp
    . cases points with
      | nil => exact absurd hq List.not_mem_nil
      | cons e' points =>
        rcases List.mem_cons.mp hq with rfl | hq'
        . exact ⟨[], points, rfl⟩
        . rcases hn.none_between e' (by simp) with hle | hge
          . exact absurd (hhead e' List.mem_cons_self) (not_lt.mpr hle)
          . exact absurd ((List.pairwise_cons.mp htail).1 q hq') (not_lt.mpr hge)
    . obtain ⟨before, after, rfl⟩ := ih htail
        ⟨hp, hq, hn.lt, fun e he => hn.none_between e (List.mem_cons_of_mem _ he)⟩
      exact ⟨e :: before, after, rfl⟩

theorem neighbours_cons (h : Ascending (p :: q :: points)) : Neighbours (p :: q :: points) p q := by
  obtain ⟨hhead, htail⟩ := List.pairwise_cons.mp h
  refine ⟨List.mem_cons_self, by simp, hhead q List.mem_cons_self, fun e he => ?_⟩
  rcases List.mem_cons.mp he with rfl | he
  . exact .inl (le_refl _)
  . rcases List.mem_cons.mp he with rfl | he
    . exact .inr (le_refl _)
    . exact .inr (le_of_lt ((List.pairwise_cons.mp htail).1 e he))

theorem isChain_iff {r : Int × K → Int × K → Prop} (h : Ascending points)
    : points.IsChain r ↔ ∀ p q, Neighbours points p q → r p q := by
  induction points with
  | nil => exact iff_of_true .nil (fun p q hn => absurd hn.left List.not_mem_nil)
  | cons e points ih =>
    obtain ⟨hhead, htail⟩ := List.pairwise_cons.mp h
    cases points with
    | nil =>
      refine iff_of_true (.singleton e) (fun p q hn => ?_)
      obtain rfl := List.mem_singleton.mp hn.left
      obtain rfl := List.mem_singleton.mp hn.right
      exact absurd hn.lt (lt_irrefl _)
    | cons e' points =>
      rw [List.isChain_cons_cons, ih htail]
      constructor
      . rintro ⟨hfirst, hrest⟩ p q hn
        rcases List.mem_cons.mp hn.left with rfl | hp
        . obtain ⟨before, after, heq⟩ := hn.adjacent h
          cases before with
          | nil =>
            obtain ⟨-, hrest'⟩ := List.cons.inj heq
            obtain ⟨rfl, -⟩ := List.cons.inj hrest'
            exact hfirst
          | cons b before =>
            obtain ⟨rfl, hrest'⟩ := List.cons.inj heq
            have hmem : p ∈ e' :: points := by
              rw [hrest']
              simp
            exact absurd (hhead p hmem) (lt_irrefl _)
        . have hq : q ∈ e' :: points := by
            rcases List.mem_cons.mp hn.right with rfl | hq
            . exact absurd (hhead p hp) (not_lt.mpr (le_of_lt hn.lt))
            . exact hq
          exact hrest p q ⟨hp, hq, hn.lt, fun d hd => hn.none_between d (List.mem_cons_of_mem _ hd)⟩
      . intro hall
        refine ⟨hall e e' (neighbours_cons h), fun p q hn => hall p q
          ⟨by simp [hn.left], by simp [hn.right], hn.lt, ?_⟩⟩
        intro d hd
        rcases List.mem_cons.mp hd with rfl | hd
        . exact .inl (le_of_lt (hhead p hn.left))
        . exact hn.none_between d hd

end

variable [Field K]

def straight (p q : Int × K) (k : Int) : K :=
  p.2 + (k - p.1) * ((q.2 - p.2) / (q.1 - p.1))

def value : List (Int × K) → Int → Option K
  | [], _ => none
  | [p], k => if k = p.1 then some p.2 else none
  | p :: q :: points, k => if p.1 ≤ k ∧ k < q.1 then some (straight p q k) else value (q :: points) k

section

variable {p q : Int × K} {points : List (Int × K)} {k : Int}

theorem straight_left : straight p q p.1 = p.2 := by
  unfold straight
  rw [sub_self, zero_mul, add_zero]

theorem value_cons_of_le (hk : q.1 ≤ k) : value (p :: q :: points) k = value (q :: points) k := by
  rw [value, if_neg (fun hin => absurd hin.2 (not_lt.mpr hk))]

theorem value_cons_of_between (hp : p.1 ≤ k) (hq : k < q.1)
    : value (p :: q :: points) k = some (straight p q k) := by
  rw [value, if_pos ⟨hp, hq⟩]

theorem le_of_value {y : K} (h : Ascending (p :: points)) (hvalue : value (p :: points) k = some y)
    : p.1 ≤ k := by
  induction points generalizing p with
  | nil =>
    rw [value] at hvalue
    split at hvalue
    . next heq => exact le_of_eq heq.symm
    . cases hvalue
  | cons q points ih =>
    obtain ⟨hhead, htail⟩ := List.pairwise_cons.mp h
    rw [value] at hvalue
    split at hvalue
    . next hin => exact hin.1
    . exact le_trans (le_of_lt (hhead q List.mem_cons_self)) (ih htail hvalue)

theorem value_eq_none_of_lt (h : Ascending (p :: points)) (hk : k < p.1)
    : value (p :: points) k = none := by
  cases hvalue : value (p :: points) k with
  | none => rfl
  | some y => exact absurd (le_of_value h hvalue) (not_le.mpr hk)

theorem value_isSome_iff (h : Ascending (p :: points))
    : (∃ y, value (p :: points) k = some y) ↔ p.1 ≤ k ∧ ∃ e ∈ p :: points, k ≤ e.1 := by
  induction points generalizing p with
  | nil =>
    rw [value]
    simp only [List.mem_singleton, exists_eq_left]
    split
    . next heq => simp [heq]
    . next hne =>
      refine iff_of_false (by simp) ?_
      rintro ⟨hle, hge⟩
      exact hne (le_antisymm hge hle)
  | cons q points ih =>
    obtain ⟨hhead, htail⟩ := List.pairwise_cons.mp h
    have hpq : p.1 < q.1 := hhead q List.mem_cons_self
    by_cases hk : q.1 ≤ k
    . rw [value_cons_of_le hk, ih htail]
      constructor
      . rintro ⟨-, e, he, hke⟩
        exact ⟨le_trans (le_of_lt hpq) hk, e, List.mem_cons_of_mem _ he, hke⟩
      . rintro ⟨-, e, he, hke⟩
        refine ⟨hk, ?_⟩
        rcases List.mem_cons.mp he with rfl | he
        . exact absurd (lt_of_lt_of_le hpq hk) (not_lt.mpr hke)
        . exact ⟨e, he, hke⟩
    . have hlt : k < q.1 := not_le.mp hk
      by_cases hp : p.1 ≤ k
      . rw [value_cons_of_between hp hlt]
        exact iff_of_true ⟨_, rfl⟩ ⟨hp, q, by simp, le_of_lt hlt⟩
      . refine iff_of_false ?_ (fun hin => hp hin.1)
        rintro ⟨y, hy⟩
        exact hp (le_of_value h hy)

theorem value_of_mem (h : Ascending points) (hmem : p ∈ points) : value points p.1 = some p.2 := by
  induction points with
  | nil => exact absurd hmem List.not_mem_nil
  | cons e points ih =>
    obtain ⟨hhead, htail⟩ := List.pairwise_cons.mp h
    cases points with
    | nil =>
      obtain rfl := List.mem_singleton.mp hmem
      rw [value, if_pos rfl]
    | cons q points =>
      rcases List.mem_cons.mp hmem with rfl | hmem
      . rw [value_cons_of_between (le_refl _) (hhead q List.mem_cons_self), straight_left]
      . have hq : q.1 ≤ p.1 := by
          rcases List.mem_cons.mp hmem with rfl | hmem
          . exact le_refl _
          . exact le_of_lt ((List.pairwise_cons.mp htail).1 p hmem)
        rw [value_cons_of_le hq]
        exact ih htail hmem

end

section

variable [LinearOrder K] [IsStrictOrderedRing K] {p q : Int × K} {points : List (Int × K)} {k k' : Int}

theorem straight_right (h : p.1 < q.1) : straight p q q.1 = q.2 := by
  have hne : (q.1 - p.1 : K) ≠ 0 := by
    rw [sub_ne_zero]
    exact Int.cast_injective.ne h.ne'
  unfold straight
  rw [mul_div_cancel₀ _ hne, add_sub_cancel]

theorem straight_mono (h : p.1 < q.1) (hle : p.2 ≤ q.2) (hk : k ≤ k')
    : straight p q k ≤ straight p q k' := by
  have hpos : (0 : K) < q.1 - p.1 := sub_pos.mpr (Int.cast_lt.mpr h)
  have hslope : 0 ≤ (q.2 - p.2) / (q.1 - p.1 : K) := div_nonneg (sub_nonneg.mpr hle) hpos.le
  have hsub : (k - p.1 : K) ≤ k' - p.1 := sub_le_sub_right (Int.cast_le.mpr hk) _
  exact add_le_add_right (mul_le_mul_of_nonneg_right hsub hslope) _

theorem value_of_neighbours {before after : List (Int × K)} (h : Ascending (before ++ p :: q :: after)) (hp : p.1 ≤ k) (hq : k ≤ q.1)
    : value (before ++ p :: q :: after) k = some (straight p q k) := by
  induction before with
  | nil =>
    rcases lt_or_eq_of_le hq with hlt | rfl
    . exact value_cons_of_between hp hlt
    . obtain ⟨hhead, htail⟩ := List.pairwise_cons.mp h
      rw [List.nil_append, value_cons_of_le (le_refl _), value_of_mem htail List.mem_cons_self,
        straight_right (hhead q List.mem_cons_self)]
  | cons e before ih =>
    obtain ⟨-, htail⟩ := List.pairwise_cons.mp h
    have hskip : value (e :: (before ++ p :: q :: after)) k = value (before ++ p :: q :: after) k := by
      cases before with
      | nil => exact value_cons_of_le hp
      | cons e' before => exact value_cons_of_le (le_trans (le_of_lt ((List.pairwise_cons.mp htail).1 p (by simp))) hp)
    rw [List.cons_append, hskip, ih htail]

theorem value_mono (h : Ascending points) (hrise : points.Pairwise (fun p q => p.2 ≤ q.2))
    (hk : k ≤ k') {y y' : K}
    (hy : value points k = some y) (hy' : value points k' = some y')
    : y ≤ y' := by
  induction points generalizing k y with
  | nil => cases hy
  | cons p points ih =>
    obtain ⟨hhead, htail⟩ := List.pairwise_cons.mp h
    obtain ⟨hrise, hrises⟩ := List.pairwise_cons.mp hrise
    cases points with
    | nil =>
      rw [value] at hy hy'
      split at hy
      . split at hy'
        . exact le_of_eq (Option.some.inj (hy.symm.trans hy'))
        . cases hy'
      . cases hy
    | cons q points =>
      have hpq : p.1 < q.1 := hhead q List.mem_cons_self
      have hle : p.2 ≤ q.2 := hrise q List.mem_cons_self
      by_cases hlt : k < q.1
      . rw [value_cons_of_between (le_of_value h hy) hlt] at hy
        cases hy
        by_cases hlt' : k' < q.1
        . rw [value_cons_of_between (le_of_value h hy') hlt'] at hy'
          cases hy'
          exact straight_mono hpq hle hk
        . -- the second point is between the two values
          rw [value_cons_of_le (not_lt.mp hlt')] at hy'
          have hbelow : straight p q k ≤ q.2 := le_of_le_of_eq
            (straight_mono hpq hle (le_of_lt hlt)) (straight_right hpq)
          have habove : q.2 ≤ y' := ih htail hrises (not_lt.mp hlt')
            (value_of_mem htail List.mem_cons_self) hy'
          exact le_trans hbelow habove
      . rw [value_cons_of_le (not_lt.mp hlt)] at hy
        rw [value_cons_of_le (le_trans (not_lt.mp hlt) hk)] at hy'
        exact ih htail hrises hk hy hy'

end

end Polyline
end Emane

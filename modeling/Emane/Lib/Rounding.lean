import Mathlib.Data.Nat.Basic
import Mathlib.Algebra.Order.Ring.Nat

/-!
This module contains the conversion of an interval between units in machine integers: it is scaled
and narrowed by the one who sends it, rounded to the nearest unit by the one who receives it, and
added to a time.
-/

namespace Emane

def nearest (w m v : Nat) : Nat :=
  if 1 < m then (v + m / 2) % 2^w / m else v

variable {w n m : Nat}

theorem nearest_of_lt (hm : 0 < m) {v : Nat} (h : v + m / 2 < 2^w) : nearest w m v = (v + m / 2) / m := by
  unfold nearest
  split
  . rw [Nat.mod_eq_of_lt h]
  . have hone : m = 1 := by omega
    subst hone
    rw [Nat.div_one]
    rfl

theorem nearest_mul (hm : 0 < m) {s : Nat} (h : s * m + m / 2 < 2^w) : nearest w m (s * m) = s := by
  have hhalf : m / 2 < m := Nat.div_lt_self hm (by decide)
  rw [nearest_of_lt hm h, Nat.add_comm, Nat.add_mul_div_right _ _ hm, Nat.div_eq_of_lt hhalf,
    Nat.zero_add]

theorem nearest_le {v : Nat} (hm : 0 < m) : nearest w m v ≤ (v + m / 2) / m := by
  unfold nearest
  split
  . exact Nat.div_le_div_right (Nat.mod_le _ _)
  . have hone : m = 1 := by omega
    subst hone
    rw [Nat.div_one]
    exact Nat.le_add_right v _

/--
What is scaled in `w` bits and narrowed to `n` is rounded back if and only if neither of them is
too small for it.
-/
theorem nearest_scaled_iff (hn : n ≤ w) (hm : 0 < m) {s : Nat} (hs : 0 < s)
    : nearest w m (s * m % 2^w % 2^n) = s ↔ s * m < 2^n ∧ s * m + m / 2 < 2^w := by
  have hle : m ≤ s * m := Nat.le_mul_of_pos_left m hs
  rw [Nat.mod_mod_of_dvd _ (Nat.pow_dvd_pow 2 hn)]
  constructor
  . intro h
    have hbelow : s * m ≤ s * m % 2^n + m / 2 := by
      have hdiv := @nearest_le w m (s * m % 2^n) hm
      rw [h] at hdiv
      exact (Nat.le_div_iff_mul_le hm).mp hdiv
    have hlt : s * m < 2^n := by
      by_contra hge
      have hsub : s * m % 2^n + 2^n ≤ s * m := by
        have hquotient : 1 ≤ s * m / 2^n := (Nat.one_le_div_iff (Nat.two_pow_pos n)).mpr
          (Nat.le_of_not_lt hge)
        calc s * m % 2^n + 2^n
            ≤ s * m % 2^n + 2^n * (s * m / 2^n) := Nat.add_le_add_left
              (Nat.le_mul_of_pos_right _ hquotient) _
          _ = s * m := Nat.mod_add_div _ _
      omega
    refine ⟨hlt, ?_⟩
    by_contra hge
    rw [Nat.mod_eq_of_lt hlt] at h
    have hpow : 2^n ≤ 2^w := Nat.pow_le_pow_right (by decide) hn
    have hmany : 1 < m := by
      by_contra hone
      omega
    unfold nearest at h
    rw [if_pos hmany] at h
    have hwrapped : (s * m + m / 2) % 2^w < m := by
      rw [Nat.mod_eq_sub_mod (Nat.le_of_not_lt hge), Nat.mod_eq_of_lt (by omega)]
      omega
    rw [Nat.div_eq_of_lt hwrapped] at h
    omega
  . rintro ⟨hlt, hfits⟩
    rw [Nat.mod_eq_of_lt hlt]
    exact nearest_mul hm hfits

theorem nearest_ne_zero_iff (hm : 0 < m) {v : Nat} (hv : v < 2^w)
    : nearest w m v ≠ 0 ↔ m ≤ v + m / 2 ∧ v + m / 2 < 2^w := by
  by_cases hfits : v + m / 2 < 2^w
  . rw [nearest_of_lt hm hfits, Nat.ne_zero_iff_zero_lt, Nat.div_pos_iff]
    constructor
    . exact fun h => ⟨h.2, hfits⟩
    . exact fun h => ⟨hm, h.1⟩
  . refine iff_of_false ?_ (fun h => hfits h.2)
    rw [not_not]
    have hmany : 1 < m := by
      by_contra hone
      omega
    unfold nearest
    rw [if_pos hmany]
    apply Nat.div_eq_of_lt
    have hle : (v + m / 2) % 2^w ≤ v + m / 2 - 2^w := by
      rw [Nat.mod_eq_sub_mod (Nat.le_of_not_lt hfits)]
      exact Nat.mod_le _ _
    omega

theorem deadline_iff {last span : Nat}
    : (∀ now, (last + span % 2^w) % 2^w ≤ now → last + span ≤ now) ↔ last + span < 2^w := by
  constructor
  . intro h
    exact Nat.lt_of_le_of_lt (h _ (Nat.le_refl _)) (Nat.mod_lt _ (Nat.two_pow_pos w))
  . intro h now hnow
    have hspan : span < 2^w := Nat.lt_of_le_of_lt (Nat.le_add_left _ _) h
    rw [Nat.mod_eq_of_lt hspan, Nat.mod_eq_of_lt h] at hnow
    exact hnow

end Emane

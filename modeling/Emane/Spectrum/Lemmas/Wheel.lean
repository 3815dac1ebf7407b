import Emane.Spectrum.Impl.NoiseRecorder

/-!
This module contains the wheel as a window on a sequence that has no end: the slot of a position
is its remainder modulo the size of the wheel.
-/

namespace Emane
namespace Spectrum

theorem emod_sub_eq {a b size : Int} (hsize : 0 < size)
    : (b - a) % size = if a % size ≤ b % size then b % size - a % size else b % size - a % size
        + size := by
  have ha := Int.emod_nonneg a (Int.ne_of_gt hsize)
  have hb := Int.emod_nonneg b (Int.ne_of_gt hsize)
  have ha' := Int.emod_lt_of_pos a hsize
  have hb' := Int.emod_lt_of_pos b hsize
  rw [Int.sub_emod]
  split
  . exact Int.emod_eq_of_lt (by omega) (by omega)
  . rw [← Int.add_emod_right]
    exact Int.emod_eq_of_lt (by omega) (by omega)

theorem emod_sub_lt_iff {a b n last size : Int} (ha : last - size < a) (hn : 0 ≤ n)
    (han : a + n ≤ last + 1)
    (hb : last - size < b) (hb' : b ≤ last)
    : (b - a) % size < n ↔ a ≤ b ∧ b < a + n := by
  by_cases hab : a ≤ b
  . rw [Int.emod_eq_of_lt (by omega) (by omega)]
    omega
  . rw [← Int.add_emod_right, Int.emod_eq_of_lt (by omega) (by omega)]
    omega

namespace Wheel

variable {α : Type u}

variable (f : α → α)

theorem getElem?_modifyRange (first last : Nat) (store : List α) (i : Nat)
    : (modifyRange f first last store)[i]?
        =
      (store[i]?).map (fun x => if first ≤ i ∧ i < last then f x else x) := by
  simp [modifyRange, List.getElem?_mapIdx]

variable (w : Wheel α)

theorem getElem?_modify {begin slots i : Nat} (hbegin : begin < w.size) (hslots : slots ≤ w.size)
    (hi : i < w.size)
    : (w.modify f begin slots).store[i]?
        =
      (w.store[i]?).map (fun x =>
          if (begin ≤ i ∧ i < begin + slots) ∨ i + w.size < begin + slots then f x else x) := by
  have hremainder : begin + slots > w.size → (begin + slots) % w.size = begin + slots - w.size := by
    intro hgt
    rw [Nat.mod_eq_sub_mod (by omega)]
    exact Nat.mod_eq_of_lt (by omega)
  unfold modify
  rw [getElem?_modifyRange, getElem?_modifyRange, Option.map_map]
  congr 1
  funext x
  simp only [Function.comp_apply]
  split
  . next hgt =>
    by_cases hlow : i + w.size < begin + slots
    . rw [if_pos (by omega), if_neg (by omega), if_pos (by omega)]
    . rw [if_neg (by omega)]
      by_cases hhigh : begin ≤ i
      . rw [if_pos (by omega), if_pos (by omega)]
      . rw [if_neg (by omega), if_neg (by omega)]
  . next hle =>
    rw [if_neg (by omega)]
    by_cases hin : begin ≤ i ∧ i < begin + slots
    . rw [if_pos (by omega), if_pos (by omega)]
    . rw [if_neg (by omega), if_neg (by omega)]

variable (a : Int)

theorem valid_emod_iff {n : Int} (hsize : 0 < w.size)
    : w.Valid (a % w.size) n ↔ 0 ≤ n ∧ n ≤ w.size := by
  have ha := Int.emod_nonneg a (Int.ne_of_gt (by omega : (0 : Int) < w.size))
  have ha' := Int.emod_lt_of_pos a (by omega : (0 : Int) < w.size)
  unfold Valid
  omega

def paint (f : α → α) (a n : Int) (w : Wheel α) : Wheel α :=
  w.modify f (a % w.size).toNat n.toNat

@[simp]
theorem size_paint (n : Int) (w : Wheel α) : (w.paint f a n).size = w.size := by
  rfl

theorem set_emod (n : Int) (value : α) (hsize : 0 < w.size)
    : w.set (a % w.size) n value =
        if 0 ≤ n ∧ n ≤ w.size then some (w.paint (fun _ => value) a n) else none := by
  unfold set
  simp only [valid_emod_iff w a hsize]
  rfl

theorem add_emod [Add α] (w : Wheel α) (a n : Int) (value : α) (hsize : 0 < w.size)
    : w.add (a % w.size) n value =
        if 0 ≤ n ∧ n ≤ w.size then some (w.paint (fun x => x + value) a n) else none := by
  unfold add
  simp only [valid_emod_iff w a hsize]
  rfl

variable [Zero α]

def slot (w : Wheel α) (b : Int) : α :=
  w.store.getD (b % w.size).toNat 0

theorem slot_modify {a b n : Int} (hsize : 0 < w.size) (hn : 0 ≤ n) (hn' : n ≤ w.size)
    : (w.modify f (a % w.size).toNat n.toNat).slot b
        =
      if (b - a) % w.size < n then f (w.slot b) else w.slot b := by
  have ha := Int.emod_nonneg a (Int.ne_of_gt (by omega : (0 : Int) < w.size))
  have hb := Int.emod_nonneg b (Int.ne_of_gt (by omega : (0 : Int) < w.size))
  have ha' := Int.emod_lt_of_pos a (by omega : (0 : Int) < w.size)
  have hb' := Int.emod_lt_of_pos b (by omega : (0 : Int) < w.size)
  have hlt : (b % w.size).toNat < w.store.length := by
    rw [w.length_store]
    omega
  have hcond : (b - a) % w.size < n
      ↔ ((a % w.size).toNat ≤ (b % w.size).toNat ∧ (b % w.size).toNat < (a % w.size).toNat + n.toNat)
        ∨ (b % w.size).toNat + w.size < (a % w.size).toNat + n.toNat := by
    rw [emod_sub_eq (by omega)]
    split
    . omega
    . omega
  unfold slot
  rw [List.getD_eq_getElem?_getD, List.getD_eq_getElem?_getD]
  change (Option.getD (w.modify f (a % w.size).toNat n.toNat).store[(b % w.size).toNat]? 0) = _
  rw [getElem?_modify f w (by omega) (by omega) (by omega)]
  rw [List.getElem?_eq_getElem hlt]
  simp only [Option.map_some, Option.getD_some]
  by_cases h : (b - a) % w.size < n
  . rw [if_pos h, if_pos (hcond.mp h)]
  . rw [if_neg h, if_neg (fun hc => h (hcond.mpr hc))]

theorem slot_paint {w : Wheel α} {size : Nat} (hw : w.size = size) (hsize : 0 < size) (last : Int)
    {a b n : Int} (ha : last - size < a) (hn : 0 ≤ n) (han : a + n ≤ last + 1)
    (hb : last - size < b) (hb' : b ≤ last)
    : (w.paint f a n).slot b = if a ≤ b ∧ b < a + n then f (w.slot b) else w.slot b := by
  subst hw
  unfold paint
  rw [slot_modify f w hsize hn (by omega)]
  simp only [emod_sub_lt_iff ha hn han hb hb']

theorem get_eq {last n : Int} (hsize : 0 < w.size) (hn : 0 < n) (hn' : n ≤ w.size)
    : w.get (last % w.size) n = some
        ((List.range n.toNat).map (fun k : Nat => w.slot (last - n + 1 + k))) := by
  have hlast := Int.emod_nonneg last (Int.ne_of_gt (by omega : (0 : Int) < w.size))
  have hlast' := Int.emod_lt_of_pos last (by omega : (0 : Int) < w.size)
  have hstore := w.length_store
  -- the slot of the k-th position, before and after the end of the wheel
  have hslot : ∀ k : Nat, (k : Int) < n →
      w.slot (last - n + 1 + k)
        = w.store.getD (if n - 1 - k ≤ last % w.size then (last % w.size - (n - 1 - k)).toNat
            else (last % w.size - (n - 1 - k) + w.size).toNat) 0 := by
    intro k hk
    unfold slot
    have hshift : last - n + 1 + k = last - (n - 1 - k) := by omega
    have hmod : (n - 1 - k) % w.size = n - 1 - k := Int.emod_eq_of_lt (by omega) (by omega)
    rw [hshift, emod_sub_eq (by omega), hmod]
    split
    . rfl
    . rfl
  unfold get
  rw [if_pos ⟨(valid_emod_iff w last hsize).mpr ⟨by omega, hn'⟩, by omega⟩]
  simp only
  split
  . next hle =>
    congr 1
    apply List.ext_getElem
    . simp
      omega
    . intro k hk hk'
      simp only [List.length_map, List.length_range] at hk'
      rw [List.getElem_map, List.getElem_range, hslot k (by omega), if_pos (by omega)]
      rw [List.getElem_take, List.getElem_drop, List.getD_eq_getElem?_getD]
      rw [List.getElem?_eq_getElem (by omega), Option.getD_some]
      congr 1
      omega
  . next hgt =>
    congr 1
    apply List.ext_getElem
    . simp
      omega
    . intro k hk hk'
      simp only [List.length_map, List.length_range] at hk'
      rw [List.getElem_map, List.getElem_range, hslot k (by omega)]
      by_cases hlow : k < n.toNat - (last % w.size).toNat - 1
      . rw [if_neg (by omega)]
        rw [List.getElem_append_left (by simp; omega)]
        rw [List.getElem_take, List.getElem_drop, List.getD_eq_getElem?_getD]
        rw [List.getElem?_eq_getElem (by omega), Option.getD_some]
        congr 1
        omega
      . rw [if_pos (by omega)]
        rw [List.getElem_append_right (by simp; omega)]
        rw [List.getElem_take, List.getD_eq_getElem?_getD]
        rw [List.getElem?_eq_getElem (by omega), Option.getD_some]
        congr 1
        simp
        omega

end Wheel
end Spectrum
end Emane

import Mathlib.Tactic.IntervalCases
import Emane.Dlep.Lemmas.DataItem

/-!
This module contains which integers are written and read again as they are if the count of a shift
is taken modulo the width of what is shifted.
-/

namespace Emane

namespace BigEndian

theorem digits_add (k n v : Nat) : digits (k + n) v = digits k (v / 256^n) ++ digits n v := by
  induction k with
  | zero => rw [Nat.zero_add, digits, List.nil_append]
  | succ k ih =>
    have hhead : v >>> (8 * (k + n)) = (v / 256^n) >>> (8 * k) := by
      rw [Nat.shiftRight_eq_div_pow, Nat.shiftRight_eq_div_pow, Nat.pow_mul, Nat.pow_mul,
        show (2^8 : Nat) = 256 from rfl,
        Nat.div_div_eq_div_mul, ← Nat.pow_add, Nat.add_comm n]
    rw [Nat.add_right_comm, digits, digits, ih, hhead, List.cons_append]

theorem digits_eq_digits_zero_iff (n v : Nat) : digits n v = digits n 0 ↔ 256^n ∣ v := by
  have hfold : ∀ v, (digits n v).foldl (shiftIn (8 * n)) 0 = v % 256^n := by
    intro v
    rw [foldl_shiftIn_digits (k := 0) n v (by simp) (by omega), Nat.zero_mul, Nat.zero_add]
  constructor
  . intro h
    have hzero := hfold v
    rw [h, hfold, Nat.zero_mod] at hzero
    exact Nat.dvd_of_mod_eq_zero hzero.symm
  . rintro ⟨c, rfl⟩
    rw [Nat.mul_comm]
    exact digits_mul_add n c 0

end BigEndian

namespace Dlep
namespace Target

variable {T : UnsignedType} {size : Nat}

/--
Exactly the values that do not fit are refused, and the others are read again from their bytes.
-/
structure Codes (val : T.Value) (size : FieldSizeInBytes) (buf : Bytes) : Prop where
  refuses : (∃ e, serialize val size buf = .error e) ↔ 256^size.val ≤ val.toNat
  emits : ∀ n buf', serialize val size buf = .ok (n, buf') →
    n = size ∧ ∃ bytes, buf' = buf ++ bytes ∧ bytes = BigEndian.digits size val.toNat
      ∧ Reader.Reads (deserializeSized T.val size) bytes val.toNat

/--
Smaller types are shifted in four bytes, those of eight bytes are checked with a mask that has been
shifted in four bytes.
-/
def Intact (T : UnsignedType) (size val : Nat) : Prop :=
  if T.val = 8 then
    size ≤ 3 ∨ size = 8 ∨ val < 256^(size - 4) ∨ 256^size ≤ val
  else
    size ≤ 4 ∨ 256^(size - 4) ∣ val

theorem toNat_mask (hsize : size < T.val) : (mask T size).toNat = 2^(8 * T.val) - 2^(8 * (size % 4)) := by
  obtain ⟨sizeof, hsizeof⟩ := T
  rcases hsizeof with rfl | rfl | rfl | rfl
  all_goals
    interval_cases size
    all_goals decide

theorem and_mask_ne_zero_iff (hsize : size < T.val) (val : T.Value)
    : val &&& mask T size ≠ 0 ↔ 256^(size % 4) ≤ val.toNat := by
  have hzero : val &&& mask T size = 0 ↔ val.toNat &&& (2^(8 * T.val) - 2^(8 * (size % 4))) = 0 := by
    rw [← toNat_mask hsize, ← BitVec.toNat_inj, BitVec.toNat_and]
    simp
  rw [not_iff_comm, hzero, BigEndian.and_high_bits_eq_zero_iff val.isLt, Nat.pow_mul, Nat.not_le]
  omega

def emitted (width : Nat) : Nat → Nat → Bytes
  | 0, _ => []
  | i + 1, v => UInt8.ofNat (v >>> (8 * (i % width))) :: emitted width i v

theorem emitted_of_le {width n : Nat} (h : n ≤ width) (v : Nat)
    : emitted width n v = BigEndian.digits n v := by
  induction n with
  | zero => rfl
  | succ n ih => rw [emitted, BigEndian.digits, ih (by omega), Nat.mod_eq_of_lt (by omega)]

theorem emitted_four_add {k : Nat} (h : k ≤ 4) (v : Nat)
    : emitted 4 (k + 4) v = BigEndian.digits k v ++ BigEndian.digits 4 v := by
  induction k with
  | zero => exact emitted_of_le (Nat.le_refl 4) v
  | succ k ih =>
    rw [Nat.add_right_comm, emitted, ih (by omega), Nat.add_mod_right, Nat.mod_eq_of_lt (by omega)]
    rfl

theorem onebyte_eq (i : Nat) (val : T.Value)
    : onebyte val (i + 1) = UInt8.ofNat (val.toNat >>> (8 * (i % max 4 T.val))) := by
  have hwidth : promotedBits T.val = 8 * max 4 T.val := by
    unfold promotedBits
    omega
  have hcount : (i + 1 - 1) * 8 % promotedBits T.val = 8 * (i % max 4 T.val) := by
    rw [hwidth, Nat.add_sub_cancel, Nat.mul_comm i, Nat.mul_mod_mul_left]
  have hle : 8 * T.val ≤ promotedBits T.val := by
    omega
  unfold onebyte
  rw [hcount, BitVec.toNat_ushiftRight, BitVec.toNat_setWidth_of_le hle]

theorem go_append (val : T.Value) (n : Nat) (buf : Bytes) (it : Nat)
    : serializeAt.go val true n buf it = .ok (buf ++ emitted (max 4 T.val) n val.toNat) := by
  induction n generalizing buf with
  | zero => simp [serializeAt.go, emitted]
  | succ n ih =>
    rw [serializeAt.go, if_pos rfl, ih, onebyte_eq, emitted, List.append_assoc, List.singleton_append]

def Refused (T : UnsignedType) (size val : Nat) : Prop :=
  size < T.val ∧ 256^(size % 4) ≤ val

theorem serialize_eq (val : T.Value) (size : Nat) (buf : Bytes)
    : (Refused T size val.toNat → ∃ e, serialize val size buf = .error e)
        ∧ (¬ Refused T size val.toNat → serialize val size buf = .ok
            (size, buf ++ emitted (max 4 T.val) size val.toNat)) := by
  have hcheck : T.val > size ∧ val &&& mask T size ≠ 0 ↔ Refused T size val.toNat :=
    and_congr_right (fun hlt => and_mask_ne_zero_iff hlt val)
  unfold serialize serializeAt
  rw [decide_eq_true rfl, go_append]
  constructor
  . intro h
    rw [if_pos (hcheck.mpr h)]
    exact ⟨_, rfl⟩
  . intro h
    rw [if_neg (fun hmask => h (hcheck.mp hmask))]
    rfl

theorem serialize_eq_ok_iff (h : ShiftsDefined T.val size) (val : T.Value) (buf buf' : Bytes) (n : Nat)
    : serialize val size buf = .ok (n, buf') ↔ n = size
        ∧ ∃ bytes, serializeSized T.val size val.toNat = .ok bytes ∧ buf' = buf ++ bytes := by
  have hval : val.toNat < 256^T.val := (Nat.pow_mul 2 8 T.val) ▸ val.isLt
  have hrefused : Refused T size val.toNat ↔ 256^size ≤ val.toNat := by
    constructor
    . rintro ⟨hlt, hle⟩
      rwa [Nat.mod_eq_of_lt (by have := h.1 hlt; omega)] at hle
    . intro hle
      have hlt : size < T.val := (Nat.pow_lt_pow_iff_right (by decide)).mp (Nat.lt_of_le_of_lt hle hval)
      exact ⟨hlt, by rwa [Nat.mod_eq_of_lt (by have := h.1 hlt; omega)]⟩
  obtain ⟨herror, hok⟩ := serialize_eq val size buf
  by_cases hfits : val.toNat < 256^size
  . have hwide : size ≤ max 4 T.val := by have := h.2; unfold promotedBits at this; omega
    have hbytes := emitted_of_le hwide val.toNat
    rw [hok (fun hr => absurd (hrefused.mp hr) (Nat.not_le.mpr hfits)),
      serializeSized_eq_ok h hval hfits, hbytes]
    simp [eq_comm]
  . obtain ⟨e, he⟩ := herror (hrefused.mpr (Nat.le_of_not_lt hfits))
    rw [he]
    refine iff_of_false (fun heq => by cases heq) ?_
    rintro ⟨-, bytes, hbytes, -⟩
    exact hfits (lt_of_serializeSized hval hbytes)

theorem codes_iff_emitted (val : T.Value) (size : FieldSizeInBytes) (buf : Bytes)
    : Codes val size buf
        ↔ (Refused T size val.toNat ↔ 256^size.val ≤ val.toNat)
          ∧ (¬ Refused T size val.toNat
              → emitted (max 4 T.val) size val.toNat = BigEndian.digits size val.toNat) := by
  obtain ⟨herror, hok⟩ := serialize_eq val size buf
  have hrefuses : (∃ e, serialize val size buf = .error e) ↔ Refused T size val.toNat := by
    refine ⟨?_, herror⟩
    rintro ⟨e, he⟩
    by_contra hnot
    rw [hok hnot] at he
    cases he
  constructor
  . intro h
    refine ⟨hrefuses.symm.trans h.refuses, fun hnot => ?_⟩
    obtain ⟨-, bytes, hbuf, hbytes, -⟩ := h.emits _ _ (hok hnot)
    rw [List.append_cancel_left hbuf, hbytes]
  . rintro ⟨hfits, hbytes⟩
    refine ⟨hrefuses.trans hfits, fun n buf' hser => ?_⟩
    have hnot : ¬ Refused T size val.toNat := by
      intro h
      obtain ⟨e, he⟩ := herror h
      rw [he] at hser
      cases hser
    rw [hok hnot, Except.ok.injEq, Prod.mk.injEq] at hser
    obtain ⟨rfl, rfl⟩ := hser
    refine ⟨rfl, _, rfl, hbytes hnot, ?_⟩
    rw [hbytes hnot]
    apply reads_deserializeSized T.val size.property.2
    . rw [← Nat.pow_mul 2 8]
      exact val.isLt
    . exact Nat.lt_of_not_le (fun hle => hnot (hfits.mpr hle))

theorem codes_iff_of_eight (hT : T.val = 8) (val : T.Value) (size : FieldSizeInBytes) (buf : Bytes)
    : Codes val size buf ↔ size.val ≤ 3 ∨ size.val = 8 ∨ val.toNat < 256^(size.val - 4)
        ∨ 256^size.val ≤ val.toNat := by
  obtain ⟨sizeof, hsizeof⟩ := T
  subst hT
  obtain ⟨size, hsize⟩ := size
  have hval : val.toNat < 256^8 := val.isLt
  rw [codes_iff_emitted]
  simp only [emitted_of_le (show size ≤ max 4 8 from hsize.2), implies_true, and_true, Refused]
  generalize val.toNat = v at hval
  have hpow : 256^(size - 4) ≤ 256^size := Nat.pow_le_pow_right (by decide) (by omega)
  by_cases hsmall : size ≤ 3
  . rw [Nat.mod_eq_of_lt (by omega)]
    omega
  . by_cases height : size = 8
    . subst height
      omega
    . have hmod : size % 4 = size - 4 := by omega
      rw [hmod]
      omega

theorem codes_iff_of_le_four (hT : T.val ≤ 4) (val : T.Value) (size : FieldSizeInBytes) (buf : Bytes)
    : Codes val size buf ↔ size.val ≤ 4 ∨ 256^(size.val - 4) ∣ val.toNat := by
  obtain ⟨size, hsize⟩ := size
  have hval : val.toNat < 256^T.val := by
    rw [← Nat.pow_mul 2 8]
    exact val.isLt
  rw [codes_iff_emitted, Nat.max_eq_left hT]
  simp only [Refused]
  generalize val.toNat = v at hval
  have hfits : size < T.val ∧ 256^(size % 4) ≤ v ↔ 256^size ≤ v := by
    by_cases hlt : size < T.val
    . rw [Nat.mod_eq_of_lt (by omega)]
      exact and_iff_right hlt
    . have hpow : 256^T.val ≤ 256^size := Nat.pow_le_pow_right (by decide) (by omega)
      omega
  rw [hfits, iff_self, true_and]
  by_cases hsmall : size ≤ 4
  . simp only [emitted_of_le hsmall, implies_true, hsmall, true_or]
  . have hnot : ¬ 256^size ≤ v := by
      omega
    have hfour : v / 256^4 = 0 := Nat.div_eq_of_lt
      (Nat.lt_of_lt_of_le hval (Nat.pow_le_pow_right (by decide) hT))
    obtain ⟨k, rfl⟩ : ∃ k, size = k + 4 := ⟨size - 4, by omega⟩
    rw [emitted_four_add (by omega), BigEndian.digits_add, hfour, List.append_cancel_right_eq,
      BigEndian.digits_eq_digits_zero_iff,
      Nat.add_sub_cancel]
    simp only [hnot, not_false_eq_true, forall_const, hsmall, false_or]

theorem codes_iff_intact (T : UnsignedType) (val : T.Value) (size : FieldSizeInBytes) (buf : Bytes)
    : Codes val size buf ↔ Intact T size val.toNat := by
  unfold Intact
  split
  . next hT => exact codes_iff_of_eight hT val size buf
  . next hT => exact codes_iff_of_le_four (by have hcases := T.property; omega) val size buf

theorem not_codes : ¬ ∀ (T : UnsignedType) (val : T.Value) (size : FieldSizeInBytes) (buf : Bytes),
    Codes val size buf := by
  intro h
  have hcodes := h ⟨8, by decide⟩ 1#64 ⟨4, by decide⟩ []
  have hle : 256^4 ≤ (1#64).toNat := hcodes.refuses.mp ⟨_, rfl⟩
  exact absurd hle (by decide)

end Target
end Dlep
end Emane

import Mathlib.Data.List.Induction
import Mathlib.Data.Nat.Bitwise
import Mathlib.Data.Nat.Digits.Defs
import Mathlib.Tactic.Ring
import Emane.Lib.Text

/-!
This module contains texts of decimal digits and the numbers that they denote, and unsigned integers
as bytes, the most significant byte first.
-/

namespace Emane

abbrev Digit := Fin 10

instance instNeZeroTen : NeZero 10 :=
  ⟨by decide⟩

namespace Digit

def char (d : Digit) : Char :=
  Char.ofNat (48 + d.val)

def text (digits : List Digit) : Text :=
  digits.map char

def number (base : Nat) (digits : List Digit) : Nat :=
  Nat.ofDigits base (digits.reverse.map Fin.val)

theorem isDigit_char (d : Digit) : d.char.isDigit = true := by
  revert d
  decide

theorem char_ne {c : Char} (h : c.isDigit = false) (d : Digit) : d.char ≠ c := by
  rintro rfl
  rw [isDigit_char] at h
  cases h

theorem char_eq_zero_iff (d : Digit) : d.char = '0' ↔ d = 0 := by
  revert d
  decide

theorem char_injective : Function.Injective char := by
  unfold Function.Injective
  decide

theorem text_injective : Function.Injective text := by
  exact List.map_injective_iff.mpr char_injective

section

variable {base : Nat} {digits xs ys : List Digit}

@[simp]
theorem text_nil : text [] = [] := by
  rfl

@[simp]
theorem text_cons (d : Digit) : text (d :: digits) = d.char :: text digits := by
  rfl

@[simp]
theorem text_append : text (xs ++ ys) = text xs ++ text ys := by
  exact List.map_append

@[simp]
theorem length_text : (text digits).length = digits.length := by
  exact List.length_map _

theorem text_replicate_zero (n : Nat) : text (List.replicate n 0) = List.replicate n '0' := by
  exact List.map_replicate

theorem not_mem_text {c : Char} (h : c.isDigit = false) : c ∉ text digits := by
  intro hmem
  obtain ⟨d, -, hd⟩ := List.mem_map.mp hmem
  exact char_ne h d hd

theorem text_eq_nil_iff : text digits = [] ↔ digits = [] := by
  exact List.map_eq_nil_iff

theorem number_append : number base (xs ++ ys) = number base xs * base^ys.length + number base ys := by
  unfold number
  rw [List.reverse_append, List.map_append, Nat.ofDigits_append, List.length_map,
    List.length_reverse, Nat.mul_comm, Nat.add_comm]

theorem number_concat (d : Digit) : number base (digits ++ [d]) = number base digits * base + d.val := by
  rw [number_append]
  simp [number]

theorem number_append_zeros (n : Nat)
    : number base (digits ++ List.replicate n 0) = number base digits * base^n := by
  have hzeros : number base (List.replicate n (0 : Digit)) = 0 := by
    unfold number
    rw [List.reverse_replicate, List.map_replicate]
    exact Nat.ofDigits_replicate_zero
  rw [number_append, hzeros, List.length_replicate, Nat.add_zero]

theorem number_zero_cons : number base (0 :: digits) = number base digits := by
  unfold number
  rw [List.reverse_cons, List.map_append]
  exact Nat.ofDigits_append_zero _

theorem number_dropWhile_zero (digits : List Digit)
    : number base (digits.dropWhile (· = 0)) = number base digits := by
  induction digits with
  | nil => rfl
  | cons d digits ih =>
    by_cases hzero : d = 0
    . rw [hzero, List.dropWhile_cons_of_pos (by simp), ih, number_zero_cons]
    . rw [List.dropWhile_cons_of_neg (by simpa using hzero)]

theorem number_pos_of_head (hbase : 0 < base) (d : Digit) (h : d ≠ 0)
    : 0 < number base (d :: digits) := by
  have hsplit := @number_append base [d] digits
  have hsingle : number base [d] = d.val := Nat.ofDigits_singleton
  have hd : 0 < d.val := Fin.pos_iff_ne_zero.mpr h
  rw [List.singleton_append, hsingle] at hsplit
  rw [hsplit]
  exact Nat.add_pos_left (Nat.mul_pos hd (Nat.pow_pos hbase)) _

theorem number_eq_zero_iff (hbase : 0 < base)
    : number base digits = 0 ↔ digits.dropWhile (· = 0) = [] := by
  rw [← number_dropWhile_zero]
  cases hdrop : digits.dropWhile (· = 0) with
  | nil => exact iff_of_true rfl rfl
  | cons d rest =>
    have hd : d ≠ 0 := by
      have hhead := List.head?_dropWhile_not (· = (0 : Digit)) digits
      rw [hdrop] at hhead
      simpa using hhead
    exact iff_of_false (Nat.ne_of_gt (number_pos_of_head hbase d hd)) (List.cons_ne_nil _ _)

theorem le_number_of_mem (hbase : 0 < base) {d : Digit} (h : d ∈ digits)
    : d.val ≤ number base digits := by
  induction digits using List.reverseRecOn with
  | nil => exact absurd h List.not_mem_nil
  | append_singleton digits d' ih =>
    rw [number_concat]
    rcases List.mem_append.mp h with hmem | hmem
    . have hle := Nat.le_mul_of_pos_right (number base digits) hbase
      have hd := ih hmem
      omega
    . obtain rfl := List.mem_singleton.mp hmem
      exact Nat.le_add_left _ _

theorem number_mono {base' : Nat} (h : base ≤ base') : number base digits ≤ number base' digits := by
  exact Nat.ofDigits_monotone _ h

theorem number_eight_eq_iff (h : ∀ d ∈ digits, d < 8)
    : number 8 digits = number 10 digits ↔ number 10 digits ≤ 7 := by
  induction digits using List.reverseRecOn with
  | nil => exact iff_of_true rfl (by decide)
  | append_singleton digits d _ =>
    have hd : d.val < 8 := h d (by simp)
    have hle := @number_mono 8 digits 10 (by decide)
    rw [number_concat, number_concat]
    omega

end

end Digit

namespace BigEndian

def digits : Nat → Nat → List UInt8
  | 0, _ => []
  | n + 1, v => UInt8.ofNat (v >>> (8 * n)) :: digits n v

def shiftIn (width acc : Nat) (b : UInt8) : Nat :=
  (acc <<< 8) % 2^width ||| b.toNat

@[simp]
theorem length_digits (n v : Nat) : (digits n v).length = n := by
  induction n with
  | zero => rfl
  | succ n ih => simp [digits, ih]

theorem shiftIn_eq {width acc : Nat} {b : UInt8} (h : acc * 256 < 2^width)
    : shiftIn width acc b = acc * 256 + b.toNat := by
  unfold shiftIn
  have hshift : acc <<< 8 = acc * 256 := Nat.shiftLeft_eq acc 8
  rw [Nat.mod_eq_of_lt (by omega)]
  rw [← Nat.shiftLeft_add_eq_or_of_lt b.toNat_lt]
  rw [hshift]

theorem toNat_head (n v : Nat) : (UInt8.ofNat (v >>> (8 * n))).toNat = v / 256^n % 256 := by
  rw [UInt8.toNat_ofNat']
  rw [Nat.shiftRight_eq_div_pow, Nat.pow_mul]

theorem foldl_shiftIn_digits {width acc k : Nat} (n v : Nat) (hacc : acc < 256^k)
    (hwidth : 8 * (k + n) ≤ width)
    : (digits n v).foldl (shiftIn width) acc = acc * 256^n + v % 256^n := by
  induction n generalizing acc k with
  | zero =>
    simp [digits, Nat.mod_one]
  | succ n ih =>
    have hpow : 256^(k + 1) ≤ 2^width := by
      calc 256^(k + 1)
        _ = 2^(8 * (k + 1)) := by rw [Nat.pow_mul]
        _ ≤ 2^width := Nat.pow_le_pow_right (by decide) (by omega)
    have hlt : acc * 256 + 255 < 256^(k + 1) := by
      omega
    have hbyte : v / 256^n % 256 < 256 := Nat.mod_lt _ (by decide)
    have hroom : acc * 256 < 2^width := Nat.lt_of_le_of_lt (Nat.le_add_right _ 255)
      (Nat.lt_of_lt_of_le hlt hpow)
    simp only [digits, List.foldl_cons]
    rw [shiftIn_eq hroom]
    rw [toNat_head]
    rw [ih (k := k + 1)]
    . rw [Nat.pow_succ, Nat.mod_mul]
      ring
    . exact Nat.lt_of_le_of_lt (Nat.add_le_add_left (Nat.le_of_lt_succ hbyte) _) hlt
    . omega

theorem foldl_digits {width n v : Nat} (hv : v < 256^n) (hwidth : 8 * n ≤ width)
    : (digits n v).foldl (shiftIn width) 0 = v := by
  rw [foldl_shiftIn_digits (k := 0) n v (by simp) (by omega)]
  rw [Nat.zero_mul, Nat.zero_add]
  exact Nat.mod_eq_of_lt hv

theorem digits_mul_add (n c v : Nat) : digits n (c * 256^n + v) = digits n v := by
  induction n generalizing c with
  | zero => rfl
  | succ n ih =>
    have hsplit : c * 256^(n + 1) + v = c * 256 * 256^n + v := by ring
    rw [hsplit]
    unfold digits
    rw [ih (c * 256), List.cons.injEq]
    refine ⟨?_, rfl⟩
    apply UInt8.toNat.inj
    rw [toNat_head, toNat_head, Nat.mul_comm (c * 256), Nat.mul_add_div (Nat.pow_pos (by decide)),
      Nat.mul_comm c,
      Nat.mul_add_mod]

theorem exists_digits (bs : List UInt8) : ∃ v, v < 256^bs.length ∧ digits bs.length v = bs := by
  induction bs with
  | nil => exact ⟨0, by decide, rfl⟩
  | cons b bs ih =>
    obtain ⟨v, hv, hbs⟩ := ih
    have hb := b.toNat_lt
    refine ⟨b.toNat * 256^bs.length + v, ?_, ?_⟩
    . calc b.toNat * 256^bs.length + v
        _ < b.toNat * 256^bs.length + 256^bs.length := Nat.add_lt_add_left hv _
        _ = (b.toNat + 1) * 256^bs.length := by ring
        _ ≤ 256^bs.length * 256 := by
          rw [Nat.mul_comm]
          exact Nat.mul_le_mul_left _ hb
    . rw [List.length_cons]
      unfold digits
      rw [digits_mul_add, hbs, List.cons.injEq]
      refine ⟨?_, rfl⟩
      apply UInt8.toNat.inj
      rw [toNat_head, Nat.mul_comm, Nat.mul_add_div (Nat.pow_pos (by decide)), Nat.div_eq_of_lt hv,
        Nat.add_zero]
      exact Nat.mod_eq_of_lt hb

theorem digits_foldl {width n : Nat} {bs : List UInt8} (hn : bs.length = n) (hwidth : 8 * n ≤ width)
    : digits n (bs.foldl (shiftIn width) 0) = bs ∧ bs.foldl (shiftIn width) 0 < 256^n := by
  obtain ⟨v, hv, hbs⟩ := exists_digits bs
  rw [hn] at hv hbs
  rw [← hbs, foldl_digits hv hwidth]
  exact ⟨rfl, hv⟩

theorem and_high_bits_eq_zero_iff {v w k : Nat} (hv : v < 2^w) (hk : k ≤ w)
    : v &&& (2^w - 2^k) = 0 ↔ v < 2^k := by
  have hmask : 2^w - 2^k = (2^(w - k) - 1) <<< k := by
    rw [Nat.shiftLeft_eq, Nat.sub_mul, ← Nat.pow_add, Nat.sub_add_cancel hk, Nat.one_mul]
  rw [hmask]
  constructor
  . intro h
    apply Nat.lt_pow_two_of_testBit
    intro i hi
    have hbit := congrArg (fun x => x.testBit i) h
    by_cases hiw : i < w
    . have hlt : i - k < w - k := by omega
      simpa [hi, hlt] using hbit
    . exact Nat.testBit_lt_two_pow (Nat.lt_of_lt_of_le hv (Nat.pow_le_pow_right (by decide) (by omega)))
  . intro h
    apply Nat.eq_of_testBit_eq
    intro i
    simp only [Nat.testBit_and, Nat.testBit_shiftLeft, Nat.zero_testBit]
    by_cases hi : k ≤ i
    . rw [Nat.testBit_lt_two_pow (Nat.lt_of_lt_of_le h (Nat.pow_le_pow_right (by decide) hi))]
      rfl
    . simp [hi]

end BigEndian
end Emane

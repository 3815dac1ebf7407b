import Emane.Configuration.Lemmas.NumberConversion
import Emane.Tdma.Impl.PORManager

/-!
This module contains which entries of a curve are read as the numbers that they denote.
-/

namespace Emane
namespace Tdma
namespace Pcr

open ParameterConvert

structure IsSinr (l : Literal) : Prop where
  suffix : l.suffix = none
  whole : l.whole ≠ []
  decimals : l.decimals ≤ 2

structure IsPor (l : Literal) : Prop where
  suffix : l.suffix = none
  sign : l.sign = .absent

/--
Exact numbers. A literal is read to its end, and if it is too large then this is known.
-/
structure Exact (f : Floating ℚ) : Prop where
  lt : ∀ a b, f.lt a b = decide (a < b)
  toFloat : ∀ a, f.toFloat a = a
  lowest : f.floatLowest ≤ 0
  strtod : ∀ l : Literal, l.suffix = none → f.floatLowest ≤ l.value → l.value ≤ f.floatMax
    → f.strtod l.text = (l.value, false, [])
  overflow : ∀ l : Literal, l.suffix = none → f.floatMax < l.value → (f.strtod l.text).2.1 = true
    ∨ f.floatMax < (f.strtod l.text).1

def hundredfold (l : Literal) (h : l.whole ≠ []) : Literal :=
  ⟨l.blanks, l.sign, l.digits ++ List.replicate (2 - l.decimals) 0, none,
    none, by simp [Literal.digits, h]⟩

section

variable {l : Literal}

theorem text_hundredfold (h : IsSinr l) : scaleFloatToInteger l.text = (hundredfold l h.whole).text := by
  have htext : (hundredfold l h.whole).text
      = l.blanks.val
          ++ (l.sign.text ++ (Digit.text l.whole
          ++ (Digit.text (l.fraction.getD []) ++ List.replicate (2 - l.decimals) '0'))) := by
    simp [Literal.text, Literal.body, Literal.suffixText, hundredfold, bodyText, pointText,
      Literal.digits, Digit.text_replicate_zero]
  have hblanks : '.' ∉ l.blanks.val ++ (l.sign.text ++ Digit.text l.whole) := by
    rw [List.mem_append, not_or]
    exact ⟨fun hmem => absurd (l.blanks.property _ hmem) (by decide), not_mem_sign_whole⟩
  rw [htext, l.text_of_none h.suffix]
  unfold Literal.body bodyText scaleFloatToInteger
  cases hfraction : l.fraction with
  | none =>
    have hdecimals : l.decimals = 0 := by simp [Literal.decimals, hfraction]
    have hindex : (l.blanks.val ++ (l.sign.text ++ (Digit.text l.whole ++ pointText none))).idxOf?
        '.' = none := by
      simpa [pointText] using hblanks
    rw [hindex, hdecimals]
    simp [pointText, Digit.text]
  | some fraction =>
    have hdecimals : l.decimals = fraction.length := by simp [Literal.decimals, hfraction]
    have hle := h.decimals
    have hsplit : l.blanks.val ++ (l.sign.text ++ (Digit.text l.whole ++ pointText (some fraction)))
        = (l.blanks.val ++ (l.sign.text ++ Digit.text l.whole)) ++ '.' :: Digit.text fraction := by
      simp [pointText]
    have hlength : ((l.blanks.val ++ (l.sign.text ++ Digit.text l.whole)) ++ '.'
      :: Digit.text fraction).length
          - (l.blanks.val ++ (l.sign.text ++ Digit.text l.whole)).length - 1
        = fraction.length := by
      rw [List.length_append, List.length_cons, Digit.length_text]
      omega
    rw [hsplit, idxOf?_append_cons hblanks]
    simp only [hlength]
    rw [if_neg (by omega), hdecimals, List.append_assoc, List.eraseIdx_append_of_length_le
      (Nat.le_refl _), Nat.sub_self]
    simp

theorem value_hundredfold (h : IsSinr l) : (hundredfold l h.whole).value = 100 * l.value := by
  have hpower : (100 : ℚ) = 10^(2 - l.decimals) * 10^l.decimals := by
    rw [← pow_add, Nat.sub_add_cancel h.decimals]
    norm_num
  have hmagnitude : (hundredfold l h.whole).magnitude = 100 * l.magnitude := by
    rw [Literal.magnitude_of_whole rfl rfl]
    unfold Literal.magnitude Literal.power
    rw [h.suffix, hundredfold, Digit.number_append_zeros, hpower]
    push_cast
    field_simp
  have hsign : (hundredfold l h.whole).sign = l.sign := rfl
  unfold Literal.value
  rw [hmagnitude, hsign]
  cases l.sign with
  | absent => rfl
  | plus => rfl
  | minus => exact (mul_neg 100 l.magnitude).symm

theorem reading_eq_iff {k : Int} (hsuffix : l.suffix = none) (hfraction : l.fraction = none)
    (hk : l.value = k)
    : l.reading = some k ↔ (l.whole.head? = some 0 → |k| ≤ 7) := by
  have hvalue : l.sign.apply (Digit.number 10 l.whole : Int) = k :=
    Int.cast_inj.mp ((Literal.value_of_whole hsuffix hfraction).symm.trans hk)
  have habs : |k| = Digit.number 10 l.whole := by
    rw [← hvalue]
    cases l.sign with
    | absent => exact abs_of_nonneg (Int.natCast_nonneg _)
    | plus => exact abs_of_nonneg (Int.natCast_nonneg _)
    | minus => exact (abs_neg _).trans (abs_of_nonneg (Int.natCast_nonneg _))
  have hsmall : |k| ≤ 7 ↔ Digit.number 10 l.whole ≤ 7 := by
    rw [habs]
    exact_mod_cast Iff.rfl
  by_cases hhead : l.whole.head? = some 0
  . have hne : l.whole ≠ [] := by
      rintro hnil
      rw [hnil] at hhead
      cases hhead
    have hbase : baseOf l.whole = 8 := if_pos hhead
    unfold Literal.reading
    rw [hbase, hsmall]
    by_cases hall : ∀ d ∈ l.whole, d < 8
    . rw [if_pos ⟨hne, hfraction, hall⟩, ← Digit.number_eight_eq_iff hall, ← hvalue]
      simp only [hhead, true_implies, Option.some_inj]
      cases l.sign with
      | absent => exact Int.ofNat_inj
      | plus => exact Int.ofNat_inj
      | minus => exact neg_inj.trans Int.ofNat_inj
    . rw [if_neg (fun hread => hall hread.2.2)]
      exact iff_of_false (by simp)
        (fun h => absurd (h hhead) (Nat.not_le.mpr (Literal.seven_lt_number hall)))
  . rw [Literal.reading_of_decimal hfraction hhead, hvalue]
    exact iff_of_true rfl (fun h => absurd h hhead)

theorem toINT32_eq_ok_iff (h : IsSinr l) {k : Int} (hk : (k : ℚ) = 100 * l.value)
    : toINT64 (-2^31) (2^31 - 1) (scaleFloatToInteger l.text) = .ok k
        ↔
      (-2^31 ≤ k ∧ k ≤ 2^31 - 1) ∧ (l.whole.head? = some 0 → |k| ≤ 7) := by
  have hmin : (Int64.ofInt (-2^31)).toInt = -2^31 := by decide
  have hmax : (Int64.ofInt (2^31 - 1)).toInt = 2^31 - 1 := by decide
  have hhead : (hundredfold l h.whole).whole.head? = l.whole.head? := by
    cases hwhole : l.whole with
    | nil => exact absurd hwhole h.whole
    | cons d whole => simp [hundredfold, Literal.digits, hwhole]
  have hreceives := toINT64_receives (Int64.ofInt (-2^31)) (Int64.ofInt (2^31 - 1))
    (hundredfold l h.whole).text_ne_nil
    ((hundredfold l h.whole).scale_of_none rfl) rfl
  rw [hmin, hmax] at hreceives
  rw [text_hundredfold h, hreceives.ok, ← hhead, ← reading_eq_iff rfl rfl
    ((value_hundredfold h).trans hk.symm)]
  constructor
  . rintro ⟨v, hread, rfl, hrange⟩
    exact ⟨hrange, hread⟩
  . rintro ⟨hrange, hread⟩
    exact ⟨k, hread, rfl, hrange⟩

theorem IsPor.nonneg (h : IsPor l) : 0 ≤ l.value := by
  unfold Literal.value Literal.magnitude
  rw [h.sign]
  exact div_nonneg (mul_nonneg (Nat.cast_nonneg _) (by positivity)) (by positivity)

theorem toDouble_eq_ok_iff {f : Floating ℚ} (hf : Exact f) (h : IsPor l) {v : ℚ}
    : toDouble f f.floatLowest f.floatMax l.text = .ok v ↔ v = l.value ∧ l.value ≤ f.floatMax := by
  have hnonneg := h.nonneg
  unfold toDouble
  rw [if_neg l.text_ne_nil, l.scale_of_none h.suffix]
  simp only [bind, Except.bind, l.cString_text h.suffix, hf.lt]
  by_cases hmax : l.value ≤ f.floatMax
  . rw [hf.strtod l h.suffix (le_trans hf.lowest hnonneg) hmax, if_neg]
    . simp [checkEnd, hmax, eq_comm]
    . simp [hmax, le_trans hf.lowest hnonneg]
  . rw [if_pos]
    . simp [hmax]
    . rcases hf.overflow l h.suffix (not_le.mp hmax) with hflag | hlarge
      . exact .inl hflag
      . exact .inr (.inr (by simpa using hlarge))

end

def Entry.sinrText (e : Entry) : Option Text :=
  e.sinr.map Subtype.val

def Entry.porText (e : Entry) : Option Text :=
  e.por.map Subtype.val

structure Entry.Denotes (e : Entry) (l l' : Literal) (point : Int × ℚ) : Prop where
  sinr : e.sinrText = some l.text
  isSinr : IsSinr l
  por : e.porText = some l'.text
  isPor : IsPor l'
  key : (point.1 : ℚ) = 100 * l.value
  value : point.2 = l'.value / 100

def Entry.Stored (f : Floating ℚ) (e : Entry) (point : Int × ℚ) : Prop :=
  ∃ l l', e.Denotes l l' point ∧ loadEntry f e = .ok point

structure Entry.Storable (f : Floating ℚ) (l l' : Literal) (point : Int × ℚ) : Prop where
  range : -2^31 ≤ point.1 ∧ point.1 ≤ 2^31 - 1
  octal : l.whole.head? = some 0 → |point.1| ≤ 7
  max : l'.value ≤ f.floatMax

theorem Entry.stored_iff {f : Floating ℚ} (hf : Exact f) (e : Entry) (point : Int × ℚ)
    : e.Stored f point ↔ ∃ l l', e.Denotes l l' point ∧ Entry.Storable f l l' point := by
  refine exists₂_congr (fun l l' => and_congr_right (fun h => ?_))
  obtain ⟨sinr, por⟩ := e
  obtain ⟨sinr, rfl, hsinr⟩ := Option.map_eq_some_iff.mp h.sinr
  obtain ⟨por, rfl, hpor⟩ := Option.map_eq_some_iff.mp h.por
  have hkey := toINT32_eq_ok_iff h.isSinr h.key
  have hvalue := @toDouble_eq_ok_iff l' f hf h.isPor
  rw [← hsinr] at hkey
  rw [← hpor] at hvalue
  have hload : loadEntry f ⟨some sinr, some por⟩ = .ok point
        ↔
      toINT64 (-2^31) (2^31 - 1) (scaleFloatToInteger sinr.val) = .ok point.1
        ∧ ∃ v, toDouble f f.floatLowest f.floatMax por.val = .ok v ∧ v / 100 = point.2 := by
    simp only [loadEntry]
    cases toINT64 (-2^31) (2^31 - 1) (scaleFloatToInteger sinr.val) with
    | error e => simp [convert, bind, Except.bind]
    | ok k =>
      cases toDouble f f.floatLowest f.floatMax por.val with
      | error e => simp [convert, bind, Except.bind]
      | ok v => simp [convert, bind, Except.bind, pure, Except.pure, hf.toFloat, Prod.ext_iff]
  rw [hload, hkey]
  constructor
  . rintro ⟨⟨hrange, hoctal⟩, v, hv, -⟩
    exact ⟨hrange, hoctal, ((hvalue).mp hv).2⟩
  . intro hstorable
    exact ⟨⟨hstorable.range, hstorable.octal⟩, l'.value, hvalue.mpr ⟨rfl, hstorable.max⟩, h.value.symm⟩

end Pcr
end Tdma
end Emane

import Mathlib.Tactic.FieldSimp
import Mathlib.Data.Rat.Cast.Order
import Emane.Lib.Digits
import Emane.Configuration.Impl.ParameterConvert

/-!
This module contains the decimal literals of the configuration, with the numbers that they denote,
and how the scaling by a suffix changes them.
-/

namespace Emane
namespace ParameterConvert

inductive Sign where
  | absent
  | plus
  | minus
  deriving DecidableEq

namespace Sign

def text : Sign → Text
  | absent => []
  | plus => ['+']
  | minus => ['-']

def apply {ν : Type} [Neg ν] : Sign → ν → ν
  | minus, n => -n
  | _, n => n

theorem apply_eq_zero_iff (sign : Sign) (q : ℚ) : sign.apply q = 0 ↔ q = 0 := by
  cases sign with
  | absent => rfl
  | plus => rfl
  | minus => exact neg_eq_zero

theorem apply_div (sign : Sign) (q r : ℚ) : sign.apply (q / r) = sign.apply q / r := by
  cases sign with
  | absent => rfl
  | plus => rfl
  | minus => exact (neg_div r q).symm

theorem cast_apply (sign : Sign) (n : Int) : ((sign.apply n : Int) : ℚ) = sign.apply (n : ℚ) := by
  cases sign with
  | absent => rfl
  | plus => rfl
  | minus => exact Int.cast_neg n

end Sign

inductive Suffix where
  | K
  | M
  | G
  deriving DecidableEq

namespace Suffix

def char : Suffix → Char
  | K => 'K'
  | M => 'M'
  | G => 'G'

def power : Suffix → Nat
  | K => 3
  | M => 6
  | G => 9

end Suffix

structure Literal where
  blanks : {s : Text // ∀ c ∈ s, isBlank c = true}
  sign : Sign
  whole : List Digit
  fraction : Option (List Digit)
  suffix : Option Suffix
  digit : whole ++ fraction.getD [] ≠ []

def pointText : Option (List Digit) → Text
  | none => []
  | some fraction => '.' :: Digit.text fraction

def bodyText (sign : Sign) (whole : List Digit) (fraction : Option (List Digit)) : Text :=
  sign.text ++ (Digit.text whole ++ pointText fraction)

namespace Literal

variable (l : Literal)

def body : Text :=
  bodyText l.sign l.whole l.fraction

def suffixText : Text :=
  match l.suffix with
  | none => []
  | some suffix => [suffix.char]

def text : Text :=
  l.blanks.val ++ (l.body ++ l.suffixText)

def power : Nat :=
  match l.suffix with
  | none => 0
  | some suffix => suffix.power

def decimals : Nat :=
  (l.fraction.getD []).length

def digits : List Digit :=
  l.whole ++ l.fraction.getD []

def magnitude : ℚ :=
  Digit.number 10 l.digits * 10^l.power / 10^l.decimals

def value : ℚ :=
  l.sign.apply l.magnitude

def Integral : Prop :=
  match l.suffix with
  | none => l.fraction = none
  | some suffix => l.decimals ≤ suffix.power

instance : Decidable l.Integral := by
  unfold Integral
  cases l.suffix with
  | none => infer_instance
  | some suffix => infer_instance

def shifted : List Digit :=
  l.digits ++ List.replicate (l.power - l.decimals) 0

end Literal

section

variable {sign : Sign} {whole : List Digit} {fraction : Option (List Digit)}

variable {c : Char}

theorem mem_pointText (h : c ∈ pointText fraction) : c = '.' ∨ c.isDigit = true := by
  cases fraction with
  | none => exact absurd h List.not_mem_nil
  | some fraction =>
    rcases List.mem_cons.mp h with hpoint | hdigit
    . exact .inl hpoint
    . obtain ⟨d, -, rfl⟩ := List.mem_map.mp hdigit
      exact .inr d.isDigit_char

theorem mem_bodyText (h : c ∈ bodyText sign whole fraction)
    : c = '+' ∨ c = '-' ∨ c = '.' ∨ c.isDigit = true := by
  rcases List.mem_append.mp h with hsign | hrest
  . cases sign with
    | absent => exact absurd hsign List.not_mem_nil
    | plus => exact .inl (List.mem_singleton.mp hsign)
    | minus => exact .inr (.inl (List.mem_singleton.mp hsign))
  . rcases List.mem_append.mp hrest with hwhole | hpoint
    . obtain ⟨d, -, rfl⟩ := List.mem_map.mp hwhole
      exact .inr (.inr (.inr d.isDigit_char))
    . exact .inr (.inr (mem_pointText hpoint))

theorem bodyText_ne {c' : Char} (h : c ∈ bodyText sign whole fraction) (hplus : c' ≠ '+')
    (hminus : c' ≠ '-') (hpoint : c' ≠ '.')
    (hdigit : c'.isDigit = false)
    : c ≠ c' := by
  rintro rfl
  rcases mem_bodyText h with rfl | rfl | rfl | hdigit'
  . exact hplus rfl
  . exact hminus rfl
  . exact hpoint rfl
  . exact absurd (hdigit.symm.trans hdigit') Bool.false_ne_true

theorem isSpace_of_isBlank (h : isBlank c = true) : Text.isSpace c = true := by
  rw [isBlank, Bool.or_eq_true, decide_eq_true_eq, decide_eq_true_eq] at h
  rcases h with rfl | rfl
  . decide
  . decide

theorem isSpace_of_mem_bodyText (h : c ∈ bodyText sign whole fraction) : Text.isSpace c = false := by
  rcases mem_bodyText h with rfl | rfl | rfl | hdigit
  . decide
  . decide
  . decide
  . exact Text.isSpace_of_isDigit hdigit

theorem isBlank_of_mem_bodyText (h : c ∈ bodyText sign whole fraction) : isBlank c = false := by
  cases hblank : isBlank c with
  | false => rfl
  | true => exact absurd ((isSpace_of_isBlank hblank).symm.trans
    (isSpace_of_mem_bodyText h)) Bool.true_eq_false_eq_False

theorem head?_bodyText (hc : c = '+' ∨ c = '-')
    : (bodyText sign whole fraction).head? = some c ↔ sign.text = [c] := by
  cases sign with
  | absent =>
    refine iff_of_false (fun hhead => ?_) (List.cons_ne_nil _ _).symm
    have hmem : c ∈ Digit.text whole ++ pointText fraction := List.mem_of_mem_head? hhead
    have hdigit : c = '.' ∨ c.isDigit = true := by
      rcases List.mem_append.mp hmem with hwhole | hpoint
      . obtain ⟨d, -, rfl⟩ := List.mem_map.mp hwhole
        exact .inr d.isDigit_char
      . exact mem_pointText hpoint
    rcases hc with rfl | rfl
    . revert hdigit
      decide
    . revert hdigit
      decide
  | plus => simp [bodyText, Sign.text]
  | minus => simp [bodyText, Sign.text]

theorem dropWhile_zero
    : (Digit.text whole ++ pointText fraction).dropWhile (fun c => c = '0')
        =
      Digit.text (whole.dropWhile (· = 0)) ++ pointText fraction := by
  induction whole with
  | nil =>
    cases fraction with
    | none => rfl
    | some fraction => rfl
  | cons d whole ih =>
    by_cases hzero : d = 0
    . rw [Digit.text_cons, List.cons_append, List.dropWhile_cons_of_pos
        (by simp [Digit.char_eq_zero_iff, hzero]), ih,
        List.dropWhile_cons_of_pos (by simp [hzero])]
    . rw [Digit.text_cons, List.cons_append, List.dropWhile_cons_of_neg
        (by simp [Digit.char_eq_zero_iff, hzero]),
        List.dropWhile_cons_of_neg (by simp [hzero])]
      rfl

theorem stripLeadingZeros_bodyText
    : stripLeadingZeros (bodyText sign whole fraction)
        =
      if whole.dropWhile (· = 0) = [] ∧ fraction = none then
        .error .outOfRange
      else
        .ok (bodyText sign (whole.dropWhile (· = 0)) fraction) := by
  have hsign : (if (bodyText sign whole fraction).head? = some '+'
    ∨ (bodyText sign whole fraction).head? = some '-' then 1 else 0)
      = sign.text.length := by
    simp only [head?_bodyText (.inl rfl), head?_bodyText (.inr rfl)]
    cases sign with
    | absent => rfl
    | plus => rfl
    | minus => rfl
  have hnil : Digit.text (whole.dropWhile (· = 0)) ++ pointText fraction = []
      ↔ whole.dropWhile (· = 0) = [] ∧ fraction = none := by
    rw [List.append_eq_nil_iff, Digit.text_eq_nil_iff]
    cases fraction with
    | none => simp [pointText]
    | some fraction => simp [pointText]
  unfold stripLeadingZeros
  simp only [hsign]
  unfold bodyText
  rw [List.drop_left, dropWhile_zero, List.take_left]
  split
  . next heq => rw [if_pos (hnil.mp heq)]
  . next heq => rw [if_neg (fun h => heq (hnil.mpr h))]

theorem not_mem_sign_whole : '.' ∉ sign.text ++ Digit.text whole := by
  rw [List.mem_append, not_or]
  refine ⟨?_, Digit.not_mem_text (by decide)⟩
  cases sign with
  | absent => decide
  | plus => decide
  | minus => decide

theorem idxOf?_append_cons {before after : Text} (h : c ∉ before)
    : (before ++ c :: after).idxOf? c = some before.length := by
  induction before with
  | nil => simp [List.idxOf?_cons]
  | cons c' before ih =>
    rw [List.mem_cons, not_or] at h
    rw [List.cons_append, List.idxOf?_cons, ih h.2]
    simp [Ne.symm h.1]

theorem eraseIdx_insert (before after : Text) (power : Nat)
    : ((before ++ '.' :: after).take (before.length + power)
        ++ '.' :: (before ++ '.' :: after).drop (before.length + power)).eraseIdx before.length
        =
      before ++ (after.take (power - 1) ++ '.' :: after.drop (power - 1)) := by
  rw [List.take_length_add_append, List.drop_length_add_append, List.append_assoc,
    List.eraseIdx_append_of_length_le (Nat.le_refl _),
    Nat.sub_self]
  cases power with
  | zero => rfl
  | succ power => rfl

theorem movePoint_bodyText (power : Nat)
    : movePoint power (bodyText sign whole fraction)
        =
      if power < (fraction.getD []).length then
        bodyText sign (whole ++ (fraction.getD []).take (power - 1))
          (some ((fraction.getD []).drop (power - 1)))
      else
        bodyText sign (whole ++ fraction.getD [] ++ List.replicate
            (power - (fraction.getD []).length) 0) none := by
  cases fraction with
  | none =>
    have hindex : (bodyText sign whole none).idxOf? '.' = none := by
      simpa [bodyText, pointText] using @not_mem_sign_whole sign whole
    unfold movePoint
    rw [hindex, if_neg (by simp)]
    simp [bodyText, pointText, Digit.text_replicate_zero]
  | some fraction =>
    have hindex : (bodyText sign whole (some fraction)).idxOf? '.' = some
        (sign.text ++ Digit.text whole).length := by
      unfold bodyText pointText
      rw [← List.append_assoc]
      exact idxOf?_append_cons not_mem_sign_whole
    have hdigits : (bodyText sign whole (some fraction)).length
        - (sign.text ++ Digit.text whole).length - 1 = fraction.length := by
      simp only [bodyText, pointText, List.length_append, List.length_cons, Digit.length_text]
      omega
    have hbody : bodyText sign whole (some fraction) = (sign.text ++ Digit.text whole) ++ '.'
        :: Digit.text fraction :=
      (List.append_assoc _ _ _).symm
    unfold movePoint
    simp only [hindex, hdigits, Option.getD_some]
    split
    . rw [hbody, eraseIdx_insert]
      simp [bodyText, pointText, Digit.text]
    . rw [hbody, List.append_assoc, List.eraseIdx_append_of_length_le (Nat.le_refl _), Nat.sub_self]
      simp [bodyText, pointText, Digit.text_replicate_zero]

theorem takeWhile_isDigit
    : (Digit.text whole ++ pointText fraction).takeWhile Char.isDigit = Digit.text whole := by
  induction whole with
  | nil =>
    cases fraction with
    | none => rfl
    | some fraction => rfl
  | cons d whole ih =>
    rw [Digit.text_cons, List.cons_append, List.takeWhile_cons_of_pos d.isDigit_char, ih]

end

theorem bodyText_inj {sign sign' : Sign} {whole whole' : List Digit}
    {fraction fraction' : Option (List Digit)}
    (h : bodyText sign whole fraction = bodyText sign' whole' fraction')
    : sign = sign' ∧ whole = whole' ∧ fraction = fraction' := by
  have hhead : ∀ c, c = '+' ∨ c = '-' → (sign.text = [c] ↔ sign'.text = [c]) := by
    intro c hc
    rw [← head?_bodyText hc, h, head?_bodyText hc]
  have hsign : sign = sign' := by
    have hplus := hhead '+' (.inl rfl)
    have hminus := hhead '-' (.inr rfl)
    revert hplus hminus
    cases sign with
    | absent => cases sign' <;> decide
    | plus => cases sign' <;> decide
    | minus => cases sign' <;> decide
  subst hsign
  have hrest : Digit.text whole ++ pointText fraction = Digit.text whole' ++ pointText fraction' :=
    List.append_cancel_left h
  have hwhole : Digit.text whole = Digit.text whole' := by
    rw [← @takeWhile_isDigit whole fraction, hrest, takeWhile_isDigit]
  rw [hwhole] at hrest
  have hpoint := List.append_cancel_left hrest
  refine ⟨rfl, Digit.text_injective hwhole, ?_⟩
  cases fraction with
  | none =>
    cases fraction' with
    | none => rfl
    | some fraction' => cases hpoint
  | some fraction =>
    cases fraction' with
    | none => cases hpoint
    | some fraction' => rw [Digit.text_injective (List.cons.inj hpoint).2]

namespace Literal

variable (l : Literal)

theorem body_ne_nil : l.body ≠ [] := by
  intro hnil
  have hdigits := List.append_eq_nil_iff.mp (List.append_eq_nil_iff.mp hnil).2
  have hwhole := Digit.text_eq_nil_iff.mp hdigits.1
  have hfraction : l.fraction = none := by
    cases hfraction : l.fraction with
    | none => rfl
    | some fraction =>
      rw [hfraction] at hdigits
      exact absurd hdigits.2 (List.cons_ne_nil _ _)
  exact l.digit (by rw [hwhole, hfraction]; rfl)

theorem dropWhile_blanks {p : Char → Bool} (hblanks : ∀ c ∈ l.blanks.val, p c = true)
    (hbody : ∀ c ∈ l.body, p c = false)
    : (l.blanks.val ++ l.body).dropWhile p = l.body := by
  rw [List.dropWhile_append_of_pos hblanks]
  cases hcases : l.body with
  | nil => rfl
  | cons c body => rw [List.dropWhile_cons_of_neg (by simp [hbody c (by simp [hcases])])]

theorem stripLeadingWhitespace_blanks : stripLeadingWhitespace (l.blanks.val ++ l.body) = l.body := by
  have hall : (l.blanks.val ++ l.body).all isBlank = false := by
    cases hcases : l.body with
    | nil => exact absurd hcases l.body_ne_nil
    | cons c body =>
      have hc : isBlank c = false := isBlank_of_mem_bodyText (show c ∈ l.body by simp [hcases])
      simp [hc]
  unfold stripLeadingWhitespace
  rw [hall]
  exact l.dropWhile_blanks l.blanks.property (fun c hc => isBlank_of_mem_bodyText hc)

theorem powerOf10_text : powerOf10 l.text = l.power := by
  unfold text suffixText power
  cases l.suffix with
  | none =>
    have hne : ∀ c ∈ l.blanks.val ++ l.body, c ≠ 'G' ∧ c ≠ 'M' ∧ c ≠ 'K' := by
      intro c hc
      rcases List.mem_append.mp hc with hblank | hbody
      . have hblank' := l.blanks.property c hblank
        refine ⟨?_, ?_, ?_⟩ <;> (rintro rfl; revert hblank'; decide)
      . exact ⟨bodyText_ne hbody (by decide) (by decide) (by decide) (by decide),
          bodyText_ne hbody (by decide) (by decide) (by decide) (by decide),
          bodyText_ne hbody (by decide) (by decide) (by decide) (by decide)⟩
    unfold powerOf10
    rw [List.append_nil]
    split
    . next heq => exact absurd rfl (hne _ (List.mem_of_getLast? heq)).1
    . next heq => exact absurd rfl (hne _ (List.mem_of_getLast? heq)).2.1
    . next heq => exact absurd rfl (hne _ (List.mem_of_getLast? heq)).2.2
    . rfl
  | some suffix =>
    unfold powerOf10
    rw [← List.append_assoc, List.getLast?_concat]
    cases suffix with
    | K => rfl
    | M => rfl
    | G => rfl

theorem scale_of_none (h : l.suffix = none) : scaleNumericalStringRepresentation l.text = .ok l.text := by
  unfold scaleNumericalStringRepresentation
  rw [powerOf10_text, power, h]
  rfl

variable {suffix : Suffix}

theorem scale_of_some (h : l.suffix = some suffix)
    : scaleNumericalStringRepresentation l.text
        =
      if suffix.power < l.decimals then
        .ok (bodyText l.sign ((l.whole ++ (l.fraction.getD []).take (suffix.power - 1)).dropWhile (· = 0))
          (some ((l.fraction.getD []).drop (suffix.power - 1))))
      else if l.shifted.dropWhile (· = 0) = [] then
        .error .outOfRange
      else
        .ok (bodyText l.sign (l.shifted.dropWhile (· = 0)) none) := by
  have hpower : l.power = suffix.power := by
    unfold power
    rw [h]
  have hpos : suffix.power ≠ 0 := by
    cases suffix with
    | K => decide
    | M => decide
    | G => decide
  have hlast : l.text.dropLast = l.blanks.val ++ l.body := by
    unfold text suffixText
    rw [h, ← List.append_assoc, List.dropLast_concat]
  unfold scaleNumericalStringRepresentation
  rw [powerOf10_text, hpower, if_pos hpos, hlast, stripLeadingWhitespace_blanks]
  unfold body
  rw [movePoint_bodyText]
  unfold shifted digits decimals
  rw [hpower]
  split
  . rw [stripLeadingZeros_bodyText, if_neg (by simp)]
  . rw [stripLeadingZeros_bodyText]
    simp only [and_true]

variable {l} in
theorem shifted_of_integral (h : l.suffix = some suffix) (hdecimals : l.decimals ≤ suffix.power)
    : l.magnitude = Digit.number 10 l.shifted := by
  have hpower : (10 : ℚ)^suffix.power = 10^(suffix.power - l.decimals) * 10^l.decimals := by
    rw [← pow_add, Nat.sub_add_cancel hdecimals]
  unfold magnitude shifted power
  rw [h, Digit.number_append_zeros, hpower]
  push_cast
  field_simp

def plain (sign : Sign) (whole : List Digit) (fraction : Option (List Digit))
    (digit : whole ++ fraction.getD [] ≠ []) : Literal :=
  ⟨⟨[], fun _ h => absurd h List.not_mem_nil⟩, sign, whole, fraction, none, digit⟩

theorem text_plain (sign : Sign) (whole : List Digit) (fraction : Option (List Digit))
    (digit : whole ++ fraction.getD [] ≠ [])
    : (plain sign whole fraction digit).text = bodyText sign whole fraction := by
  exact (List.nil_append _).trans (List.append_nil _)

theorem value_plain (sign : Sign) (whole : List Digit) (fraction : Option (List Digit))
    (digit : whole ++ fraction.getD [] ≠ [])
    : (plain sign whole fraction digit).value
        =
      sign.apply ((Digit.number 10 (whole ++ fraction.getD []) : ℚ) / 10^(fraction.getD []).length) := by
  change sign.apply
    ((Digit.number 10 (whole ++ fraction.getD []) : ℚ) * 10^0 / 10^(fraction.getD []).length) = _
  rw [pow_zero, mul_one]

variable {l} in
theorem value_short (h : l.suffix = some suffix) (hlong : suffix.power < l.decimals)
    (digit : (l.whole ++ (l.fraction.getD []).take (suffix.power - 1)).dropWhile (· = 0)
      ++ (some ((l.fraction.getD []).drop (suffix.power - 1))).getD [] ≠ [])
    : (plain l.sign ((l.whole ++ (l.fraction.getD []).take (suffix.power - 1)).dropWhile (· = 0))
        (some ((l.fraction.getD []).drop (suffix.power - 1))) digit).value
        =
      l.value / 10 := by
  have hpos : 0 < suffix.power := by
    cases suffix with
    | K => decide
    | M => decide
    | G => decide
  -- the digits stay the same, there are less of them behind the point
  have hdigits : Digit.number 10
    ((l.whole ++ (l.fraction.getD []).take (suffix.power - 1)).dropWhile (· = 0)
        ++ (l.fraction.getD []).drop (suffix.power - 1))
      = Digit.number 10 l.digits := by
    rw [Digit.number_append, Digit.number_dropWhile_zero, ← Digit.number_append, List.append_assoc,
      List.take_append_drop]
    rfl
  have hpower : (10 : ℚ)^l.decimals = 10^(l.decimals - (suffix.power - 1)) * 10^(suffix.power - 1) := by
    rw [← pow_add, Nat.sub_add_cancel (by omega)]
  have hpower' : (10 : ℚ)^suffix.power = 10^(suffix.power - 1) * 10 := by
    rw [← pow_succ, Nat.sub_add_cancel hpos]
  have hmagnitude : (Digit.number 10 l.digits : ℚ) / 10^(l.decimals - (suffix.power - 1))
      = l.magnitude / 10 := by
    unfold magnitude power
    rw [h, hpower, hpower']
    field_simp
  rw [value_plain, Option.getD_some, hdigits, List.length_drop]
  unfold value
  rw [← Sign.apply_div, ← hmagnitude]
  rfl

end Literal

inductive Scaled (l : Literal) : Except Exception Text → Prop where
  | same (hsuffix : l.suffix = none) : Scaled l (.ok l.text)
  | short (hsuffix : l.suffix ≠ none) (hintegral : ¬l.Integral) (l' : Literal)
    (hsuffix' : l'.suffix = none)
    (hfraction : l'.fraction ≠ none) (hvalue : l'.value = l.value / 10) : Scaled l (.ok l'.text)
  | zero (hsuffix : l.suffix ≠ none) (hintegral : l.Integral) (hvalue : l.value = 0) : Scaled l
    (.error .outOfRange)
  | moved (hsuffix : l.suffix ≠ none) (hintegral : l.Integral) (l' : Literal)
    (hsuffix' : l'.suffix = none) (hfraction : l'.fraction = none)
    (hwhole : l'.whole.head? ≠ some 0) (hvalue : l'.value = l.value) (hne : l.value ≠ 0) : Scaled l
    (.ok l'.text)

namespace Literal

variable (l : Literal)

theorem scaled : Scaled l (scaleNumericalStringRepresentation l.text) := by
  cases hsuffix : l.suffix with
  | none =>
    rw [l.scale_of_none hsuffix]
    exact .same hsuffix
  | some suffix =>
    have hsome : l.suffix ≠ none := by simp [hsuffix]
    have hintegral : l.Integral ↔ l.decimals ≤ suffix.power := by
      unfold Integral
      rw [hsuffix]
    rw [l.scale_of_some hsuffix]
    split
    . next hlong =>
      have hdigit : (l.whole ++ (l.fraction.getD []).take (suffix.power - 1)).dropWhile (· = 0)
            ++ (some ((l.fraction.getD []).drop (suffix.power - 1))).getD [] ≠ [] := by
        intro hnil
        have hdrop := List.drop_eq_nil_iff.mp (List.append_eq_nil_iff.mp hnil).2
        unfold decimals at hlong
        omega
      rw [← text_plain l.sign _ _ hdigit]
      refine .short hsome (fun h => absurd (hintegral.mp h) (Nat.not_le.mpr hlong)) _ rfl
        (Option.some_ne_none _) ?_
      exact value_short hsuffix hlong hdigit
    . next hlong =>
      have hdecimals : l.decimals ≤ suffix.power := Nat.not_lt.mp hlong
      have hmagnitude := shifted_of_integral hsuffix hdecimals
      have hzero : l.value = 0 ↔ l.shifted.dropWhile (· = 0) = [] := by
        unfold value
        rw [Sign.apply_eq_zero_iff, hmagnitude, Nat.cast_eq_zero, Digit.number_eq_zero_iff (by decide)]
      split
      . next hnil => exact .zero hsome (hintegral.mpr hdecimals) (hzero.mpr hnil)
      . next hnil =>
        have hdigit : l.shifted.dropWhile (· = 0) ++ (none : Option (List Digit)).getD [] ≠ [] := by
          rw [Option.getD_none, List.append_nil]
          exact hnil
        rw [← text_plain l.sign _ _ hdigit]
        refine .moved hsome (hintegral.mpr hdecimals) _ rfl rfl ?_ ?_ (fun h => hnil (hzero.mp h))
        . intro hhead
          have hnot := List.head?_dropWhile_not (· = (0 : Digit)) l.shifted
          have hhead' : (l.shifted.dropWhile (· = 0)).head? = some 0 := hhead
          rw [hhead'] at hnot
          exact absurd hnot (by decide)
        . rw [value_plain, Option.getD_none, List.append_nil, Digit.number_dropWhile_zero,
            List.length_nil, pow_zero, div_one]
          unfold value
          rw [hmagnitude]

end Literal
end ParameterConvert
end Emane

import Mathlib.Data.List.TakeWhile
import Emane.Configuration.Lemmas.Literal

/-!
This module contains which literals are converted to the number that they denote.
-/

namespace Emane
namespace ParameterConvert

def baseOf (whole : List Digit) : Nat :=
  if whole.head? = some 0 then 8 else 10

section

variable {sign : Sign} {whole : List Digit} {fraction : Option (List Digit)}

theorem digitValue_char (d : Digit) : digitValue d.char = d.val := by
  revert d
  decide

theorem digitValue_pointText {base : Nat} (hbase : base ≤ 10) {c : Char}
    (h : (pointText fraction).head? = some c)
    : ¬digitValue c < base := by
  cases fraction with
  | none => cases h
  | some fraction =>
    cases h
    have hvalue : digitValue '.' = 36 := by decide
    omega

theorem takeWhile_base {base : Nat} (hbase : base ≤ 10)
    : (Digit.text whole ++ pointText fraction).takeWhile (fun c => digitValue c < base)
        =
      Digit.text (whole.takeWhile (fun d => d.val < base)) := by
  induction whole with
  | nil =>
    cases hpoint : pointText fraction with
    | nil => rfl
    | cons c rest =>
      have hc := @digitValue_pointText fraction base hbase c (by rw [hpoint]; rfl)
      exact List.takeWhile_cons_of_neg (by simpa using hc)
  | cons d whole ih =>
    rw [Digit.text_cons, List.cons_append]
    by_cases hd : d.val < base
    . rw [List.takeWhile_cons_of_pos (by simpa [digitValue_char] using hd),
        List.takeWhile_cons_of_pos (by simpa using hd), ih]
      rfl
    . rw [List.takeWhile_cons_of_neg (by simpa [digitValue_char] using hd),
        List.takeWhile_cons_of_neg (by simpa using hd)]
      rfl

theorem dropWhile_base {base : Nat} (hbase : base ≤ 10)
    : (Digit.text whole ++ pointText fraction).dropWhile (fun c => digitValue c < base)
        =
      Digit.text (whole.dropWhile (fun d => d.val < base)) ++ pointText fraction := by
  induction whole with
  | nil =>
    cases hpoint : pointText fraction with
    | nil => rfl
    | cons c rest =>
      have hc := @digitValue_pointText fraction base hbase c (by rw [hpoint]; rfl)
      exact List.dropWhile_cons_of_neg (by simpa using hc)
  | cons d whole ih =>
    rw [Digit.text_cons, List.cons_append]
    by_cases hd : d.val < base
    . rw [List.dropWhile_cons_of_pos (by simpa [digitValue_char] using hd),
        List.dropWhile_cons_of_pos (by simpa using hd), ih]
    . rw [List.dropWhile_cons_of_neg (by simpa [digitValue_char] using hd),
        List.dropWhile_cons_of_neg (by simpa using hd)]
      rfl

theorem foldl_digitValue (base : Nat) (digits : List Digit)
    : (Digit.text digits).foldl (fun n c => n * base + digitValue c) 0 = Digit.number base digits := by
  induction digits using List.reverseRecOn with
  | nil => rfl
  | append_singleton digits d ih =>
    rw [Digit.text_append, List.foldl_append, ih, Digit.number_concat]
    exact congrArg (Digit.number base digits * base + ·) (digitValue_char d)

theorem basePart_digits (whole : List Digit) (fraction : Option (List Digit))
    : basePart (Digit.text whole ++ pointText fraction)
        = (baseOf whole, Digit.text whole ++ pointText fraction) := by
  have hnot : ∀ c ∈ Digit.text whole ++ pointText fraction, c ≠ 'x' ∧ c ≠ 'X' := by
    intro c hc
    have hmem : c ∈ bodyText .absent whole fraction := hc
    exact ⟨bodyText_ne hmem (by decide) (by decide) (by decide) (by decide), bodyText_ne hmem
      (by decide) (by decide) (by decide) (by decide)⟩
  have hhead : (Digit.text whole ++ pointText fraction).head? = some '0' ↔ whole.head? = some 0 := by
    cases whole with
    | nil =>
      cases fraction with
      | none => decide
      | some fraction => simp [pointText]
    | cons d whole => simp [Digit.char_eq_zero_iff]
  unfold baseOf
  generalize Digit.text whole ++ pointText fraction = s at hnot hhead
  unfold basePart
  split
  . next x d rest =>
    have hx := hnot x (by simp)
    rw [if_neg (fun h => h.1.elim hx.1 hx.2), if_pos (hhead.mp rfl)]
  . rw [if_pos (hhead.mp rfl)]
  . next hzero =>
    rw [if_neg]
    intro h
    cases s with
    | nil => cases hhead.mpr h
    | cons c rest =>
      obtain rfl := Option.some.inj (hhead.mpr h)
      exact hzero rest rfl

theorem takeWhile_baseOf_eq_nil_iff (whole : List Digit)
    : whole.takeWhile (fun d => d.val < baseOf whole) = [] ↔ whole = [] := by
  cases whole with
  | nil => exact iff_of_true rfl rfl
  | cons d whole =>
    have hd : d.val < baseOf (d :: whole) := by
      unfold baseOf
      split
      . next hzero =>
        cases hzero
        decide
      . exact d.isLt
    rw [List.takeWhile_cons_of_pos (by simpa using hd)]
    exact iff_of_false (List.cons_ne_nil _ _) (List.cons_ne_nil _ _)

theorem cString_eq {s : Text} (h : ∀ c ∈ s, c.toNat ≠ 0) : cString s = s := by
  exact List.takeWhile_eq_self_iff.mpr (by simpa using h)

theorem tail_bodyText
    : (if (bodyText sign whole fraction).head? = some '-'
        ∨ (bodyText sign whole fraction).head? = some '+' then
          (bodyText sign whole fraction).tail
        else
          bodyText sign whole fraction)
        =
      Digit.text whole ++ pointText fraction := by
  simp only [head?_bodyText (.inl rfl), head?_bodyText (.inr rfl)]
  cases sign with
  | absent => rfl
  | plus => rfl
  | minus => rfl

end

namespace Literal

variable (l : Literal)

def reading : Option Int :=
  if l.whole ≠ [] ∧ l.fraction = none ∧ ∀ d ∈ l.whole, d.val < baseOf l.whole then
    some (l.sign.apply (Digit.number (baseOf l.whole) l.whole : Int))
  else
    none

variable {l} in
theorem reading_of_decimal (hfraction : l.fraction = none) (hhead : l.whole.head? ≠ some 0)
    : l.reading = some (l.sign.apply (Digit.number 10 l.whole : Int)) := by
  have hbase : baseOf l.whole = 10 := if_neg hhead
  have hne : l.whole ≠ [] := by
    have hdigit := l.digit
    rw [hfraction, Option.getD_none, List.append_nil] at hdigit
    exact hdigit
  unfold reading
  rw [hbase, if_pos ⟨hne, hfraction, fun d _ => d.isLt⟩]

theorem text_of_none (h : l.suffix = none) : l.text = l.blanks.val ++ l.body := by
  unfold text suffixText
  rw [h, List.append_nil]

theorem cString_text (h : l.suffix = none) : cString l.text = l.text := by
  refine cString_eq (fun c hc hzero => ?_)
  have hnul : c = Char.ofNat 0 := by rw [← hzero, Char.ofNat_toNat]
  subst hnul
  rw [l.text_of_none h] at hc
  rcases List.mem_append.mp hc with hblank | hbody
  . exact absurd (l.blanks.property _ hblank) (by decide)
  . exact bodyText_ne hbody (by decide) (by decide) (by decide) (by decide) rfl

theorem strtol_text (h : l.suffix = none)
    : strtol (cString l.text)
        =
      if l.whole = [] then
        ⟨false, 0, l.text⟩
      else
        ⟨l.sign = .minus, Digit.number (baseOf l.whole)
          (l.whole.takeWhile (fun d => d.val < baseOf l.whole)),
          Digit.text (l.whole.dropWhile (fun d => d.val < baseOf l.whole)) ++ pointText l.fraction⟩ := by
  have htext := l.text_of_none h
  have htrimmed : (l.blanks.val ++ l.body).dropWhile Text.isSpace = l.body :=
    l.dropWhile_blanks (fun c hc => isSpace_of_isBlank (l.blanks.property c hc))
      (fun c hc => isSpace_of_mem_bodyText hc)
  have hminus : (l.body.head? = some '-') = (l.sign = .minus) := by
    unfold body
    rw [head?_bodyText (.inr rfl)]
    cases l.sign with
    | absent => decide
    | plus => decide
    | minus => decide
  have hbase : baseOf l.whole ≤ 10 := by
    unfold baseOf
    split <;> decide
  rw [l.cString_text h, htext]
  unfold strtol
  simp only [htrimmed]
  unfold body at hminus ⊢
  rw [tail_bodyText, basePart_digits, takeWhile_base hbase, dropWhile_base hbase, foldl_digitValue]
  simp only [Digit.text_eq_nil_iff, takeWhile_baseOf_eq_nil_iff, hminus]

theorem strtol_reading (h : l.suffix = none)
    : ((strtol (cString l.text)).rest ≠ [] → l.reading = none)
      ∧ ((strtol (cString l.text)).rest = [] →
          l.reading = some (if (strtol (cString l.text)).negative then
              -((strtol (cString l.text)).magnitude : Int)
            else
              (strtol (cString l.text)).magnitude)) := by
  rw [l.strtol_text h]
  by_cases hwhole : l.whole = []
  . rw [if_pos hwhole]
    have hnone : l.reading = none := if_neg (fun hread => hread.1 hwhole)
    refine ⟨fun _ => hnone, fun hrest => ?_⟩
    have hbody := (List.append_eq_nil_iff.mp (List.append_eq_nil_iff.mp hrest).2).1
    exact absurd hbody l.body_ne_nil
  . rw [if_neg hwhole]
    have hrest : Digit.text (l.whole.dropWhile (fun d => d.val < baseOf l.whole))
      ++ pointText l.fraction = []
          ↔
        l.fraction = none ∧ ∀ d ∈ l.whole, d.val < baseOf l.whole := by
      rw [List.append_eq_nil_iff, Digit.text_eq_nil_iff, List.dropWhile_eq_nil_iff, and_comm]
      refine and_congr ?_ (by simp)
      cases l.fraction with
      | none => simp [pointText]
      | some fraction => simp [pointText]
    refine ⟨fun hne => if_neg (fun hread => hne (hrest.mpr hread.2)), fun heq => ?_⟩
    obtain ⟨hfraction, hall⟩ := hrest.mp heq
    have htake : l.whole.takeWhile (fun d => d.val < baseOf l.whole) = l.whole :=
      List.takeWhile_eq_self_iff.mpr (by simpa using hall)
    refine (if_pos ⟨hwhole, hfraction, hall⟩).trans (congrArg some ?_)
    simp only [htake]
    cases l.sign with
    | absent => rfl
    | plus => rfl
    | minus => rfl

end Literal

structure Receives (result : Except Exception Int) (reading : Option Int) (store : Int → Int)
    (min max : Int) : Prop where
  ok : ∀ w, result = .ok w ↔ ∃ v, reading = some v ∧ store v = w ∧ min ≤ w ∧ w ≤ max
  error : (∀ w, result ≠ .ok w) → ∃ e, result = .error (.conversion e)

theorem receives_of_checkEnd {β : Type} {f : β → Int} {bad : Prop} [Decidable bad]
    {e : ConversionException} {parameter rest : Text}
    {value : β} {reading : Option Int} {store : Int → Int} {min max : Int}
    (hnone : rest ≠ [] → reading = none)
    (hsome : rest = [] → ∃ v, reading = some v ∧ (bad ↔ ¬(min ≤ store v ∧ store v ≤ max))
      ∧ (¬bad → f value = store v))
    : Receives ((if bad then .error (.conversion e) else checkEnd parameter rest value).map f)
        reading store min max := by
  by_cases hrest : rest = []
  . obtain ⟨v, hreading, hbad, hvalue⟩ := hsome hrest
    rw [hrest]
    by_cases hb : bad
    . rw [if_pos hb]
      refine ⟨fun w => iff_of_false (by simp [Except.map]) ?_, fun _ => ⟨e, rfl⟩⟩
      rintro ⟨v', hreading', rfl, hinside⟩
      obtain rfl := Option.some.inj (hreading.symm.trans hreading')
      exact hbad.mp hb hinside
    . rw [if_neg hb]
      have hinside := not_not.mp (fun h => hb (hbad.mpr h))
      refine ⟨fun w => ?_, fun hnot => absurd rfl (hnot (f value))⟩
      constructor
      . intro hok
        obtain rfl : f value = w := Except.ok.inj hok
        exact ⟨v, hreading, (hvalue hb).symm, (hvalue hb).symm ▸ hinside⟩
      . rintro ⟨v', hreading', rfl, -⟩
        obtain rfl := Option.some.inj (hreading.symm.trans hreading')
        exact congrArg Except.ok (hvalue hb)
  . have herror : ∃ e', (if bad then .error (.conversion e) else checkEnd parameter rest value).map
        f = Except.error (.conversion e') := by
      split
      . exact ⟨e, rfl⟩
      . cases rest with
        | nil => exact absurd rfl hrest
        | cons c rest => exact ⟨.invalidCharacter parameter c, rfl⟩
    obtain ⟨e', he'⟩ := herror
    rw [he']
    refine ⟨fun w => iff_of_false (by simp) ?_, fun _ => ⟨e', rfl⟩⟩
    rintro ⟨v, hreading, -⟩
    exact absurd (hreading.symm.trans (hnone hrest)) (Option.some_ne_none v)

def storeUnsigned (v : Int) : Int :=
  if -2^64 < v ∧ v < 0 then 2^64 + v else v

section

variable {parameter : Text} {l : Literal}

theorem toINT64_receives (min max : Int64) (hne : parameter ≠ [])
    (hscale : scaleNumericalStringRepresentation parameter = .ok l.text)
    (hsuffix : l.suffix = none)
    : Receives (toINT64 min.toInt max.toInt parameter) l.reading id min.toInt max.toInt := by
  obtain ⟨hnone, hsome⟩ := l.strtol_reading hsuffix
  have hmin := min.le_toInt
  have hmax := max.toInt_lt
  rw [← show (toINT64 min.toInt max.toInt parameter).map id = toINT64 min.toInt max.toInt
    parameter from Except.map_id ▸ rfl]
  unfold toINT64
  rw [if_neg hne, hscale]
  refine receives_of_checkEnd hnone (fun hrest => ⟨_, hsome hrest, ?_, fun _ => rfl⟩)
  simp only [id_eq]
  omega

theorem toUINT64_receives (min max : UInt64) (hne : parameter ≠ [])
    (hscale : scaleNumericalStringRepresentation parameter = .ok l.text)
    (hsuffix : l.suffix = none)
    : Receives ((toUINT64 min.toNat max.toNat parameter).map Int.ofNat) l.reading storeUnsigned
        min.toNat max.toNat := by
  obtain ⟨hnone, hsome⟩ := l.strtol_reading hsuffix
  have hmax := max.toNat_lt
  unfold toUINT64
  rw [if_neg hne, hscale]
  refine receives_of_checkEnd hnone (fun hrest => ⟨_, hsome hrest, ?_, ?_⟩)
  . unfold storeUnsigned
    split <;> split <;> omega
  . intro hinside
    unfold storeUnsigned
    simp only [Int.ofNat_eq_natCast]
    split <;> split <;> omega

end

end ParameterConvert
end Emane

import Emane.Configuration.Lemmas.ParameterConvert

/-!
This module contains for which literals and ranges the scaling and the conversions give the number
that the literal denotes.
-/

namespace Emane
namespace ParameterConvert

def Inside (min max : Int) (q : ℚ) : Prop :=
  ∃ v : Int, q = v ∧ min ≤ v ∧ v ≤ max

structure Converts (result : Except Exception Int) (value : ℚ) (min max : Int) : Prop where
  returned : ∀ v : Int, result = .ok v ↔ value = v ∧ min ≤ v ∧ v ≤ max
  thrown : (∀ v, result ≠ .ok v) → ∃ e, result = .error (.conversion e)

section

variable {result : Except Exception Int} {value : ℚ} {store : Int → Int} {min max : Int}

theorem Receives.converts_iff_of_none (h : Receives result none store min max)
    : Converts result value min max ↔ ¬Inside min max value := by
  have hnot : ∀ w, result ≠ .ok w := by
    intro w hok
    obtain ⟨v, hv, -⟩ := (h.ok w).mp hok
    cases hv
  constructor
  . rintro hconverts ⟨v, hinside⟩
    exact hnot v ((hconverts.returned v).mpr hinside)
  . intro houtside
    exact ⟨fun v => iff_of_false (hnot v) (fun hinside => houtside ⟨v, hinside⟩), h.error⟩

theorem Receives.converts_iff_of_some {o : Int} (h : Receives result (some o) store min max)
    : Converts result value min max ↔ ∀ w : Int, min ≤ w → w ≤ max → (store o = w ↔ value = w) := by
  have hok : ∀ w, result = .ok w ↔ store o = w ∧ min ≤ w ∧ w ≤ max := by
    intro w
    rw [h.ok]
    simp
  constructor
  . intro hconverts w hmin hmax
    have hiff := (hok w).symm.trans (hconverts.returned w)
    exact ⟨fun hw => (hiff.mp ⟨hw, hmin, hmax⟩).1, fun hw => (hiff.mpr ⟨hw, hmin, hmax⟩).1⟩
  . intro hall
    refine ⟨fun w => (hok w).trans ?_, h.error⟩
    exact ⟨fun hw => ⟨(hall w hw.2.1 hw.2.2).mp hw.1, hw.2⟩,
      fun hw => ⟨(hall w hw.2.1 hw.2.2).mpr hw.1, hw.2⟩⟩

end

namespace Literal

variable (l : Literal)

def Octal : Prop :=
  l.suffix = none ∧ l.fraction = none ∧ l.whole.head? = some 0

def octal : Int :=
  l.sign.apply (Digit.number 8 l.whole : Int)

/--
A literal that is converted as it should be: no zero with a suffix, no digits behind the point of
a number in the range, and the same in base 8 if it looks like that.
-/
structure Fits (store : Int → Int) (min max : Int) : Prop where
  zero : l.suffix ≠ none → l.Integral → l.value ≠ 0
  point : Inside min max l.value → l.Integral
  decimal : l.Octal → 7 < l.magnitude →
    ¬Inside min max l.value ∧ ((∀ d ∈ l.whole, d < 8) → ¬(min ≤ store l.octal ∧ store l.octal ≤ max))
  stored : l.Integral → (l.Octal → l.magnitude ≤ 7) →
    ∀ v : Int, l.value = v → store v ≠ v → ¬(min ≤ store v ∧ store v ≤ max)

section

variable {l : Literal} {result : Except Exception Int} {store : Int → Int} {min max : Int}

theorem Octal.integral (h : l.Octal) : l.Integral := by
  unfold Integral
  rw [h.1]
  exact h.2.1

theorem converts_iff_of_read (hstore : ∀ v, 0 ≤ v ∨ min < 0 → store v = v) {v : Int} (hv : l.value = v)
    (h : Receives result (some v) store min max) (hzero : l.suffix ≠ none → l.value ≠ 0)
    (hintegral : l.Integral)
    (hoctal : l.Octal → l.magnitude ≤ 7)
    : Converts result l.value min max ↔ l.Fits store min max := by
  rw [h.converts_iff_of_some, hv]
  constructor
  . intro hall
    refine ⟨fun hsuffix _ => hzero hsuffix, fun _ => hintegral, fun h hlarge => absurd (hoctal h)
      (not_le.mpr hlarge), ?_⟩
    intro _ _ v' hv' hne hinside
    obtain rfl : v = v' := Int.cast_inj.mp (hv.symm.trans hv')
    exact hne (Int.cast_inj.mp ((hall (store v) hinside.1 hinside.2).mp rfl)).symm
  . intro hfits w hmin hmax
    constructor
    . rintro rfl
      by_contra hne
      exact hfits.stored hintegral hoctal v hv (fun h => hne (by rw [h])) ⟨hmin, hmax⟩
    . intro hw
      obtain rfl := Int.cast_inj.mp hw
      exact hstore v (by omega)

theorem converts_iff_of_unread (h : Receives result none store min max) (hintegral : ¬l.Integral)
    : Converts result l.value min max ↔ l.Fits store min max := by
  rw [h.converts_iff_of_none]
  constructor
  . intro houtside
    exact ⟨fun _ h => absurd h hintegral, fun h => absurd h houtside,
      fun h => absurd h.integral hintegral, fun h => absurd h hintegral⟩
  . exact fun hfits hinside => hintegral (hfits.point hinside)

theorem magnitude_of_whole (hsuffix : l.suffix = none) (hfraction : l.fraction = none)
    : l.magnitude = Digit.number 10 l.whole := by
  unfold magnitude digits power decimals
  simp [hsuffix, hfraction]

theorem value_of_whole (hsuffix : l.suffix = none) (hfraction : l.fraction = none)
    : l.value = (l.sign.apply (Digit.number 10 l.whole : Int) : Int) := by
  rw [Sign.cast_apply, value, magnitude_of_whole hsuffix hfraction, Int.cast_natCast]

theorem seven_lt_number {digits : List Digit} (h : ¬∀ d ∈ digits, d < 8)
    : 7 < Digit.number 10 digits := by
  simp only [not_forall] at h
  obtain ⟨d, hmem, hd⟩ := h
  exact Nat.lt_of_lt_of_le (Nat.lt_of_succ_le (not_lt.mp hd)) (Digit.le_number_of_mem (by decide) hmem)

theorem store_octal_ne (hstore : ∀ v, 0 ≤ v ∨ min < 0 → store v = v) (hall : ∀ d ∈ l.whole, d < 8)
    (hlarge : 7 < Digit.number 10 l.whole)
    (hmin : min ≤ l.sign.apply (Digit.number 10 l.whole : Int))
    : store l.octal ≠ l.sign.apply (Digit.number 10 l.whole : Int) := by
  have hne : Digit.number 8 l.whole ≠ Digit.number 10 l.whole :=
    fun heq => absurd ((Digit.number_eight_eq_iff hall).mp heq) (Nat.not_le.mpr hlarge)
  unfold octal
  revert hmin
  cases l.sign with
  | absent =>
    intro _
    simp only [Sign.apply]
    rw [hstore _ (.inl (Int.natCast_nonneg _))]
    exact fun heq => hne (Int.ofNat_inj.mp heq)
  | plus =>
    intro _
    simp only [Sign.apply]
    rw [hstore _ (.inl (Int.natCast_nonneg _))]
    exact fun heq => hne (Int.ofNat_inj.mp heq)
  | minus =>
    intro hmin
    simp only [Sign.apply] at hmin ⊢
    rw [hstore _ (.inr (by omega))]
    omega

theorem converts_iff_of_octal (hstore : ∀ v, 0 ≤ v ∨ min < 0 → store v = v)
    (h : Receives result l.reading store min max) (hoctal : l.Octal)
    : Converts result l.value min max ↔ l.Fits store min max := by
  obtain ⟨hsuffix, hfraction, hhead⟩ := hoctal
  have hbase : baseOf l.whole = 8 := if_pos hhead
  have hvalue := value_of_whole hsuffix hfraction
  have hmagnitude := magnitude_of_whole hsuffix hfraction
  have hlarge : 7 < l.magnitude ↔ 7 < Digit.number 10 l.whole := by
    rw [hmagnitude]
    exact_mod_cast Iff.rfl
  have hne : l.whole ≠ [] := by
    rintro hnil
    rw [hnil] at hhead
    cases hhead
  by_cases hall : ∀ d ∈ l.whole, d < 8
  . have hreading : l.reading = some l.octal := by
      unfold reading octal
      rw [hbase, if_pos ⟨hne, hfraction, hall⟩]
    rw [hreading] at h
    by_cases hsmall : Digit.number 10 l.whole ≤ 7
    . have hsame : l.octal = l.sign.apply (Digit.number 10 l.whole : Int) := by
        unfold octal
        rw [(Digit.number_eight_eq_iff hall).mpr hsmall]
      rw [hsame] at h
      exact converts_iff_of_read hstore hvalue h (fun hs => absurd hsuffix hs)
        (Octal.integral ⟨hsuffix, hfraction, hhead⟩)
        (fun _ => not_lt.mp (fun hl => absurd (hlarge.mp hl) (Nat.not_lt.mpr hsmall)))
    . have hnumber : 7 < Digit.number 10 l.whole := Nat.not_le.mp hsmall
      rw [h.converts_iff_of_some, hvalue]
      constructor
      . intro hsame
        have houtside : ¬Inside min max (l.sign.apply (Digit.number 10 l.whole : Int) : Int) := by
          rintro ⟨w, hw, hmin, hmax⟩
          obtain rfl := Int.cast_inj.mp hw
          exact store_octal_ne hstore hall hnumber hmin ((hsame _ hmin hmax).mpr rfl)
        refine ⟨fun hs => absurd hsuffix hs, fun h => absurd (hvalue ▸ h) houtside,
          fun _ _ => ⟨hvalue ▸ houtside, fun _ hinside => ?_⟩,
          fun _ h => absurd (h ⟨hsuffix, hfraction, hhead⟩) (not_le.mpr (hlarge.mpr hnumber))⟩
        exact houtside ⟨_, (hsame _ hinside.1 hinside.2).mp rfl, hinside⟩
      . intro hfits w hmin hmax
        obtain ⟨houtside, hoctal⟩ := hfits.decimal ⟨hsuffix, hfraction, hhead⟩ (hlarge.mpr hnumber)
        refine iff_of_false ?_ (fun hw => houtside ⟨w, hvalue.trans hw, hmin, hmax⟩)
        rintro rfl
        exact hoctal hall ⟨hmin, hmax⟩
  . have hreading : l.reading = none := by
      unfold reading
      rw [hbase, if_neg (fun hread => hall hread.2.2)]
    have hnumber := hlarge.mpr (seven_lt_number hall)
    rw [hreading] at h
    rw [h.converts_iff_of_none]
    constructor
    . intro houtside
      exact ⟨fun hs => absurd hsuffix hs, fun h => absurd h houtside,
        fun _ _ => ⟨houtside, fun h => absurd h hall⟩,
        fun _ h => absurd (h ⟨hsuffix, hfraction, hhead⟩) (not_le.mpr hnumber)⟩
    . exact fun hfits => (hfits.decimal ⟨hsuffix, hfraction, hhead⟩ hnumber).1

theorem converts_iff_of_same (hstore : ∀ v, 0 ≤ v ∨ min < 0 → store v = v)
    (h : Receives result l.reading store min max)
    (hsuffix : l.suffix = none)
    : Converts result l.value min max ↔ l.Fits store min max := by
  by_cases hfraction : l.fraction = none
  . by_cases hhead : l.whole.head? = some 0
    . exact converts_iff_of_octal hstore h ⟨hsuffix, hfraction, hhead⟩
    . rw [reading_of_decimal hfraction hhead] at h
      have hintegral : l.Integral := by
        unfold Integral
        rw [hsuffix]
        exact hfraction
      exact converts_iff_of_read hstore (value_of_whole hsuffix hfraction) h
        (fun hs => absurd hsuffix hs) hintegral
        (fun ho => absurd ho.2.2 hhead)
  . have hreading : l.reading = none := if_neg (fun hread => hfraction hread.2.1)
    rw [hreading] at h
    refine converts_iff_of_unread h ?_
    unfold Integral
    rw [hsuffix]
    exact hfraction

theorem converts_iff (hstore : ∀ v, 0 ≤ v ∨ min < 0 → store v = v)
    (herror : scaleNumericalStringRepresentation l.text = .error .outOfRange
      → result = .error .outOfRange)
    (hread : ∀ l' : Literal, scaleNumericalStringRepresentation l.text = .ok l'.text → l'.suffix = none →
      Receives result l'.reading store min max)
    : Converts result l.value min max ↔ l.Fits store min max := by
  have hscaled := l.scaled
  generalize scaleNumericalStringRepresentation l.text = scaled at hscaled herror hread
  cases hscaled with
  | same hsuffix => exact converts_iff_of_same hstore (hread l rfl hsuffix) hsuffix
  | short hsuffix hintegral l' hsuffix' hfraction hvalue =>
    have hreading : l'.reading = none := if_neg (fun hread => hfraction hread.2.1)
    have h := hread l' rfl hsuffix'
    rw [hreading] at h
    exact converts_iff_of_unread h hintegral
  | zero hsuffix hintegral hvalue =>
    refine iff_of_false (fun hconverts => ?_) (fun hfits => hfits.zero hsuffix hintegral hvalue)
    obtain ⟨e, he⟩ := hconverts.thrown (by simp [herror rfl])
    rw [herror rfl] at he
    cases he
  | moved hsuffix hintegral l' hsuffix' hfraction hwhole hvalue hne =>
    have h := hread l' rfl hsuffix'
    rw [reading_of_decimal hfraction hwhole] at h
    exact converts_iff_of_read hstore (hvalue.symm.trans (value_of_whole hsuffix' hfraction)) h
      (fun _ => hne) hintegral
      (fun ho => absurd ho.1 hsuffix)

end

theorem text_ne_nil : l.text ≠ [] := by
  intro hnil
  exact l.body_ne_nil (List.append_eq_nil_iff.mp (List.append_eq_nil_iff.mp hnil).2).1

theorem converts_toINT64_iff (min max : Int64)
    : Converts (toINT64 min.toInt max.toInt l.text) l.value min.toInt max.toInt
        ↔ l.Fits id min.toInt max.toInt := by
  refine converts_iff (fun _ _ => rfl) (fun herror => ?_) (fun l' hscale hsuffix => ?_)
  . unfold toINT64
    rw [if_neg l.text_ne_nil, herror]
    rfl
  . exact toINT64_receives min max l.text_ne_nil hscale hsuffix

theorem converts_toUINT64_iff (min max : UInt64)
    : Converts ((toUINT64 min.toNat max.toNat l.text).map Int.ofNat) l.value min.toNat max.toNat
        ↔
      l.Fits storeUnsigned min.toNat max.toNat := by
  refine converts_iff (fun v hv => ?_) (fun herror => ?_) (fun l' hscale hsuffix => ?_)
  . unfold storeUnsigned
    rw [if_neg (by omega)]
  . unfold toUINT64
    rw [if_neg l.text_ne_nil, herror]
    rfl
  . exact toUINT64_receives min max l.text_ne_nil hscale hsuffix

def Scales : Prop :=
  ∃ l' : Literal, l'.suffix = none ∧ l'.value = l.value
    ∧ scaleNumericalStringRepresentation l.text = .ok l'.text

section

variable {l}

theorem value_eq_of_text_eq {l' : Literal} (hsuffix : l.suffix = none) (hsuffix' : l'.suffix = none)
    (h : l.text = l'.text)
    : l.value = l'.value := by
  have htext : ∀ {l : Literal}, l.suffix = none → l.text.dropWhile isBlank = l.body := by
    intro l hl
    rw [l.text_of_none hl]
    exact l.dropWhile_blanks l.blanks.property (fun c hc => isBlank_of_mem_bodyText hc)
  have hbody : l.body = l'.body := by
    rw [← htext hsuffix, h, htext hsuffix']
  obtain ⟨hsign, hwhole, hfraction⟩ := bodyText_inj hbody
  unfold value magnitude digits power decimals
  rw [hsuffix, hsuffix', hsign, hwhole, hfraction]

theorem scales_iff : l.Scales ↔ (l.suffix ≠ none → (l.value ≠ 0 ↔ l.Integral)) := by
  have hscaled := l.scaled
  unfold Scales
  generalize scaleNumericalStringRepresentation l.text = scaled at hscaled
  cases hscaled with
  | same hsuffix => exact iff_of_true ⟨l, hsuffix, rfl, rfl⟩ (fun h => absurd hsuffix h)
  | short hsuffix hintegral l' hsuffix' hfraction hvalue =>
    constructor
    . rintro ⟨l'', hsuffix'', hvalue'', htext⟩ -
      have heq := value_eq_of_text_eq hsuffix' hsuffix'' (Except.ok.inj htext)
      have hzero : l.value = 0 := by
        linarith
      exact iff_of_false (not_not.mpr hzero) hintegral
    . intro h
      have hzero : l.value = 0 := by
        by_contra hne
        exact hintegral ((h hsuffix).mp hne)
      exact ⟨l', hsuffix', by rw [hvalue, hzero, zero_div], rfl⟩
  | zero hsuffix hintegral hvalue =>
    refine iff_of_false ?_ (fun h => (h hsuffix).mpr hintegral hvalue)
    rintro ⟨_, _, _, h⟩
    cases h
  | moved hsuffix hintegral l' hsuffix' hfraction hwhole hvalue hne =>
    exact iff_of_true ⟨l', hsuffix', hvalue, rfl⟩ (fun _ => iff_of_true hne hintegral)

end

theorem scales_and_converts_iff (minSigned maxSigned : Int64) (minUnsigned maxUnsigned : UInt64)
    : (l.Scales ↔ (l.suffix ≠ none → (l.value ≠ 0 ↔ l.Integral)))
      ∧ (Converts (toINT64 minSigned.toInt maxSigned.toInt l.text) l.value minSigned.toInt maxSigned.toInt
          ↔
        l.Fits id minSigned.toInt maxSigned.toInt)
      ∧ (Converts ((toUINT64 minUnsigned.toNat maxUnsigned.toNat l.text).map Int.ofNat) l.value
        minUnsigned.toNat maxUnsigned.toNat
            ∧ (l.value < 0 → ∀ n, toUINT64 minUnsigned.toNat maxUnsigned.toNat l.text ≠ .ok n)
          ↔
        l.Fits storeUnsigned minUnsigned.toNat maxUnsigned.toNat) := by
  refine ⟨scales_iff, l.converts_toINT64_iff minSigned maxSigned, ?_⟩
  rw [← l.converts_toUINT64_iff minUnsigned maxUnsigned]
  refine and_iff_left_of_imp (fun hconverts hnegative n hn => ?_)
  obtain ⟨hvalue, hmin, -⟩ := (hconverts.returned n).mp (by rw [hn]; rfl)
  rw [hvalue] at hnegative
  have hn : (n : Int) < 0 := by exact_mod_cast hnegative
  omega

theorem isBlank_of_mem_nil : ∀ c ∈ ([] : Text), isBlank c = true := by
  intro c hc
  cases hc

def noBlanks : {s : Text // ∀ c ∈ s, isBlank c = true} :=
  ⟨[], isBlank_of_mem_nil⟩

theorem not_scales_not_converts
    : (¬Scales ⟨noBlanks, .absent, [1], some [2, 3, 4, 0], some .K, by decide⟩
        ∧ scaleNumericalStringRepresentation ['1', '.', '2', '3', '4', '0', 'K']
          = .ok ['1', '2', '3', '.', '4', '0'])
      ∧ scaleNumericalStringRepresentation ['0', 'K'] = .error .outOfRange
      ∧ (toINT64 (-2^63) (2^63 - 1) ['0', '1', '0'] = .ok 8
        ∧ ¬Converts (toINT64 (-2^63) (2^63 - 1) ['0', '1', '0'])
          (value ⟨noBlanks, .absent, [0, 1, 0], none, none, by decide⟩) (-2^63)
          (2^63 - 1))
      ∧ toINT64 (-2^63) (2^63 - 1) ['1', '.', '0'] = .error
        (.conversion (.invalidCharacter ['1', '.', '0'] '.'))
      ∧ toUINT64 0 (2^64 - 1) ['-', '1'] = .ok (2^64 - 1) := by
  refine ⟨⟨?_, by decide⟩, by decide, ⟨by decide, ?_⟩, by decide, by decide⟩
  . rw [scales_iff]
    exact fun h => absurd ((h (by decide)).mp (by decide +kernel)) (by decide)
  . intro hconverts
    have hvalue := ((hconverts.returned 8).mp (by decide)).1
    exact absurd hvalue (by decide +kernel)

end Literal
end ParameterConvert
end Emane

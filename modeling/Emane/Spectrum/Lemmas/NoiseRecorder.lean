import Emane.Lib.Machine
import Emane.Spectrum.Lemmas.Wheel

/-!
This module contains what an update writes to the wheel of a noise recorder, by where the
reception lies relative to what has been recorded before, and which of the updates stay within the
wheel.
-/

namespace Emane
namespace Spectrum

theorem NoiseRecorderConfig.totalWheelBins_pos (cfg : NoiseRecorderConfig) : 0 < cfg.totalWheelBins := by
  have hduration := cfg.maxDuration_pos
  apply Nat.div_pos _ cfg.bin_pos
  apply Nat.le_of_dvd
  . unfold Microseconds at *
    omega
  . exact Nat.dvd_of_mod_eq_zero cfg.divisible

namespace NoiseRecorder

variable {P : Type u}

/--
Nothing is recorded, or there is a first and a last bin. Bins that are recorded start from one.
-/
structure WellFormed (r : NoiseRecorder P) : Prop where
  size : r.wheel.size = r.cfg.totalWheelBins
  marks : (r.minStartOfReceptionBin = 0 ∧ r.maxEndOfReceptionBin = 0)
    ∨ (1 ≤ r.minStartOfReceptionBin ∧ r.minStartOfReceptionBin ≤ r.maxEndOfReceptionBin)

def isFirst (r : NoiseRecorder P) : Prop :=
  r.maxEndOfReceptionBin = 0 ∧ r.minStartOfReceptionBin = 0

instance (r : NoiseRecorder P) : Decidable r.isFirst :=
  inferInstanceAs (Decidable (_ ∧ _))

/--
The reception, the gap that it leaves and what it shares with what is recorded are not longer than
the wheel.
-/
def Fits (r : NoiseRecorder P) (startBin endBin : Int) : Prop :=
  let total : Int := r.cfg.totalWheelBins
  if r.isFirst then
    endBin - startBin + 1 ≤ total
  else if endBin < r.minStartOfReceptionBin then
    endBin - startBin + 1 ≤ total ∧ r.minStartOfReceptionBin - endBin - 1 ≤ total
  else if r.maxEndOfReceptionBin < startBin then
    endBin - startBin + 1 ≤ total ∧ startBin - r.maxEndOfReceptionBin - 1 ≤ total
  else
    r.minStartOfReceptionBin - startBin ≤ total
      ∧ endBin - r.maxEndOfReceptionBin ≤ total
      ∧ min endBin r.maxEndOfReceptionBin - max startBin r.minStartOfReceptionBin + 1 ≤ total

instance (r : NoiseRecorder P) (startBin endBin : Int) : Decidable (r.Fits startBin endBin) := by
  unfold Fits
  infer_instance

theorem WellFormed.size_pos {r : NoiseRecorder P} (h : r.WellFormed) : 0 < r.wheel.size := by
  rw [h.size]
  exact r.cfg.totalWheelBins_pos

theorem tmod_startIndex {startBin x total : Int} (hstart : 0 ≤ startBin) (htotal : 0 < total) (hx : 0 ≤ x)
    : (startBin.tmod total + x).tmod total = (startBin + x) % total := by
  rw [Int.tmod_eq_emod_of_nonneg hstart]
  have hnonneg := Int.emod_nonneg startBin (Int.ne_of_gt htotal)
  rw [Int.tmod_eq_emod_of_nonneg (by omega)]
  rw [Int.emod_add_emod]

section

variable {r : NoiseRecorder P} {startBin endBin : Int}
  (hmarks : r.minStartOfReceptionBin ≤ r.maxEndOfReceptionBin)
  (hle : startBin ≤ endBin)

include hmarks hle in
theorem counts_of_before (hbefore : endBin < r.minStartOfReceptionBin)
    : r.beforeDurationCount startBin endBin = endBin - startBin + 1
        ∧ r.afterDurationCount startBin endBin = 0
        ∧ r.remainderBinCount startBin endBin = 0 := by
  have hb : r.beforeDurationCount startBin endBin = endBin - startBin + 1 := by
    unfold beforeDurationCount
    omega
  have ha : r.afterDurationCount startBin endBin = 0 := by
    unfold afterDurationCount
    omega
  unfold remainderBinCount
  omega

include hmarks hle in
theorem counts_of_after (hafter : r.maxEndOfReceptionBin < startBin)
    : r.beforeDurationCount startBin endBin = 0
        ∧ r.afterDurationCount startBin endBin = endBin - startBin + 1
        ∧ r.remainderBinCount startBin endBin = 0 := by
  have hb : r.beforeDurationCount startBin endBin = 0 := by
    unfold beforeDurationCount
    omega
  have ha : r.afterDurationCount startBin endBin = endBin - startBin + 1 := by
    unfold afterDurationCount
    omega
  unfold remainderBinCount
  omega

theorem counts_of_overlap (hstart : startBin ≤ r.maxEndOfReceptionBin)
    (hend : r.minStartOfReceptionBin ≤ endBin)
    : r.beforeDurationCount startBin endBin = max 0 (r.minStartOfReceptionBin - startBin)
        ∧ r.afterDurationCount startBin endBin = max 0 (endBin - r.maxEndOfReceptionBin)
        ∧ r.remainderBinCount startBin endBin
        = min endBin r.maxEndOfReceptionBin - max startBin r.minStartOfReceptionBin + 1 := by
  have hb : r.beforeDurationCount startBin endBin = max 0 (r.minStartOfReceptionBin - startBin) := by
    unfold beforeDurationCount
    omega
  have ha : r.afterDurationCount startBin endBin = max 0 (endBin - r.maxEndOfReceptionBin) := by
    unfold afterDurationCount
    omega
  unfold remainderBinCount
  omega

end

section

variable [Zero P] [Add P] {r : NoiseRecorder P} {startBin endBin : Int} (rxPower : P) (h : r.WellFormed)
  (hstart : 0 ≤ startBin)

include h hstart in
theorem fill_first (hfirst : r.isFirst)
    : r.fill startBin endBin rxPower
        =
      if 0 ≤ endBin - startBin + 1 ∧ endBin - startBin + 1 ≤ r.wheel.size then
        some { r with
          wheel := r.wheel.paint (fun _ => rxPower) startBin (endBin - startBin + 1)
          minStartOfReceptionBin := startBin
          maxEndOfReceptionBin := endBin }
      else
        none := by
  unfold fill
  rw [if_pos (show _ ∧ _ from hfirst), Int.tmod_eq_emod_of_nonneg hstart, ← h.size,
    Wheel.set_emod _ _ _ _ h.size_pos]
  split
  . rfl
  . rfl

section

include h hstart

omit [Zero P] [Add P] in
theorem setBefore_eq {wheel : Wheel P} (hwheel : wheel.size = r.wheel.size)
    : r.setBefore startBin endBin rxPower wheel
        =
      if startBin < r.minStartOfReceptionBin then
        if 0 ≤ r.beforeDurationCount startBin endBin
            ∧ r.beforeDurationCount startBin endBin ≤ r.wheel.size then
          some (wheel.paint (fun _ => rxPower) startBin (r.beforeDurationCount startBin endBin))
        else
          none
      else
        some wheel := by
  have hsize := h.size_pos
  unfold setBefore
  rw [Int.tmod_eq_emod_of_nonneg hstart, ← h.size, ← hwheel]
  rw [Wheel.set_emod _ _ _ _ (by omega)]

omit [Zero P] [Add P] in
theorem setAfter_eq (hafter : r.afterDurationCount startBin endBin ≤ endBin - startBin + 1)
    {wheel : Wheel P}
    (hwheel : wheel.size = r.wheel.size)
    : r.setAfter startBin endBin rxPower wheel
        =
      if endBin > r.maxEndOfReceptionBin then
        if 0 ≤ r.afterDurationCount startBin endBin
            ∧ r.afterDurationCount startBin endBin ≤ r.wheel.size then
          some (wheel.paint (fun _ => rxPower) (endBin + 1 - r.afterDurationCount startBin endBin)
            (r.afterDurationCount startBin endBin))
        else
          none
      else
        some wheel := by
  have hsize := h.size_pos
  have hindex : (startBin.tmod r.wheel.size + (endBin - startBin + 1)
    - r.afterDurationCount startBin endBin).tmod r.wheel.size
      = (endBin + 1 - r.afterDurationCount startBin endBin) % r.wheel.size := by
    rw [Int.add_sub_assoc, tmod_startIndex hstart (by omega) (by omega)]
    congr 1
    omega
  unfold setAfter
  simp only
  rw [← h.size, hindex, ← hwheel]
  rw [Wheel.set_emod _ _ _ _ (by omega)]

theorem addRemainder_eq (hmax : 0 ≤ r.maxEndOfReceptionBin) (hle : startBin ≤ endBin)
    (hbefore : 0 ≤ r.beforeDurationCount startBin endBin) {wheel : Wheel P}
    (hwheel : wheel.size = r.wheel.size)
    : r.addRemainder startBin endBin rxPower wheel
        =
      if r.remainderBinCount startBin endBin ≠ 0 then
        if 0 ≤ r.remainderBinCount startBin endBin
            ∧ r.remainderBinCount startBin endBin ≤ r.wheel.size then
          some (wheel.paint (fun x => x + rxPower) (startBin + r.beforeDurationCount startBin endBin)
            (r.remainderBinCount startBin endBin))
        else
          none
      else if r.beforeDurationCount startBin endBin ≠ 0 then
        if 0 ≤ r.minStartOfReceptionBin - endBin - 1
            ∧ r.minStartOfReceptionBin - endBin - 1 ≤ r.wheel.size then
          some (wheel.paint (fun _ => 0) (endBin + 1) (r.minStartOfReceptionBin - endBin - 1))
        else
          none
      else
        if 0 ≤ startBin - r.maxEndOfReceptionBin - 1
            ∧ startBin - r.maxEndOfReceptionBin - 1 ≤ r.wheel.size then
          some (wheel.paint (fun _ => 0) (r.maxEndOfReceptionBin + 1)
            (startBin - r.maxEndOfReceptionBin - 1))
        else
          none := by
  have hsize := h.size_pos
  have hindex : (startBin.tmod r.wheel.size + (endBin - startBin + 1)).tmod r.wheel.size
      = (endBin + 1) % r.wheel.size := by
    rw [tmod_startIndex hstart (by omega) (by omega)]
    congr 1
    omega
  unfold addRemainder
  simp only
  rw [← h.size, hindex, tmod_startIndex hstart (by omega) hbefore, Int.tmod_eq_emod_of_nonneg
    (by omega), ← hwheel]
  rw [Wheel.set_emod _ _ _ _ (by omega), Wheel.set_emod _ _ _ _ (by omega),
    Wheel.add_emod _ _ _ _ (by omega)]

end

variable (hmin : 1 ≤ r.minStartOfReceptionBin)
  (hmarks : r.minStartOfReceptionBin ≤ r.maxEndOfReceptionBin)
  (hle : startBin ≤ endBin)

include h hstart hmin hmarks hle

theorem fill_before (hbefore : endBin < r.minStartOfReceptionBin)
    : r.fill startBin endBin rxPower
        =
      if endBin - startBin + 1 ≤ r.wheel.size ∧ r.minStartOfReceptionBin - endBin - 1 ≤ r.wheel.size then
        some { r with
          wheel := (r.wheel.paint (fun _ => rxPower) startBin (endBin - startBin + 1)).paint
            (fun _ => 0) (endBin + 1)
            (r.minStartOfReceptionBin - endBin - 1)
          minStartOfReceptionBin := startBin }
      else
        none := by
  obtain ⟨hb, ha, hr⟩ := counts_of_before hmarks hle hbefore
  unfold fill
  rw [if_neg (by omega), setBefore_eq rxPower h hstart rfl, if_pos (by omega), hb]
  split
  . next hcount =>
    simp only [Option.bind_eq_bind, Option.bind_some]
    rw [setAfter_eq rxPower h hstart (by omega) (Wheel.size_paint _ _ _ _), if_neg (by omega),
      Option.bind_some]
    rw [addRemainder_eq rxPower h hstart (by omega) hle (by omega) (Wheel.size_paint _ _ _ _)]
    rw [if_neg (by omega), if_pos (by omega), ha]
    split
    . next hgap =>
      rw [Option.bind_some, if_neg (by omega), if_pos (by omega), if_pos ⟨hcount.2, hgap.2⟩]
      rfl
    . rw [Option.bind_none, if_neg (by omega)]
  . simp only [Option.bind_eq_bind, Option.bind_none]
    rw [if_neg (by omega)]

theorem fill_after (hafter : r.maxEndOfReceptionBin < startBin)
    : r.fill startBin endBin rxPower
        =
      if endBin - startBin + 1 ≤ r.wheel.size ∧ startBin - r.maxEndOfReceptionBin - 1 ≤ r.wheel.size then
        some { r with
          wheel := (r.wheel.paint (fun _ => rxPower) startBin (endBin - startBin + 1)).paint (fun _ => 0)
            (r.maxEndOfReceptionBin + 1) (startBin - r.maxEndOfReceptionBin - 1)
          maxEndOfReceptionBin := endBin }
      else
        none := by
  obtain ⟨hb, ha, hr⟩ := counts_of_after hmarks hle hafter
  have hfirst : endBin + 1 - (endBin - startBin + 1) = startBin := by omega
  unfold fill
  rw [if_neg (by omega), setBefore_eq rxPower h hstart rfl, if_neg (by omega)]
  simp only [Option.bind_eq_bind, Option.bind_some]
  rw [setAfter_eq rxPower h hstart (by omega) rfl, if_pos (by omega), ha, hfirst]
  split
  . next hcount =>
    rw [Option.bind_some, addRemainder_eq rxPower h hstart (by omega) hle (by omega)
      (Wheel.size_paint _ _ _ _)]
    rw [if_neg (by omega), if_neg (by omega), hb]
    split
    . next hgap =>
      rw [Option.bind_some, if_pos (by omega), if_neg (by omega), if_pos ⟨hcount.2, hgap.2⟩]
      rfl
    . rw [Option.bind_none, if_neg (by omega)]
  . rw [Option.bind_none, if_neg (by omega)]

theorem fill_overlap (hleft : startBin ≤ r.maxEndOfReceptionBin)
    (hright : r.minStartOfReceptionBin ≤ endBin)
    : let before := max 0 (r.minStartOfReceptionBin - startBin)
      let after := max 0 (endBin - r.maxEndOfReceptionBin)
      let remainder := min endBin r.maxEndOfReceptionBin - max startBin r.minStartOfReceptionBin + 1
      let w₁ := if startBin < r.minStartOfReceptionBin
        then r.wheel.paint (fun _ => rxPower) startBin before else r.wheel
      let w₂ := if endBin > r.maxEndOfReceptionBin
        then w₁.paint (fun _ => rxPower) (endBin + 1 - after) after else w₁
      r.fill startBin endBin rxPower
        =
      if before ≤ r.wheel.size ∧ after ≤ r.wheel.size ∧ remainder ≤ r.wheel.size then
        some { r with
          wheel := w₂.paint (fun x => x + rxPower) (startBin + before) remainder
          minStartOfReceptionBin := min startBin r.minStartOfReceptionBin
          maxEndOfReceptionBin := max endBin r.maxEndOfReceptionBin }
      else
        none := by
  intro before after remainder w₁ w₂
  obtain ⟨hb, ha, hr⟩ := counts_of_overlap hleft hright
  have hw₁ : w₁.size = r.wheel.size := by
    simp only [w₁]
    split
    . rfl
    . rfl
  have hw₂ : w₂.size = r.wheel.size := by
    simp only [w₂]
    split
    . exact hw₁
    . exact hw₁
  have hbefore : r.setBefore startBin endBin rxPower r.wheel =
      if before ≤ r.wheel.size then some w₁ else none := by
    rw [setBefore_eq rxPower h hstart rfl, hb]
    simp only [w₁, before]
    by_cases hlt : startBin < r.minStartOfReceptionBin
    . rw [if_pos hlt, if_pos hlt]
      congr 1
      rw [eq_iff_iff]
      omega
    . rw [if_neg hlt, if_neg hlt, if_pos (by omega)]
  have hafter : r.setAfter startBin endBin rxPower w₁ =
      if after ≤ r.wheel.size then some w₂ else none := by
    rw [setAfter_eq rxPower h hstart (by omega) hw₁, ha]
    simp only [w₂, after]
    by_cases hgt : endBin > r.maxEndOfReceptionBin
    . rw [if_pos hgt, if_pos hgt]
      congr 1
      rw [eq_iff_iff]
      omega
    . rw [if_neg hgt, if_neg hgt, if_pos (by omega)]
  have hremainder : r.addRemainder startBin endBin rxPower w₂
      = if remainder ≤ r.wheel.size
          then some (w₂.paint (fun x => x + rxPower) (startBin + before) remainder) else none := by
    rw [addRemainder_eq rxPower h hstart (by omega) hle (by omega) hw₂, hb, hr, if_pos (by omega)]
    congr 1
    rw [eq_iff_iff]
    omega
  have hmin' : (if before ≠ 0 then startBin else r.minStartOfReceptionBin)
      = min startBin r.minStartOfReceptionBin := by
    split <;> omega
  have hmax' : (if after ≠ 0 then endBin else r.maxEndOfReceptionBin)
      = max endBin r.maxEndOfReceptionBin := by
    split <;> omega
  unfold fill
  rw [if_neg (by omega), hbefore, hb, ha, hmin', hmax']
  by_cases h₁ : before ≤ r.wheel.size
  . rw [if_pos h₁]
    simp only [Option.bind_eq_bind, Option.bind_some, hafter]
    by_cases h₂ : after ≤ r.wheel.size
    . rw [if_pos h₂]
      simp only [Option.bind_some, hremainder]
      by_cases h₃ : remainder ≤ r.wheel.size
      . rw [if_pos h₃, if_pos ⟨h₁, h₂, h₃⟩]
        rfl
      . rw [if_neg h₃, if_neg (fun hall => h₃ hall.2.2)]
        rfl
    . rw [if_neg h₂, if_neg (fun hall => h₂ hall.2.1)]
      rfl
  . rw [if_neg h₁, if_neg (fun hall => h₁ hall.1)]
    rfl

end

section

variable [Zero P] [Add P] {r : NoiseRecorder P} {startBin endBin : Int}

structure Marks (r r' : NoiseRecorder P) (startBin endBin : Int) : Prop where
  wellFormed : r'.WellFormed
  cfg : r'.cfg = r.cfg
  nemEoRBinMap : r'.nemEoRBinMap = r.nemEoRBinMap
  min_eq : r'.minStartOfReceptionBin = if r.isFirst then startBin else min startBin
    r.minStartOfReceptionBin
  max_eq : r'.maxEndOfReceptionBin = if r.isFirst then endBin else max endBin r.maxEndOfReceptionBin

theorem fill_cases (h : r.WellFormed) (hstart : 1 ≤ startBin) (hle : startBin ≤ endBin) (rxPower : P)
    : (r.Fits startBin endBin ∧ ∃ r', r.fill startBin endBin rxPower = some r' ∧ Marks r r' startBin endBin)
        ∨ (¬ r.Fits startBin endBin ∧ r.fill startBin endBin rxPower = none) := by
  have hsize := h.size
  unfold Fits
  by_cases hfirst : r.isFirst
  . rw [if_pos hfirst, fill_first rxPower h (by omega) hfirst, ← hsize]
    by_cases hfits : endBin - startBin + 1 ≤ r.wheel.size
    . rw [if_pos ⟨by omega, hfits⟩]
      refine Or.inl ⟨hfits, _, rfl, ?_⟩
      constructor
      . exact ⟨hsize, Or.inr ⟨hstart, hle⟩⟩
      . rfl
      . rfl
      . rw [if_pos hfirst]
      . rw [if_pos hfirst]
    . rw [if_neg (fun hall => hfits hall.2)]
      exact Or.inr ⟨hfits, rfl⟩
  . rw [if_neg hfirst, ← hsize]
    obtain ⟨hmin, hmarks⟩ : 1 ≤ r.minStartOfReceptionBin
        ∧ r.minStartOfReceptionBin ≤ r.maxEndOfReceptionBin := by
      cases h.marks with
      | inl hzero => exact absurd ⟨hzero.2, hzero.1⟩ hfirst
      | inr hpos => exact hpos
    have hmarks' : ∀ wheel : Wheel P, wheel.size = r.wheel.size →
        ∀ minBin maxBin, minBin = min startBin r.minStartOfReceptionBin
          → maxBin = max endBin r.maxEndOfReceptionBin →
        Marks r { r with wheel := wheel, minStartOfReceptionBin := minBin, maxEndOfReceptionBin := maxBin }
          startBin endBin := by
      intro wheel hwheel minBin maxBin hminBin hmaxBin
      constructor
      . refine ⟨hwheel.trans hsize, Or.inr ?_⟩
        simp only
        omega
      . rfl
      . rfl
      . rw [if_neg hfirst]
        exact hminBin
      . rw [if_neg hfirst]
        exact hmaxBin
    by_cases hbefore : endBin < r.minStartOfReceptionBin
    . rw [if_pos hbefore, fill_before rxPower h (by omega) hmin hmarks hle hbefore]
      split
      . next hfits =>
        refine Or.inl ⟨by omega, _, rfl, ?_⟩
        refine hmarks' _ ?_ startBin r.maxEndOfReceptionBin (by omega) (by omega)
        rw [Wheel.size_paint, Wheel.size_paint]
      . next hfits => exact Or.inr ⟨by omega, rfl⟩
    . rw [if_neg hbefore]
      by_cases hafter : r.maxEndOfReceptionBin < startBin
      . rw [if_pos hafter, fill_after rxPower h (by omega) hmin hmarks hle hafter]
        split
        . next hfits =>
          refine Or.inl ⟨by omega, _, rfl, ?_⟩
          refine hmarks' _ ?_ r.minStartOfReceptionBin endBin (by omega) (by omega)
          rw [Wheel.size_paint, Wheel.size_paint]
        . next hfits => exact Or.inr ⟨by omega, rfl⟩
      . rw [if_neg hafter, fill_overlap rxPower h (by omega) hmin hmarks hle (by omega) (by omega)]
        split
        . next hfits =>
          refine Or.inl ⟨by omega, _, rfl, hmarks' _ ?_ _ _ rfl rfl⟩
          split
          . split <;> rfl
          . split <;> rfl
        . next hfits => exact Or.inr ⟨by omega, rfl⟩

end

end NoiseRecorder
end Spectrum
end Emane

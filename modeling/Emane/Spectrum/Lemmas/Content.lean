import Mathlib.Algebra.BigOperators.Group.List.Basic
import Emane.Spectrum.Lemmas.NoiseRecorder

/-!
This module contains what a noise recorder says about a bin, and how an update and a window relate
to it.
-/

namespace Emane
namespace Spectrum

def share {P : Type u} [Zero P] (startBin endBin : Int) (rxPower : P) (b : Int) : P :=
  if startBin ≤ b ∧ b ≤ endBin then rxPower else 0

structure Record (P : Type u) where
  startBin : Int
  endBin : Int
  rxPower : P
  transmitters : List NEMId

namespace Record

variable {P : Type u}

def sharesTransmitter (rec : Record P) (transmitters : List NEMId) : Prop :=
  ∃ transmitter ∈ transmitters, transmitter ∈ rec.transmitters

instance (rec : Record P) (transmitters : List NEMId) : Decidable (rec.sharesTransmitter transmitters) :=
  inferInstanceAs (Decidable (∃ transmitter ∈ transmitters, transmitter ∈ rec.transmitters))

def clippedStart (cfg : NoiseRecorderConfig) (records : List (Record P)) (u : Reception P) : Int :=
  records.foldl
    (fun startBin rec => if rec.sharesTransmitter u.transmitters then max startBin (rec.endBin + 1)
      else startBin)
    (u.reportedStartOfReceptionBin cfg)

def record (cfg : NoiseRecorderConfig) (records : List (Record P)) (u : Reception P) : List (Record P) :=
  let startBin := clippedStart cfg records u
  let endBin := u.endOfReceptionBin cfg
  if startBin ≤ endBin then
    { startBin := startBin, endBin := endBin, rxPower := u.rxPower, transmitters := u.transmitters }
      :: records
  else
    records

def power [Zero P] [Add P] (records : List (Record P)) (b : Int) : P :=
  (records.map (fun rec => share rec.startBin rec.endBin rec.rxPower b)).sum

end Record

structure Recording (P : Type u) where
  recorder : NoiseRecorder P
  records : List (Record P)
  now : TimePoint

namespace Recording

variable {P : Type u} [Zero P] [Add P]

def init (cfg : NoiseRecorderConfig) (now : TimePoint) : Recording P where
  recorder := .init cfg
  records := []
  now := now

def step (s : Recording P) (u : Reception P) : Option (Recording P) :=
  (s.recorder.update u).map
    (fun res => { recorder := res.2, records := Record.record s.recorder.cfg s.records u, now := u.now })

end Recording

namespace NoiseRecorder

variable {P : Type u}

def content [Zero P] (r : NoiseRecorder P) (b : Int) : P :=
  if ¬ r.isFirst ∧ r.minStartOfReceptionBin ≤ b ∧ b ≤ r.maxEndOfReceptionBin then r.wheel.slot b else 0

def Room (r : NoiseRecorder P) (startBin endBin : Int) : Prop :=
  let total : Int := r.cfg.totalWheelBins
  endBin - startBin + 1 ≤ total
    ∧ (r.isFirst ∨ (endBin - r.maxEndOfReceptionBin ≤ total ∧ r.maxEndOfReceptionBin - startBin < total))

instance (r : NoiseRecorder P) (startBin endBin : Int) : Decidable (r.Room startBin endBin) := by
  unfold Room
  infer_instance

theorem WellFormed.marks_of_not_first {r : NoiseRecorder P} (h : r.WellFormed) (hfirst : ¬ r.isFirst)
    : 1 ≤ r.minStartOfReceptionBin ∧ r.minStartOfReceptionBin ≤ r.maxEndOfReceptionBin := by
  cases h.marks with
  | inl hzero => exact absurd ⟨hzero.2, hzero.1⟩ hfirst
  | inr hpos => exact hpos

theorem WellFormed.not_first {r : NoiseRecorder P} (hmin : 1 ≤ r.minStartOfReceptionBin)
    : ¬ r.isFirst := by
  intro hfirst
  have := hfirst.2
  omega

section

variable [Zero P] {r : NoiseRecorder P} {b : Int}

theorem content_of_first (hfirst : r.isFirst) : r.content b = 0 := by
  unfold content
  rw [if_neg (fun hall => hall.1 hfirst)]

theorem content_of_lt (hlt : b < r.minStartOfReceptionBin) : r.content b = 0 := by
  unfold content
  rw [if_neg (by omega)]

theorem content_of_gt (hgt : r.maxEndOfReceptionBin < b) : r.content b = 0 := by
  unfold content
  rw [if_neg (by omega)]

theorem content_of_mem (hmin : 1 ≤ r.minStartOfReceptionBin) (hge : r.minStartOfReceptionBin ≤ b)
    (hle : b ≤ r.maxEndOfReceptionBin)
    : r.content b = r.wheel.slot b := by
  unfold content
  rw [if_pos ⟨WellFormed.not_first hmin, hge, hle⟩]

end

section

variable [AddZeroClass P] {r r' : NoiseRecorder P} {startBin endBin b : Int} {rxPower : P}

theorem share_of_mem (hge : startBin ≤ b) (hle : b ≤ endBin)
    : share startBin endBin rxPower b = rxPower := by
  unfold share
  rw [if_pos ⟨hge, hle⟩]

theorem share_of_not_mem (hnot : ¬ (startBin ≤ b ∧ b ≤ endBin))
    : share startBin endBin rxPower b = 0 := by
  unfold share
  rw [if_neg hnot]

variable (h : r.WellFormed) (hstart : 1 ≤ startBin) (hle : startBin ≤ endBin)
  (hfill : r.fill startBin endBin rxPower = some r')

include h hstart hle hfill

theorem slot_fill_first (hfirst : r.isFirst) (hspan : endBin - startBin + 1 ≤ r.wheel.size)
    (hge : startBin ≤ b) (hle' : b ≤ endBin)
    : r'.wheel.slot b = rxPower := by
  rw [fill_first rxPower h (by omega) hfirst, if_pos ⟨by omega, hspan⟩] at hfill
  cases hfill
  rw [Wheel.slot_paint _ rfl h.size_pos endBin (by omega) (by omega) (by omega) (by omega) hle',
    if_pos (by omega)]

variable (hmin : 1 ≤ r.minStartOfReceptionBin)
  (hmarks : r.minStartOfReceptionBin ≤ r.maxEndOfReceptionBin)

include hmin hmarks

theorem slot_fill_before (hbefore : endBin < r.minStartOfReceptionBin)
    (hroom : r.maxEndOfReceptionBin - startBin < r.wheel.size) (hge : startBin ≤ b)
    (hle' : b ≤ r.maxEndOfReceptionBin)
    : r'.wheel.slot b
        =
      if b ≤ endBin then rxPower else if b < r.minStartOfReceptionBin then 0 else r.wheel.slot b := by
  rw [fill_before rxPower h (by omega) hmin hmarks hle hbefore, if_pos (by omega)] at hfill
  cases hfill
  rw [Wheel.slot_paint _ (Wheel.size_paint _ _ _ _) h.size_pos r.maxEndOfReceptionBin (by omega)
    (by omega) (by omega)
    (by omega) hle']
  rw [Wheel.slot_paint _ rfl h.size_pos r.maxEndOfReceptionBin (by omega) (by omega) (by omega)
    (by omega) hle']
  by_cases hend : b ≤ endBin
  . rw [if_neg (by omega), if_pos (by omega), if_pos hend]
  . rw [if_neg hend, if_neg (by omega : ¬ (startBin ≤ b ∧ b < startBin + (endBin - startBin + 1)))]
    by_cases hgap : b < r.minStartOfReceptionBin
    . rw [if_pos (by omega), if_pos hgap]
    . rw [if_neg (by omega), if_neg hgap]

theorem slot_fill_after (hafter : r.maxEndOfReceptionBin < startBin)
    (hroom : endBin - r.maxEndOfReceptionBin ≤ r.wheel.size) (hge : endBin - r.wheel.size < b)
    (hle' : b ≤ endBin)
    : r'.wheel.slot b
        =
      if startBin ≤ b then rxPower else if r.maxEndOfReceptionBin < b then 0 else r.wheel.slot b := by
  rw [fill_after rxPower h (by omega) hmin hmarks hle hafter, if_pos (by omega)] at hfill
  cases hfill
  rw [Wheel.slot_paint _ (Wheel.size_paint _ _ _ _) h.size_pos endBin (by omega) (by omega)
    (by omega) hge hle']
  rw [Wheel.slot_paint _ rfl h.size_pos endBin (by omega) (by omega) (by omega) hge hle']
  by_cases hin : startBin ≤ b
  . rw [if_neg (by omega), if_pos (by omega), if_pos hin]
  . rw [if_neg hin, if_neg (by omega : ¬ (startBin ≤ b ∧ b < startBin + (endBin - startBin + 1)))]
    by_cases hgap : r.maxEndOfReceptionBin < b
    . rw [if_pos (by omega), if_pos hgap]
    . rw [if_neg (by omega), if_neg hgap]

theorem slot_fill_overlap (hleft : startBin ≤ r.maxEndOfReceptionBin)
    (hright : r.minStartOfReceptionBin ≤ endBin)
    (hspan : endBin - startBin + 1 ≤ r.wheel.size)
    (hroom : r.maxEndOfReceptionBin - startBin < r.wheel.size)
    (hge : max endBin r.maxEndOfReceptionBin - r.wheel.size < b)
    (hle' : b ≤ max endBin r.maxEndOfReceptionBin)
    : r'.wheel.slot b
        =
      if startBin ≤ b ∧ b ≤ endBin then
        if r.minStartOfReceptionBin ≤ b ∧ b ≤ r.maxEndOfReceptionBin then r.wheel.slot b + rxPower
          else rxPower
      else
        r.wheel.slot b := by
  have hsize := h.size_pos
  rw [fill_overlap rxPower h (by omega) hmin hmarks hle hleft hright, if_pos (by omega)] at hfill
  cases hfill
  -- the wheel after the first and after the second part
  generalize hw₁ : (if startBin < r.minStartOfReceptionBin then
    r.wheel.paint (fun _ => rxPower) startBin
      (max 0 (r.minStartOfReceptionBin - startBin)) else r.wheel) = w₁
  generalize hw₂ : (if endBin > r.maxEndOfReceptionBin then
    w₁.paint (fun _ => rxPower) (endBin + 1 - max 0 (endBin - r.maxEndOfReceptionBin))
      (max 0 (endBin - r.maxEndOfReceptionBin))
    else w₁) = w₂
  have h₁ : w₁.size = r.wheel.size
      ∧ w₁.slot b = if startBin ≤ b ∧ b < r.minStartOfReceptionBin then rxPower else r.wheel.slot b := by
    rw [← hw₁]
    split
    . refine ⟨Wheel.size_paint _ _ _ _, ?_⟩
      rw [Wheel.slot_paint _ rfl hsize (max endBin r.maxEndOfReceptionBin) (by omega) (by omega)
        (by omega) hge hle']
      congr 1
      rw [eq_iff_iff]
      omega
    . rw [if_neg (by omega)]
      exact ⟨rfl, rfl⟩
  have h₂ : w₂.size = r.wheel.size
      ∧ w₂.slot b = if r.maxEndOfReceptionBin < b ∧ b ≤ endBin then rxPower else w₁.slot b := by
    rw [← hw₂]
    split
    . refine ⟨(Wheel.size_paint _ _ _ _).trans h₁.1, ?_⟩
      rw [Wheel.slot_paint _ h₁.1 hsize (max endBin r.maxEndOfReceptionBin) (by omega) (by omega)
        (by omega) hge hle']
      congr 1
      rw [eq_iff_iff]
      omega
    . rw [if_neg (by omega)]
      exact ⟨h₁.1, rfl⟩
  rw [Wheel.slot_paint _ h₂.1 hsize (max endBin r.maxEndOfReceptionBin) (by omega) (by omega)
    (by omega) hge hle']
  rw [h₂.2, h₁.2]
  by_cases hin : startBin ≤ b ∧ b ≤ endBin
  . rw [if_pos hin]
    by_cases hboth : r.minStartOfReceptionBin ≤ b ∧ b ≤ r.maxEndOfReceptionBin
    . rw [if_pos (by omega), if_neg (by omega), if_neg (by omega), if_pos hboth]
    . rw [if_neg (by omega), if_neg hboth]
      by_cases hgt : r.maxEndOfReceptionBin < b
      . rw [if_pos (by omega)]
      . rw [if_neg (by omega), if_pos (by omega)]
  . rw [if_neg hin, if_neg (by omega), if_neg (by omega), if_neg (by omega)]

end

theorem fits_of_room {r : NoiseRecorder P} {startBin endBin : Int} (h : r.WellFormed)
    (hle : startBin ≤ endBin)
    (hroom : r.Room startBin endBin)
    : r.Fits startBin endBin := by
  unfold Fits
  by_cases hfirst : r.isFirst
  . rw [if_pos hfirst]
    exact hroom.1
  . rw [if_neg hfirst]
    obtain ⟨hmin, hmarks⟩ := h.marks_of_not_first hfirst
    obtain ⟨hspan, hturn⟩ := hroom
    have hturn := hturn.resolve_left hfirst
    split
    . omega
    . split
      . omega
      . omega

section

variable [AddZeroClass P] {r r' : NoiseRecorder P} {startBin endBin b : Int} {rxPower : P}

theorem content_of_slot (hr' : Marks r r' startBin endBin) (h : r.WellFormed) (hstart : 1 ≤ startBin)
    (hslot : r'.minStartOfReceptionBin ≤ b → b ≤ r'.maxEndOfReceptionBin →
      r'.wheel.slot b = r.content b + share startBin endBin rxPower b)
    : r'.content b = r.content b + share startBin endBin rxPower b := by
  have hmin := hr'.min_eq
  have hmax := hr'.max_eq
  by_cases hin : r'.minStartOfReceptionBin ≤ b ∧ b ≤ r'.maxEndOfReceptionBin
  . rw [content_of_mem _ hin.1 hin.2]
    . exact hslot hin.1 hin.2
    . split at hmin
      . omega
      . next hfirst =>
        have := h.marks_of_not_first hfirst
        omega
  . have hzero : r'.content b = 0 := by
      unfold content
      rw [if_neg (fun hall => hin hall.2)]
    rw [hzero]
    by_cases hfirst : r.isFirst
    . rw [content_of_first hfirst, share_of_not_mem (by omega), add_zero]
    . rw [if_neg hfirst] at hmin hmax
      rw [share_of_not_mem (by omega), add_zero]
      unfold content
      rw [if_neg (by omega)]

theorem content_fill (h : r.WellFormed) (hstart : 1 ≤ startBin) (hle : startBin ≤ endBin)
    (hroom : r.Room startBin endBin)
    (rxPower : P)
    : ∃ r', r.fill startBin endBin rxPower = some r'
        ∧ Marks r r' startBin endBin
        ∧ ∀ b, r'.maxEndOfReceptionBin - r.cfg.totalWheelBins < b →
        r'.content b = r.content b + share startBin endBin rxPower b := by
  have hfits := fits_of_room h hle hroom
  obtain ⟨-, r', hfill, hr'⟩ | ⟨hnot, -⟩ := fill_cases h hstart hle rxPower
  . refine ⟨r', hfill, hr', ?_⟩
    intro b hb
    apply content_of_slot hr' h hstart
    have hmin' := hr'.min_eq
    have hmax' := hr'.max_eq
    obtain ⟨hspan, hturn⟩ := hroom
    rw [← h.size] at hb hspan hturn
    intro hge hle'
    by_cases hfirst : r.isFirst
    . rw [if_pos hfirst] at hmin' hmax'
      rw [slot_fill_first h hstart hle hfill hfirst hspan (by omega) (by omega)]
      rw [content_of_first hfirst, share_of_mem (by omega) (by omega), zero_add]
    . have hturn := hturn.resolve_left hfirst
      obtain ⟨hmin, hmarks⟩ := h.marks_of_not_first hfirst
      rw [if_neg hfirst] at hmin' hmax'
      by_cases hbefore : endBin < r.minStartOfReceptionBin
      . rw [slot_fill_before h hstart hle hfill hmin hmarks hbefore hturn.2 (by omega) (by omega)]
        by_cases hend : b ≤ endBin
        . rw [if_pos hend, content_of_lt (by omega), share_of_mem (by omega) hend, zero_add]
        . rw [if_neg hend, share_of_not_mem (by omega), add_zero]
          by_cases hgap : b < r.minStartOfReceptionBin
          . rw [if_pos hgap, content_of_lt hgap]
          . rw [if_neg hgap, content_of_mem hmin (by omega) (by omega)]
      . by_cases hafter : r.maxEndOfReceptionBin < startBin
        . rw [slot_fill_after h hstart hle hfill hmin hmarks hafter hturn.1 (by omega) (by omega)]
          by_cases hin : startBin ≤ b
          . rw [if_pos hin, content_of_gt (by omega), share_of_mem hin (by omega), zero_add]
          . rw [if_neg hin, share_of_not_mem (by omega), add_zero]
            by_cases hgap : r.maxEndOfReceptionBin < b
            . rw [if_pos hgap, content_of_gt hgap]
            . rw [if_neg hgap, content_of_mem hmin (by omega) (by omega)]
        . rw [slot_fill_overlap h hstart hle hfill hmin hmarks (by omega) (by omega) hspan hturn.2
            (by omega) (by omega)]
          by_cases hin : startBin ≤ b ∧ b ≤ endBin
          . rw [if_pos hin, share_of_mem hin.1 hin.2]
            by_cases hboth : r.minStartOfReceptionBin ≤ b ∧ b ≤ r.maxEndOfReceptionBin
            . rw [if_pos hboth, content_of_mem hmin hboth.1 hboth.2]
            . rw [if_neg hboth]
              unfold content
              rw [if_neg (fun hall => hboth hall.2), zero_add]
          . rw [if_neg hin, share_of_not_mem hin, add_zero, content_of_mem hmin (by omega) (by omega)]
  . exact absurd hfits hnot

end

section

variable [Zero P] {r : NoiseRecorder P} {startTimeBin endTimeBin : Int}

theorem map_range_parts (f : Int → P) (before remainder after : Nat)
    (hbefore : ∀ k : Nat, k < before → f k = 0)
    (hafter : ∀ k : Nat, k < after → f (before + remainder + k) = 0)
    : (List.range (before + remainder + after)).map (fun k : Nat => f k)
        =
      List.replicate before 0 ++ (List.range remainder).map (fun k : Nat => f (before + k))
          ++ List.replicate after 0 := by
  rw [List.range_add, List.range_add, List.map_append, List.map_append, List.map_map, List.map_map]
  congr 1
  . congr 1
    rw [List.eq_replicate_iff]
    refine ⟨by simp, ?_⟩
    intro x hx
    obtain ⟨k, hk, rfl⟩ := List.mem_map.mp hx
    exact hbefore k (List.mem_range.mp hk)
  . rw [List.eq_replicate_iff]
    refine ⟨by simp, ?_⟩
    intro x hx
    obtain ⟨k, hk, rfl⟩ := List.mem_map.mp hx
    exact hafter k (List.mem_range.mp hk)

omit [Zero P] in
theorem parts_of_window (hmarks : r.minStartOfReceptionBin ≤ r.maxEndOfReceptionBin)
    (hcount : 0 ≤ endTimeBin - startTimeBin + 1)
    : let before := r.beforeDurationCount startTimeBin endTimeBin
      let after := r.afterDurationCount startTimeBin endTimeBin
      let remainder := r.remainderBinCount startTimeBin endTimeBin
      endTimeBin - startTimeBin + 1 = before + remainder + after
        ∧ (0 ≤ before ∧ (0 < before → startTimeBin + before ≤ r.minStartOfReceptionBin))
        ∧ (0 ≤ after ∧ (0 < after → r.maxEndOfReceptionBin ≤ endTimeBin - after))
        ∧ (0 ≤ remainder ∧ (0 < remainder →
        r.minStartOfReceptionBin ≤ startTimeBin + before
            ∧ endTimeBin - after ≤ r.maxEndOfReceptionBin)) := by
  intro before after remainder
  have hbefore : before = if startTimeBin < r.minStartOfReceptionBin then
      min (r.minStartOfReceptionBin - startTimeBin) (endTimeBin - startTimeBin + 1) else 0 := rfl
  have hafter : after = if endTimeBin > r.maxEndOfReceptionBin then
      min (endTimeBin - r.maxEndOfReceptionBin) (endTimeBin - startTimeBin + 1) else 0 := rfl
  have hremainder : remainder = endTimeBin - startTimeBin + 1 - (before + after) := rfl
  omega

theorem readRemainder_eq (h : r.WellFormed) (hfirst : ¬ r.isFirst)
    (hcount : 0 ≤ endTimeBin - startTimeBin + 1)
    (hcount' : endTimeBin - startTimeBin + 1 ≤ r.cfg.totalWheelBins)
    : r.readRemainder startTimeBin endTimeBin
        =
      some ((List.range (r.remainderBinCount startTimeBin endTimeBin).toNat).map
        (fun k : Nat => r.content
            (startTimeBin + (r.beforeDurationCount startTimeBin endTimeBin + k)))) := by
  obtain ⟨hmin, hmarks⟩ := h.marks_of_not_first hfirst
  obtain ⟨hparts, hbefore, hafter, hremainder⟩ := parts_of_window hmarks hcount
  unfold readRemainder
  split
  . next hne =>
    rw [Int.tmod_eq_emod_of_nonneg (by omega), ← h.size]
    rw [← h.size] at hcount'
    rw [Wheel.get_eq _ h.size_pos (by omega) (by omega)]
    congr 1
    apply List.map_congr_left
    intro k hk
    rw [List.mem_range] at hk
    rw [content_of_mem hmin (by omega) (by omega)]
    congr 1
    omega
  . next hzero =>
    rw [show r.remainderBinCount startTimeBin endTimeBin = 0 by omega]
    rfl

theorem read_eq (h : r.WellFormed) (hcount : 0 ≤ endTimeBin - startTimeBin + 1)
    (hcount' : endTimeBin - startTimeBin + 1 ≤ r.cfg.totalWheelBins)
    : r.read startTimeBin endTimeBin
        =
      some ((List.range (endTimeBin - startTimeBin + 1).toNat).map
          (fun k : Nat => r.content (startTimeBin + k))) := by
  unfold read
  by_cases hfirst : r.isFirst
  . rw [if_neg (fun hall => hall.1 hfirst.1)]
    congr 1
    symm
    rw [List.eq_replicate_iff]
    refine ⟨by simp, ?_⟩
    intro x hx
    obtain ⟨k, -, rfl⟩ := List.mem_map.mp hx
    exact content_of_first hfirst
  . obtain ⟨hmin, hmarks⟩ := h.marks_of_not_first hfirst
    obtain ⟨hparts, hbefore, hafter, hremainder⟩ := parts_of_window hmarks hcount
    rw [if_pos (by omega), readRemainder_eq h hfirst hcount hcount']
    rw [show (endTimeBin - startTimeBin + 1).toNat = (r.beforeDurationCount startTimeBin endTimeBin).toNat
      + (r.remainderBinCount startTimeBin endTimeBin).toNat
        + (r.afterDurationCount startTimeBin endTimeBin).toNat by omega]
    rw [map_range_parts (fun k => r.content (startTimeBin + k))]
    . rw [Int.toNat_of_nonneg hbefore.1]
      rfl
    . intro k hk
      exact content_of_lt (by omega)
    . intro k hk
      exact content_of_gt (by omega)

end

end NoiseRecorder

namespace NoiseRecorderConfig

variable (cfg : NoiseRecorderConfig)

theorem timepointToBin_false (tp : TimePoint)
    : cfg.timepointToBin tp false = (tp.tdiv 1000).tdiv cfg.bin := by
  unfold timepointToBin
  simp only [Bool.false_and, Bool.false_eq_true, if_false, Int.sub_zero]
  split
  . next hzero => rw [hzero, Int.zero_tdiv]
  . rfl

theorem timepointToBin_true_bounds (tp : TimePoint)
    : cfg.timepointToBin tp false - 1 ≤ cfg.timepointToBin tp true
        ∧ cfg.timepointToBin tp true ≤ cfg.timepointToBin tp false := by
  rw [timepointToBin_false]
  unfold timepointToBin
  simp only [Bool.true_and, decide_eq_true_eq]
  split
  . next hzero =>
    rw [hzero, Int.zero_tdiv]
    omega
  . split
    . omega
    . omega

theorem timepointToBin_le {tp tp' : TimePoint} (hle : tp ≤ tp')
    : cfg.timepointToBin tp false ≤ cfg.timepointToBin tp' false := by
  have hbin := cfg.bin_pos
  unfold Microseconds at *
  rw [timepointToBin_false, timepointToBin_false]
  apply Int.tdiv_le_tdiv (by omega)
  exact Int.tdiv_le_tdiv (by omega) hle

theorem timepointToBin_binToTimepoint (b : Int)
    : cfg.timepointToBin (cfg.binToTimepoint b) false = b := by
  have hbin := cfg.bin_pos
  unfold Microseconds at *
  rw [timepointToBin_false]
  unfold binToTimepoint
  rw [Int.mul_tdiv_cancel _ (by omega), Int.mul_tdiv_cancel _ (by omega)]

theorem le_of_binToTimepoint_le {b b' : Int} (hle : cfg.binToTimepoint b ≤ cfg.binToTimepoint b')
    : b ≤ b' := by
  have h := cfg.timepointToBin_le hle
  rw [timepointToBin_binToTimepoint, timepointToBin_binToTimepoint] at h
  exact h

theorem totalWindowBins_lt : cfg.totalWindowBins < cfg.totalWheelBins := by
  have hpos := cfg.totalWheelBins_pos
  have hbin := cfg.bin_pos
  have htwice : 2 * cfg.totalWindowBins ≤ cfg.totalWheelBins := by
    unfold totalWindowBins totalWheelBins
    rw [Nat.le_div_iff_mul_le hbin]
    have hdiv := Nat.div_mul_le_self cfg.maxDuration cfg.bin
    rw [Nat.mul_assoc]
    omega
  omega

end NoiseRecorderConfig

namespace NoiseRecorder
namespace Query

variable {cfg : NoiseRecorderConfig} {q : Query}

theorem of_check (hcheck : q.check cfg = .ok ())
    : (∀ startTime, q.startTime = some startTime → startTime ≤ q.now)
        ∧ q.endTime cfg ≤ q.now
        ∧ q.nowBin cfg - cfg.totalWindowBins + 1 ≤ q.startTimeBin cfg := by
  unfold check at hcheck
  split at hcheck
  . cases hcheck
  . split at hcheck
    . cases hcheck
    . next hfuture =>
      split at hcheck
      . cases hcheck
      . next hend =>
        split at hcheck
        . cases hcheck
        . next hstart =>
          refine ⟨?_, ?_, ?_⟩
          . intro startTime heq
            rw [heq] at hfuture
            simpa using hfuture
          . by_cases hduration : q.duration = 0
            . have heq : q.endTime cfg = q.now := if_neg (fun hne => hne hduration)
              exact Int.le_of_eq heq
            . exact Int.not_lt.mp (fun hgt => hend ⟨hduration, hgt⟩)
          . exact cfg.le_of_binToTimepoint_le (Int.not_lt.mp hstart)

theorem startTimeBin_of_none (hnone : q.startTime = none)
    : q.startTimeBin cfg = q.nowBin cfg - cfg.totalWindowBins + 1 := by
  unfold startTimeBin validStartTime
  rw [hnone, Option.getD_none]
  exact cfg.timepointToBin_binToTimepoint _

theorem window_nonneg (hcheck : q.check cfg = .ok ())
    : 0 ≤ q.endTimeBin cfg - q.startTimeBin cfg + 1 := by
  obtain ⟨hstart, -, -⟩ := of_check hcheck
  -- a window that does not end before it starts
  have hordered : q.validStartTime cfg ≤ q.endTime cfg
      → 0 ≤ q.endTimeBin cfg - q.startTimeBin cfg + 1 := by
    intro hle
    have hbin := cfg.timepointToBin_le hle
    have hadjust := (cfg.timepointToBin_true_bounds (q.endTime cfg)).1
    unfold endTimeBin startTimeBin
    omega
  by_cases hduration : q.duration = 0
  . have hend : q.endTime cfg = q.now := by
      unfold endTime
      rw [if_neg (fun hne => hne hduration)]
    cases htime : q.startTime with
    | none =>
      rw [startTimeBin_of_none htime]
      unfold endTimeBin
      rw [hend]
      unfold nowBin
      omega
    | some startTime =>
      apply hordered
      rw [hend]
      unfold validStartTime
      rw [htime, Option.getD_some]
      exact hstart startTime htime
  . apply hordered
    unfold endTime
    rw [if_pos hduration]
    have : (0 : Int) ≤ q.duration := Int.natCast_nonneg _
    unfold TimePoint at *
    omega

theorem window_le (hcheck : q.check cfg = .ok ())
    : q.endTimeBin cfg - q.startTimeBin cfg + 1 ≤ cfg.totalWheelBins := by
  obtain ⟨-, hend, hstart⟩ := of_check hcheck
  have hlt := cfg.totalWindowBins_lt
  have hbin := cfg.timepointToBin_le hend
  have hadjust := (cfg.timepointToBin_true_bounds (q.endTime cfg)).2
  have hadjust' := (cfg.timepointToBin_true_bounds q.now).1
  unfold nowBin at hstart
  unfold endTimeBin
  omega

theorem startTimeBin_gt (hcheck : q.check cfg = .ok ())
    : cfg.timepointToBin q.now false - cfg.totalWheelBins < q.startTimeBin cfg := by
  obtain ⟨-, -, hstart⟩ := of_check hcheck
  have hlt := cfg.totalWindowBins_lt
  have hadjust := (cfg.timepointToBin_true_bounds q.now).1
  unfold nowBin at hstart
  omega

end Query

section

variable {P : Type u} [Zero P] {r : NoiseRecorder P} {q : Query}

theorem get_eq (h : r.WellFormed)
    : r.get q
        =
      match q.check r.cfg with
      | .error what => .error what
      | .ok () =>
        .ok ((List.range (q.endTimeBin r.cfg - q.startTimeBin r.cfg + 1).toNat).map
          (fun k : Nat => r.content (q.startTimeBin r.cfg + k)), r.cfg.binToTimepoint
              (q.startTimeBin r.cfg)) := by
  unfold get
  cases hcheck : q.check r.cfg with
  | error what => rfl
  | ok passed => simp only [read_eq h (Query.window_nonneg hcheck) (Query.window_le hcheck)]

end

end NoiseRecorder
end Spectrum
end Emane

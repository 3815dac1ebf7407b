import Mathlib.Data.Int.Order.Basic
import Emane.Spectrum.Lemmas.SpectrumMonitor

/-!
This module contains the refinement of the receptions that were given to a noise recorder by its
wheel.
-/

namespace Emane
namespace Spectrum

namespace Record

variable {P : Type u}

theorem clippedStart_le_iff (cfg : NoiseRecorderConfig) (records : List (Record P))
    (u : Reception P) (x : Int)
    : clippedStart cfg records u ≤ x
        ↔
      u.reportedStartOfReceptionBin cfg ≤ x ∧ ∀ rec ∈ records, rec.sharesTransmitter u.transmitters
          → rec.endBin + 1 ≤ x := by
  unfold clippedStart
  generalize u.reportedStartOfReceptionBin cfg = startBin
  induction records generalizing startBin with
  | nil => simp
  | cons rec records ih =>
    rw [List.foldl_cons, ih, List.forall_mem_cons]
    split
    . next hshares =>
      rw [Int.max_le]
      tauto
    . next hshares => tauto

end Record

namespace NoiseRecorder

variable {P : Type u}

def EoR (r : NoiseRecorder P) (records : List (Record P)) : Prop :=
  ∀ transmitter x, (∀ e, r.nemEoRBinMap.find? transmitter = some e → e ≤ x)
    ↔ ∀ rec ∈ records, transmitter ∈ rec.transmitters → rec.endBin ≤ x

theorem foldl_le_iff {α : Type v} {f : Int → α → Int} {p : α → Prop} {x : Int}
    (hf : ∀ bin a, f bin a ≤ x ↔ bin ≤ x ∧ p a)
    (l : List α) (bin : Int)
    : l.foldl f bin ≤ x ↔ bin ≤ x ∧ ∀ a ∈ l, p a := by
  induction l generalizing bin with
  | nil => simp
  | cons a l ih => rw [List.foldl_cons, ih, hf, List.forall_mem_cons, and_assoc]

theorem maxEoRBin_le_iff (r : NoiseRecorder P) (transmitters : List NEMId) {x : Int} (hx : 0 ≤ x)
    : r.maxEoRBin transmitters ≤ x
        ↔
      ∀ transmitter ∈ transmitters, ∀ e, r.nemEoRBinMap.find? transmitter = some e → e ≤ x := by
  unfold maxEoRBin
  rw [@foldl_le_iff _ _ (fun transmitter => ∀ e, r.nemEoRBinMap.find? transmitter = some e → e ≤ x)]
  . exact ⟨fun hall => hall.2, fun hall => ⟨hx, hall⟩⟩
  . intro bin transmitter
    cases r.nemEoRBinMap.find? transmitter with
    | none => simp
    | some eorBin =>
      simp only [Int.max_le, Option.some.injEq, forall_eq']
      tauto

theorem startOfReceptionBin_eq {r : NoiseRecorder P} {records : List (Record P)} (heor : r.EoR records)
    {u : Reception P} (hreported : 0 < u.reportedStartOfReceptionBin r.cfg)
    : r.startOfReceptionBin u = Record.clippedStart r.cfg records u := by
  apply eq_of_forall_ge_iff
  intro x
  have hstart : r.startOfReceptionBin u ≤ x
      ↔ u.reportedStartOfReceptionBin r.cfg ≤ x ∧ r.maxEoRBin u.transmitters ≤ x - 1 := by
    unfold startOfReceptionBin
    simp only
    split
    . omega
    . omega
  rw [hstart, Record.clippedStart_le_iff]
  apply and_congr_right
  intro hle
  rw [maxEoRBin_le_iff r _ (by omega)]
  constructor
  . rintro hall rec hrec ⟨transmitter, hmem, hmem'⟩
    have := (heor transmitter (x - 1)).mp (hall transmitter hmem) rec hrec hmem'
    omega
  . intro hall transmitter hmem
    apply (heor transmitter (x - 1)).mpr
    intro rec hrec hmem'
    have := hall rec hrec ⟨transmitter, hmem, hmem'⟩
    omega

theorem find?_recordEoR (r : NoiseRecorder P) (transmitters : List NEMId) (endBin : Int)
    (transmitter : NEMId)
    : (r.recordEoR transmitters endBin).nemEoRBinMap.find? transmitter
        =
      if transmitter ∈ transmitters then some endBin else r.nemEoRBinMap.find? transmitter := by
  unfold recordEoR
  generalize r.nemEoRBinMap = m
  induction transmitters generalizing m with
  | nil => simp
  | cons other transmitters ih =>
    rw [List.foldl_cons, ih, SortedMap.find?_set]
    by_cases hmem : transmitter ∈ transmitters
    . rw [if_pos hmem, if_pos (List.mem_cons_of_mem _ hmem)]
    . rw [if_neg hmem]
      by_cases heq : transmitter = other
      . rw [if_pos heq, if_pos (heq ▸ List.mem_cons_self)]
      . rw [if_neg heq, if_neg (by simp [heq, hmem])]

theorem EoR.record {r r' : NoiseRecorder P} {records : List (Record P)} (heor : r.EoR records)
    (hmap : r'.nemEoRBinMap = r.nemEoRBinMap) (rec : Record P)
    (hlast : ∀ old ∈ records, old.sharesTransmitter rec.transmitters → old.endBin ≤ rec.endBin)
    : (r'.recordEoR rec.transmitters rec.endBin).EoR (rec :: records) := by
  intro transmitter x
  rw [find?_recordEoR, List.forall_mem_cons, ← heor transmitter x, hmap]
  by_cases hmem : transmitter ∈ rec.transmitters
  . rw [if_pos hmem]
    simp only [Option.some.injEq, forall_eq']
    constructor
    . intro hle
      refine ⟨fun _ => hle, ?_⟩
      rw [heor transmitter x]
      intro old hold hmem'
      have := hlast old hold ⟨transmitter, hmem, hmem'⟩
      omega
    . exact fun hall => hall.1 hmem
  . rw [if_neg hmem]
    exact ⟨fun hall => ⟨fun hmem' => absurd hmem' hmem, hall⟩, fun hall => hall.2⟩

structure Represents [Zero P] (r : NoiseRecorder P) (power : Int → P) (oldest : Int) : Prop where
  seen : ∀ b, oldest < b → (r.isFirst ∨ r.maxEndOfReceptionBin - r.cfg.totalWheelBins < b)
    → r.content b = power b
  below : ∀ b, oldest < b → ¬ r.isFirst → b < r.minStartOfReceptionBin → power b = 0

section

variable [Zero P] {r : NoiseRecorder P} {power : Int → P} {oldest : Int}

theorem Represents.mono (h : r.Represents power oldest) {oldest' : Int} (hle : oldest ≤ oldest')
    : r.Represents power oldest' := by
  constructor
  . intro b hb
    exact h.seen b (by omega)
  . intro b hb
    exact h.below b (by omega)

theorem Represents.resetIfIdle {nowBin : Int} (h : r.Represents power (nowBin - r.cfg.totalWheelBins))
    : (r.resetIfIdle nowBin).Represents power (nowBin - r.cfg.totalWheelBins) := by
  unfold NoiseRecorder.resetIfIdle
  split
  . next hidle =>
    constructor
    . intro b hb _
      have hgt : r.maxEndOfReceptionBin < b := by omega
      rw [← h.seen b hb (Or.inr (by omega)), content_of_gt hgt]
      apply content_of_first
      exact ⟨rfl, rfl⟩
    . intro b _ hfirst
      exact absurd ⟨rfl, rfl⟩ hfirst
  . exact h

theorem Represents.recordEoR (h : r.Represents power oldest) (transmitters : List NEMId) (endBin : Int)
    : (r.recordEoR transmitters endBin).Represents power oldest := by
  exact ⟨h.seen, h.below⟩

end

theorem Represents.fill [AddCommMonoid P] {r : NoiseRecorder P} {power : Int → P}
    {oldest startBin endBin : Int}
    (h : r.Represents power oldest) (hr : r.WellFormed) (hstart : 1 ≤ startBin) (hle : startBin ≤ endBin)
    (hroom : r.Room startBin endBin) (rxPower : P)
    : ∃ r', r.fill startBin endBin rxPower = some r'
        ∧ Marks r r' startBin endBin
        ∧ r'.Represents (fun b => share startBin endBin rxPower b + power b) oldest := by
  obtain ⟨r', hfill, hr', hcontent⟩ := content_fill hr hstart hle hroom rxPower
  refine ⟨r', hfill, hr', ?_⟩
  have hmin := hr'.min_eq
  have hmax := hr'.max_eq
  constructor
  . intro b hb hturn
    rw [hr'.cfg] at hturn
    have hturn' : r'.maxEndOfReceptionBin - r.cfg.totalWheelBins < b := by
      apply hturn.resolve_left
      apply WellFormed.not_first
      split at hmin
      . omega
      . next hfirst =>
        have := hr.marks_of_not_first hfirst
        omega
    rw [hcontent b hturn', add_comm, h.seen b hb]
    by_cases hfirst : r.isFirst
    . exact Or.inl hfirst
    . rw [if_neg hfirst] at hmax
      exact Or.inr (by omega)
  . intro b hb _ hlt
    by_cases hfirst : r.isFirst
    . rw [share_of_not_mem (by omega), zero_add, ← h.seen b hb (Or.inl hfirst), content_of_first hfirst]
    . rw [if_neg hfirst] at hmin
      rw [share_of_not_mem (by omega), zero_add, h.below b hb hfirst (by omega)]

/--
A window that shows no bin that is one turn or more older than the last one.
-/
def Fresh (r : NoiseRecorder P) (q : Query) : Prop :=
  r.isFirst ∨ q.endTimeBin r.cfg < r.minStartOfReceptionBin
    ∨ r.maxEndOfReceptionBin - r.cfg.totalWheelBins < max (q.startTimeBin r.cfg) r.minStartOfReceptionBin

instance (r : NoiseRecorder P) (q : Query) : Decidable (r.Fresh q) :=
  inferInstanceAs (Decidable (_ ∨ _))

theorem Represents.window [Zero P] {r : NoiseRecorder P} {power : Int → P} {oldest : Int}
    (h : r.Represents power oldest)
    {q : Query} (holdest : oldest < q.startTimeBin r.cfg) (hfresh : r.Fresh q) {b : Int}
    (hge : q.startTimeBin r.cfg ≤ b)
    (hle : b ≤ q.endTimeBin r.cfg)
    : r.content b = power b := by
  by_cases hfirst : r.isFirst
  . exact h.seen b (by omega) (Or.inl hfirst)
  . have hfresh := hfresh.resolve_left hfirst
    by_cases hlt : b < r.minStartOfReceptionBin
    . rw [content_of_lt hlt, h.below b (by omega) hfirst hlt]
    . exact h.seen b (by omega) (Or.inr (by omega))

end NoiseRecorder

namespace Recording

variable {P : Type u}

/--
Time does not go back, the reception starts after the epoch, and if it is recorded then the wheel
has room for it.
-/
def Ready (s : Recording P) (u : Reception P) : Prop :=
  s.now ≤ u.now
    ∧ 0 < u.reportedStartOfReceptionBin s.recorder.cfg
    ∧ (s.recorder.startOfReceptionBin u ≤ u.endOfReceptionBin s.recorder.cfg →
    (s.recorder.resetIfIdle (s.recorder.cfg.timepointToBin u.now false)).Room
      (s.recorder.startOfReceptionBin u)
      (u.endOfReceptionBin s.recorder.cfg))

instance (s : Recording P) (u : Reception P) : Decidable (s.Ready u) :=
  inferInstanceAs (Decidable (_ ∧ _))

variable [AddCommMonoid P]

structure Refines (cfg : NoiseRecorderConfig) (s : Recording P) : Prop where
  config : s.recorder.cfg = cfg
  wellFormed : s.recorder.WellFormed
  eor : s.recorder.EoR s.records
  represents : s.recorder.Represents (Record.power s.records)
    (s.recorder.cfg.timepointToBin s.now false - s.recorder.cfg.totalWheelBins)

theorem refines_init (cfg : NoiseRecorderConfig) (now : TimePoint)
    : Refines cfg (init cfg now : Recording P) := by
  constructor
  . rfl
  . exact NoiseRecorder.wellFormed_init cfg
  . intro transmitter x
    simp [init, NoiseRecorder.init]
  . constructor
    . intro b _ _
      exact NoiseRecorder.content_of_first ⟨rfl, rfl⟩
    . intro b _ hfirst
      exact absurd ⟨rfl, rfl⟩ hfirst

theorem Refines.step {cfg : NoiseRecorderConfig} {s : Recording P} (h : Refines cfg s)
    {u : Reception P} (hready : s.Ready u)
    : ∃ s', s.step u = some s' ∧ Refines cfg s' := by
  obtain ⟨hnow, hreported, hroom⟩ := hready
  have hstart := NoiseRecorder.startOfReceptionBin_eq h.eor hreported
  have hpassed := h.represents.mono (Int.sub_le_sub_right (s.recorder.cfg.timepointToBin_le hnow) _)
  unfold Recording.step NoiseRecorder.update Record.record
  by_cases hle : s.recorder.startOfReceptionBin u ≤ u.endOfReceptionBin s.recorder.cfg
  . rw [if_pos hle, if_pos (hstart ▸ hle)]
    obtain ⟨r', hfill, hr', hrepresents⟩ := hpassed.resetIfIdle.fill (h.wellFormed.resetIfIdle _)
      (s.recorder.startOfReceptionBin_pos u) hle (hroom hle) u.rxPower
    rw [hfill]
    refine ⟨_, rfl, ?_⟩
    have hcfg : r'.cfg = s.recorder.cfg := by
      rw [hr'.cfg, NoiseRecorder.cfg_resetIfIdle]
    have hmap : r'.nemEoRBinMap = s.recorder.nemEoRBinMap := by
      rw [hr'.nemEoRBinMap, NoiseRecorder.nemEoRBinMap_resetIfIdle]
    have hlast : ∀ old ∈ s.records, old.sharesTransmitter u.transmitters
        → old.endBin ≤ u.endOfReceptionBin s.recorder.cfg := by
      intro old hold hshares
      have := ((Record.clippedStart_le_iff s.recorder.cfg s.records u _).mp (Int.le_refl _)).2 old
        hold hshares
      omega
    constructor
    . exact hcfg.trans h.config
    . exact hr'.wellFormed.recordEoR u.transmitters (u.endOfReceptionBin s.recorder.cfg)
    . exact h.eor.record hmap ⟨_, u.endOfReceptionBin s.recorder.cfg, u.rxPower, u.transmitters⟩ hlast
    . rw [hstart] at hrepresents
      rw [show (r'.recordEoR u.transmitters (u.endOfReceptionBin s.recorder.cfg)).cfg
        = s.recorder.cfg from hcfg]
      exact hrepresents.recordEoR u.transmitters (u.endOfReceptionBin s.recorder.cfg)
  . rw [if_neg hle, if_neg (hstart ▸ hle)]
    exact ⟨_, rfl, h.config, h.wellFormed, h.eor, hpassed⟩

/--
As long as the wheel has room for every reception, a window that is asked for shows the sum of the
powers of exactly the receptions that contain each of its bins.
-/
theorem get_eq_power (cfg : NoiseRecorderConfig) (now : TimePoint) (us : List (Reception P))
    (hready : Guarded Recording.step Ready (init cfg now) us)
    : ∃ s, run Recording.step (init cfg now) us = some s
        ∧ ∀ (q : NoiseRecorder.Query) (window : List P) (startOfWindow : TimePoint), s.now ≤ q.now
          → s.recorder.Fresh q →
        s.recorder.get q = .ok (window, startOfWindow) →
        window = (List.range (q.endTimeBin cfg - q.startTimeBin cfg + 1).toNat).map
          (fun k : Nat => Record.power s.records (q.startTimeBin cfg + k)) := by
  obtain ⟨s, hrun, hs⟩ := run_total (fun _ _ h hready => Refines.step h hready)
    (refines_init cfg now) hready
  refine ⟨s, hrun, ?_⟩
  intro q window startOfWindow hnow hfresh hget
  rw [NoiseRecorder.get_eq hs.wellFormed] at hget
  split at hget
  . cases hget
  . next hcheck =>
    have hwindow := congrArg Prod.fst (Except.ok.inj hget)
    simp only at hwindow
    rw [← hs.config, ← hwindow]
    apply List.map_congr_left
    intro k hk
    rw [List.mem_range] at hk
    have holdest := NoiseRecorder.Query.startTimeBin_gt hcheck
    have hbin := s.recorder.cfg.timepointToBin_le hnow
    exact hs.represents.window (by omega) hfresh (by omega) (by omega)

def twoReceptions : List (Reception Nat) := [
  { now := 100000, txTime := 100000, offset := 0, propagation := 0, duration := 2, rxPower := 1,
    transmitters := [1] },
  { now := 101000, txTime := 101000, offset := 0, propagation := 0, duration := 2, rxPower := 2,
    transmitters := [2] }
]

theorem get_eq_power_twoReceptions
    : ∃ s, run Recording.step (init NoiseRecorder.smallConfig.toNoiseRecorderConfig 0)
        twoReceptions = some s
        ∧ s.recorder.get { now := 103000, duration := 0, startTime := none } = .ok ([3, 2], 101000)
        ∧ [3, 2] = (List.range 2).map (fun k : Nat => Record.power s.records (101 + k)) := by
  obtain ⟨s, hrun, hget⟩ := get_eq_power NoiseRecorder.smallConfig.toNoiseRecorderConfig 0
    twoReceptions (by decide)
  cases hrun
  refine ⟨_, rfl, rfl, ?_⟩
  exact hget { now := 103000, duration := 0, startTime := none } [3, 2] 101000 (by decide) (by decide) rfl

def idleReceptions : List (Reception Nat) := [
  { now := 100000, txTime := 100000, offset := 0, propagation := 0, duration := 1, rxPower := 1,
    transmitters := [1] },
  { now := 106000, txTime := 106000, offset := 0, propagation := 0, duration := 2, rxPower := 2,
    transmitters := [2] }
]

theorem power_lost_of_idle
    : (∀ u ∈ idleReceptions, NoiseRecorder.smallConfig.Admitted u)
        ∧ (idleReceptions.map (fun u => u.now)).Pairwise (· ≤ ·)
        ∧ ∃ s, run Recording.step (init NoiseRecorder.smallConfig.toNoiseRecorderConfig 0)
          idleReceptions = some s
        ∧ s.recorder.get { now := 108000, duration := 0, startTime := none } = .ok ([2, 0], 106000)
        ∧ [Record.power s.records 106, Record.power s.records 107] = [2, 2] := by
  refine ⟨by decide, by decide, _, rfl, ?_, ?_⟩
  . rfl
  . rfl

end Recording
end Spectrum
end Emane

import Emane.Spectrum.Impl.Monitor
import Emane.Spectrum.Lemmas.Content

/-!
This module contains the histories of calls in which the wheel of a noise recorder raises no
`IndexError`.
-/

namespace Emane
namespace Spectrum

namespace NoiseRecorder

variable {P : Type u}

theorem wellFormed_init [Zero P] (cfg : NoiseRecorderConfig)
    : (init cfg : NoiseRecorder P).WellFormed := by
  constructor
  . rfl
  . exact Or.inl ⟨rfl, rfl⟩

variable {r : NoiseRecorder P}

theorem WellFormed.resetIfIdle (h : r.WellFormed) (nowBin : Int)
    : (r.resetIfIdle nowBin).WellFormed := by
  unfold NoiseRecorder.resetIfIdle
  split
  . exact ⟨h.size, Or.inl ⟨rfl, rfl⟩⟩
  . exact h

@[simp]
theorem cfg_resetIfIdle (r : NoiseRecorder P) (nowBin : Int) : (r.resetIfIdle nowBin).cfg = r.cfg := by
  unfold NoiseRecorder.resetIfIdle
  split
  . rfl
  . rfl

@[simp]
theorem nemEoRBinMap_resetIfIdle (r : NoiseRecorder P) (nowBin : Int)
    : (r.resetIfIdle nowBin).nemEoRBinMap = r.nemEoRBinMap := by
  unfold NoiseRecorder.resetIfIdle
  split
  . rfl
  . rfl

theorem WellFormed.recordEoR (h : r.WellFormed) (transmitters : List NEMId) (endBin : Int)
    : (r.recordEoR transmitters endBin).WellFormed := by
  exact ⟨h.size, h.marks⟩

theorem maxEoRBin_nonneg (r : NoiseRecorder P) (transmitters : List NEMId)
    : 0 ≤ r.maxEoRBin transmitters := by
  apply List.foldlRecOn
  . exact Int.le_refl 0
  . intro bin hbin transmitter _
    split
    . omega
    . exact hbin

theorem startOfReceptionBin_pos (r : NoiseRecorder P) (u : Reception P)
    : 1 ≤ r.startOfReceptionBin u := by
  have hmax := r.maxEoRBin_nonneg u.transmitters
  unfold startOfReceptionBin
  simp only
  split
  . omega
  . omega

def Call.Fits (r : NoiseRecorder P) : Call P → Prop
  | .update u =>
    r.startOfReceptionBin u ≤ u.endOfReceptionBin r.cfg →
      (r.resetIfIdle (r.cfg.timepointToBin u.now false)).Fits (r.startOfReceptionBin u)
        (u.endOfReceptionBin r.cfg)
  | .get _ => True

instance (r : NoiseRecorder P) (c : Call P) : Decidable (c.Fits r) := by
  cases c with
  | update u =>
    unfold Call.Fits
    infer_instance
  | get q => exact isTrue trivial

variable [Zero P] [Add P]

theorem update_cases (h : r.WellFormed) (u : Reception P)
    : ((Call.update u).Fits r ∧ ∃ times r', r.update u = some (times, r') ∧ r'.WellFormed)
        ∨ (¬ (Call.update u).Fits r ∧ r.update u = none) := by
  unfold Call.Fits update
  simp only
  split
  . next hle =>
    have hreset := h.resetIfIdle (r.cfg.timepointToBin u.now false)
    obtain ⟨hfits, r', hfill, hr'⟩ | ⟨hnot, hfill⟩ := fill_cases hreset
      (r.startOfReceptionBin_pos u) hle u.rxPower
    . refine Or.inl ⟨fun _ => hfits, (u.startOfReception, u.endOfReception), _, ?_,
        hr'.wellFormed.recordEoR u.transmitters (u.endOfReceptionBin r.cfg)⟩
      rw [hfill]
      rfl
    . refine Or.inr ⟨fun hfits => hnot (hfits hle), ?_⟩
      rw [hfill]
      rfl
  . next hgt => exact Or.inl ⟨fun hle => absurd hle hgt, _, r, rfl, h⟩

theorem call_get (h : r.WellFormed) (q : Query) : r.call (.get q) = some r := by
  simp only [call]
  split
  . rfl
  . next hcheck =>
    rw [read_eq h (Query.window_nonneg hcheck) (Query.window_le hcheck)]
    rfl

theorem call_defined_iff (h : r.WellFormed) (c : Call P)
    : (∃ r', r.call c = some r') ↔ c.Fits r := by
  cases c with
  | get q => exact ⟨fun _ => trivial, fun _ => ⟨r, call_get h q⟩⟩
  | update u =>
    simp only [call]
    obtain ⟨hfits, times, r', hupdate, -⟩ | ⟨hnot, hupdate⟩ := update_cases h u
    . rw [hupdate]
      exact ⟨fun _ => hfits, fun _ => ⟨r', rfl⟩⟩
    . rw [hupdate]
      constructor
      . rintro ⟨r', hsome⟩
        cases hsome
      . intro hfits
        exact absurd hfits hnot

theorem WellFormed.call {r' : NoiseRecorder P} (h : r.WellFormed) {c : Call P}
    (hcall : r.call c = some r')
    : r'.WellFormed := by
  cases c with
  | get q =>
    rw [call_get h q] at hcall
    exact Option.some.inj hcall ▸ h
  | update u =>
    simp only [NoiseRecorder.call] at hcall
    obtain ⟨-, times, r'', hupdate, hr''⟩ | ⟨-, hupdate⟩ := update_cases h u
    . rw [hupdate] at hcall
      exact Option.some.inj hcall ▸ hr''
    . rw [hupdate] at hcall
      cases hcall

theorem no_indexError_iff (cfg : NoiseRecorderConfig) (calls : List (Call P))
    : (∃ r, run call (init cfg) calls = some r) ↔ Guarded call (fun r c => c.Fits r)
        (init cfg) calls := by
  apply run_defined_iff
  . exact fun r c h => call_defined_iff h c
  . exact fun r c r' h hcall => h.call hcall
  . exact wellFormed_init cfg

def smallConfig : SpectrumMonitorConfig where
  bin := 1
  maxOffset := 1
  maxPropagation := 1
  maxDuration := 2
  bin_pos := by decide
  maxDuration_pos := by decide
  divisible := by decide
  timeSyncThreshold := 10
  maxClamp := false

def gapHistory : List (Call Nat) := [
  .update { now := 100000, txTime := 100000, offset := 0, propagation := 0, duration := 1, rxPower := 1, transmitters := [1] },
  .update { now := 106000, txTime := 106000, offset := 1, propagation := 1, duration := 1, rxPower := 2, transmitters := [2] }
]

theorem indexError_of_gap
    : (∀ c ∈ gapHistory, c.Admitted smallConfig)
        ∧ (gapHistory.map Call.now).Pairwise (· ≤ ·)
        ∧ run call (init smallConfig.toNoiseRecorderConfig) gapHistory = none := by
  refine ⟨by decide, by decide, ?_⟩
  rfl

end NoiseRecorder
end Spectrum
end Emane

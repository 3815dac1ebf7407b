import Emane.Lib.Ratchet
import Emane.Spectrum.Lemmas.InBand
import Emane.Spectrum.Lemmas.Recording

/-!
This module contains what is left of a message that is rejected.
-/

namespace Emane
namespace Spectrum

namespace NoiseRecorder

variable {P : Type u}

def eorBin (r : NoiseRecorder P) (transmitter : NEMId) : Int :=
  (r.nemEoRBinMap.find? transmitter).getD 0

theorem eorBin_recordEoR (r : NoiseRecorder P) (transmitters : List NEMId) (endBin : Int)
    (transmitter : NEMId)
    : (r.recordEoR transmitters endBin).eorBin transmitter
        =
      if transmitter ∈ transmitters then endBin else r.eorBin transmitter := by
  unfold eorBin
  rw [find?_recordEoR]
  split
  . rfl
  . rfl

theorem eorBin_lt_startOfReceptionBin (r : NoiseRecorder P) (u : Reception P) {transmitter : NEMId}
    (hmem : transmitter ∈ u.transmitters)
    : r.eorBin transmitter < r.startOfReceptionBin u := by
  have hmax : r.eorBin transmitter ≤ r.maxEoRBin u.transmitters := by
    have hle := (maxEoRBin_le_iff r u.transmitters (r.maxEoRBin_nonneg u.transmitters)).mp
      (Int.le_refl _) transmitter hmem
    unfold eorBin
    cases hfind : r.nemEoRBinMap.find? transmitter with
    | none => exact r.maxEoRBin_nonneg u.transmitters
    | some e => exact hle e hfind
  unfold startOfReceptionBin
  simp only
  split
  . omega
  . omega

variable [Zero P] [Add P]

theorem nemEoRBinMap_fill {r r' : NoiseRecorder P} {startBin endBin : Int} {rxPower : P}
    (h : r.fill startBin endBin rxPower = some r')
    : r'.nemEoRBinMap = r.nemEoRBinMap := by
  unfold fill at h
  split at h
  . simp only [Option.bind_eq_bind, Option.bind_eq_some_iff, Option.pure_def, Option.some.injEq] at h
    obtain ⟨_, -, rfl⟩ := h
    rfl
  . simp only [Option.bind_eq_bind, Option.bind_eq_some_iff, Option.pure_def, Option.some.injEq] at h
    obtain ⟨_, -, _, -, _, -, rfl⟩ := h
    rfl

theorem update_eorBin {r r' : NoiseRecorder P} {u : Reception P} {times : TimePoint × TimePoint}
    (h : r.update u = some (times, r'))
    : (¬ r.startOfReceptionBin u ≤ u.endOfReceptionBin r.cfg ∧ r' = r)
        ∨ (r.startOfReceptionBin u ≤ u.endOfReceptionBin r.cfg
        ∧ ∀ transmitter,
        r'.eorBin transmitter = if transmitter ∈ u.transmitters then u.endOfReceptionBin r.cfg
            else r.eorBin transmitter) := by
  unfold update at h
  simp only at h
  split at h
  . next hle =>
    simp only [Option.bind_eq_bind, Option.bind_eq_some_iff, Option.pure_def, Option.some.injEq,
      Prod.mk.injEq] at h
    obtain ⟨filled, hfill, -, rfl⟩ := h
    refine Or.inr ⟨hle, ?_⟩
    intro transmitter
    rw [eorBin_recordEoR]
    unfold eorBin
    rw [nemEoRBinMap_fill hfill, nemEoRBinMap_resetIfIdle]
  . next hgt =>
    cases h
    exact Or.inl ⟨hgt, rfl⟩

end NoiseRecorder

namespace SpectrumMonitor

open Recomputing

variable {P : Type u}

def eorBin (transmitter : NEMId) (m : SpectrumMonitor P) (frequencyHz : Nat) : Int :=
  ((m.recorder? frequencyHz).map (fun r => r.eorBin transmitter)).getD 0

theorem eorBin_write (transmitter : NEMId) (m : SpectrumMonitor P) (heap : Heap (NoiseRecorder P))
    (address : Nat)
    (r : NoiseRecorder P) (frequencyHz : Nat)
    : eorBin transmitter { m with heap := heap.write address r } frequencyHz
        =
      if m.noiseRecorderMap.find? frequencyHz = some address then
        r.eorBin transmitter
      else
        eorBin transmitter { m with heap := heap } frequencyHz := by
  unfold eorBin recorder?
  cases m.noiseRecorderMap.find? frequencyHz with
  | none => simp
  | some other =>
    simp only [Option.bind_some, Heap.read_write, Option.some.injEq]
    split
    . rfl
    . rfl

variable [Double P]

def Records (m : SpectrumMonitor P) (u : Reception P) (info : RecorderInfo P) : Prop :=
  (info.overlapRatio > 0 ∧ u.rxPower * info.overlapRatio ≥ m.receiverSensitivityMilliWatt)
    ∧ ∃ r ∈ m.heap.read info.recorder, r.startOfReceptionBin u ≤ u.endOfReceptionBin r.cfg

instance (m : SpectrumMonitor P) (u : Reception P) (info : RecorderInfo P)
    : Decidable (m.Records u info) :=
  inferInstanceAs (Decidable (_ ∧ _))

variable {m : SpectrumMonitor P}

theorem recordPower_ratchets {u : Reception P} {info : RecorderInfo P} {frequencyHz : Nat}
    (hfind : m.noiseRecorderMap.find? frequencyHz = some info.recorder) (hratio : info.overlapRatio > 0)
    {heap heap' : Heap (NoiseRecorder P)} {marks marks' : Marks}
    (h : recordPower m.receiverSensitivityMilliWatt u heap marks info = some (heap', some marks'))
    (transmitter : NEMId)
    : Ratchets (eorBin transmitter) (transmitter ∈ u.transmitters)
        (({ m with heap := heap } : SpectrumMonitor P).Records u info)
        { m with heap := heap } { m with heap := heap' } := by
  unfold recordPower at h
  simp only at h
  split at h
  . next hpower =>
    obtain ⟨r, hread, h⟩ := Option.bind_eq_some_iff.mp h
    split at h
    . next times r' hupdate =>
      cases h
      have hrecords : ({ m with heap := heap } : SpectrumMonitor P).Records u info
          ↔ r.startOfReceptionBin u ≤ u.endOfReceptionBin r.cfg := by
        unfold Records
        simp [hratio, hpower, hread]
      obtain ⟨hgt, rfl⟩ | ⟨hle, heor⟩ := NoiseRecorder.update_eorBin hupdate
      . -- there is no bin left
        simp only [Heap.write_of_read hread]
        exact Ratchets.refl (fun hact => hgt (hrecords.mp hact))
      . have hlt : transmitter ∈ u.transmitters → r.eorBin transmitter < r.startOfReceptionBin u :=
          r.eorBin_lt_startOfReceptionBin u
        constructor
        . intro k
          rw [eorBin_write]
          split
          . next hk =>
            have hold : eorBin transmitter { m with heap := heap } k = r.eorBin transmitter := by
              simp [eorBin, recorder?, hk, hread]
            rw [hold, heor]
            split
            . next hmem => exact Int.le_trans (Int.le_of_lt (hlt hmem)) hle
            . exact Int.le_refl _
          . exact Int.le_refl _
        . intro hnot
          exact absurd (hrecords.mpr hle) hnot
        . intro hmem _
          refine ⟨frequencyHz, ?_⟩
          have hold : eorBin transmitter { m with heap := heap } frequencyHz = r.eorBin transmitter := by
            simp [eorBin, recorder?, hfind, hread]
          rw [eorBin_write, if_pos hfind, hold, heor, if_pos hmem]
          exact Int.lt_of_lt_of_le (hlt hmem) hle
    . cases h
  . next hpower =>
    cases h
    exact Ratchets.refl (fun hact => hpower hact.1.2)

theorem visited_of_updateRecorder {sensitivity : P} {u : Reception P} {f : Nat}
    {info : RecorderInfo P} {s s' : Visit P}
    (h : updateRecorder sensitivity u f s info = some s') (hvisited : s'.2 ≠ none)
    : s.2 ≠ none := by
  obtain ⟨heap, visited⟩ := s
  cases visited with
  | some marks => simp
  | none =>
    cases h
    exact hvisited

theorem updateRecorder_ratchets {u : Reception P} {info : RecorderInfo P} {frequencyHz : Nat}
    (hfind : m.noiseRecorderMap.find? frequencyHz = some info.recorder) {f : Nat} {s s' : Visit P}
    (h : updateRecorder m.receiverSensitivityMilliWatt u f s info = some s')
    (hvisited : s'.2 ≠ none) (transmitter : NEMId)
    : Ratchets (eorBin transmitter) (transmitter ∈ u.transmitters)
        (({ m with heap := s.1 } : SpectrumMonitor P).Records u info)
        { m with heap := s.1 } { m with heap := s'.1 } := by
  obtain ⟨heap, visited⟩ := s
  obtain ⟨marks, rfl⟩ := Option.ne_none_iff_exists'.mp (visited_of_updateRecorder h hvisited)
  unfold updateRecorder at h
  simp only at h
  split at h
  . next hratio =>
    obtain ⟨⟨heap', visited'⟩, hrecord, rfl⟩ := Option.map_eq_some_iff.mp h
    cases visited' with
    | none => exact absurd rfl hvisited
    | some marks' => exact recordPower_ratchets hfind hratio hrecord transmitter
  . next hratio =>
    cases h
    exact Ratchets.refl (fun hact => hratio hact.1.1)

theorem find?_of_mem_recorderInfo {segmentBandwidthHz frequencyHz : Nat} {info : RecorderInfo P}
    (h : info ∈ m.recorderInfo segmentBandwidthHz frequencyHz)
    : m.noiseRecorderMap.find? info.frequencyHz = some info.recorder := by
  obtain ⟨entry, hentry, rfl⟩ := List.mem_map.mp h
  exact (SortedMap.find?_eq_some_iff _ _ _).mpr hentry

def receptionOf (m : SpectrumMonitor P) (msg : Message P) (txTime : TimePoint)
    (propagation : Microseconds)
    (x : FrequencySegment P × P)
    : Reception P :=
  reception msg txTime propagation (min x.1.duration m.maxDuration) (min x.1.offset m.maxOffset) x.2

def RecordsSegment (m : SpectrumMonitor P) (msg : Message P) (txTime : TimePoint)
    (propagation : Microseconds)
    (x : FrequencySegment P × P)
    : Prop :=
  ∃ info ∈ m.recorderInfo msg.segmentBandwidthHz x.1.frequencyHz,
    m.Records (m.receptionOf msg txTime propagation x) info

instance (m : SpectrumMonitor P) (msg : Message P) (txTime : TimePoint) (propagation : Microseconds)
    (x : FrequencySegment P × P)
    : Decidable (m.RecordsSegment msg txTime propagation x) :=
  inferInstanceAs (Decidable (∃ info ∈ m.recorderInfo msg.segmentBandwidthHz x.1.frequencyHz, _))

def accepted (m : SpectrumMonitor P) (xs : List (FrequencySegment P × P))
    : List (FrequencySegment P × P) :=
  xs.takeWhile (fun x => (m.validSegment x.1).isOk)

variable {m' : SpectrumMonitor P} {msg : Message P}

theorem recordSegment_ratchets {txTime : TimePoint} {propagation : Microseconds}
    {segment : FrequencySegment P} {power : P} {r : Report P} {res : Except Raised (Report P)}
    (h : Recomputing.recordSegment msg txTime propagation m segment power r = some (res, m'))
    (hres : res ≠ .error .indexError) (transmitter : NEMId)
    : ((m.validSegment segment).isOk = false ∧ m' = m ∧ ∃ what, res = .error (.service what))
        ∨ ((m.validSegment segment).isOk = true
        ∧ (∃ r', res = .ok r')
        ∧ Ratchets (eorBin transmitter) (transmitter ∈ msg.transmitters)
        (m.RecordsSegment msg txTime propagation (segment, power)) m m') := by
  unfold Recomputing.recordSegment recordWith at h
  cases hvalid : m.validSegment segment with
  | error what =>
    rw [hvalid] at h
    cases h
    exact Or.inl ⟨rfl, rfl, what, rfl⟩
  | ok times =>
    obtain ⟨duration, offset⟩ := times
    rw [hvalid] at h
    obtain ⟨⟨heap, visited⟩, hupdate, h⟩ := Option.bind_eq_some_iff.mp h
    cases visited with
    | none =>
      cases h
      exact absurd rfl hres
    | some marks =>
      cases h
      obtain ⟨rfl, rfl⟩ := validSegment_eq_ok hvalid
      refine Or.inr ⟨rfl, ⟨_, rfl⟩, ?_⟩
      exact @Ratchets.foldlM _ _ (eorBin transmitter) (transmitter ∈ msg.transmitters) _ _ _
        (fun s => s.2 ≠ none)
        (fun _ _ _ => visited_of_updateRecorder) (fun s => { m with heap := s.1 })
        (fun m info => m.Records (m.receptionOf msg txTime propagation (segment, power)) info) _
        (fun _ _ _ hmem hone hvisited => updateRecorder_ratchets
          (find?_of_mem_recorderInfo hmem) hone hvisited transmitter)
        _ _ hupdate (by simp)

theorem forSegments_ratchets {txTime : TimePoint} {propagation : Microseconds}
    {xs : List (FrequencySegment P × P)} {r : Report P} {res : Except Raised (Report P)}
    (h : forSegments (Recomputing.recordSegment msg txTime propagation) m xs r = some (res, m'))
    (hres : res ≠ .error .indexError) (transmitter : NEMId)
    : Ratchets (eorBin transmitter) (transmitter ∈ msg.transmitters)
        (∃ x ∈ m.accepted xs, m.RecordsSegment msg txTime propagation x) m m' := by
  induction xs generalizing m r with
  | nil =>
    cases h
    exact Ratchets.refl (by simp [accepted])
  | cons x xs ih =>
    obtain ⟨segment, power⟩ := x
    unfold forSegments at h
    rw [Option.bind_eq_bind, Option.bind_eq_some_iff] at h
    obtain ⟨⟨res₁, m₁⟩, hone, h⟩ := h
    have hres₁ : res₁ ≠ .error .indexError := by
      rintro rfl
      cases h
      exact hres rfl
    obtain ⟨hvalid, rfl, what, rfl⟩ | ⟨hvalid, ⟨r', rfl⟩, hfirst⟩ :=
      recordSegment_ratchets hone hres₁ transmitter
    . obtain ⟨-, rfl⟩ := Prod.mk.inj (Option.some.inj h)
      have hnone : m₁.accepted ((segment, power) :: xs) = [] := by
        simp [accepted, hvalid]
      rw [hnone]
      exact Ratchets.refl (by simp)
    . have hsome : m.accepted ((segment, power) :: xs) = (segment, power) :: m.accepted xs := by
        simp [accepted, hvalid]
      rw [hsome]
      refine (hfirst.trans (ih h) ?_).of_iff (List.exists_mem_cons_iff _ _ _).symm
      intro heq
      rw [heq]

/--
A message that is not rejected before its segments are looked at, and a segment of it that is
recorded before one that is rejected.
-/
def LeavesTrace (m : SpectrumMonitor P) (msg : Message P) : Prop :=
  (m.isQuiet msg = false ∧ (m.validPropagation msg).isOk = true)
    ∧ ∃ x ∈ m.accepted (msg.segments.zip msg.rxPowersMilliWatt),
    m.RecordsSegment msg (m.validTxTime msg) (min msg.propagationDelay m.maxPropagation) x

instance (m : SpectrumMonitor P) (msg : Message P) : Decidable (m.LeavesTrace msg) :=
  inferInstanceAs (Decidable (_ ∧ _))

theorem update_ratchets {what : String}
    (h : Recomputing.update m msg = some (.error (.service what), m')) (transmitter : NEMId)
    : Ratchets (eorBin transmitter) (transmitter ∈ msg.transmitters) (m.LeavesTrace msg) m m' := by
  unfold Recomputing.update updateWith at h
  split at h
  . cases h
  . cases hpropagation : m.validPropagation msg with
    | error what' =>
      rw [hpropagation] at h
      cases h
      apply Ratchets.refl
      intro hact
      have hok := hact.1.2
      rw [hpropagation] at hok
      cases hok
    | ok propagation =>
      rw [hpropagation] at h
      obtain ⟨⟨res, m''⟩, hprocess, hpair⟩ := Option.map_eq_some_iff.mp h
      unfold process at hprocess
      split at hprocess
      . next hquiet =>
        obtain ⟨-, rfl⟩ := Prod.mk.inj hpair
        obtain ⟨_, -, hpair⟩ := Option.map_eq_some_iff.mp hprocess
        cases hpair
        apply Ratchets.refl
        intro hact
        exact absurd hact.1.1 (by simp [hquiet])
      . next hquiet =>
        obtain rfl := limit_eq_ok hpropagation
        have hres : res ≠ .error .indexError := by
          rintro rfl
          cases hpair
        obtain ⟨-, rfl⟩ := Prod.mk.inj hpair
        apply (forSegments_ratchets hprocess hres transmitter).of_iff
        unfold LeavesTrace
        simp [hquiet, hpropagation, Except.isOk, Except.toBool]

structure NotPresented (m m' : SpectrumMonitor P) : Prop where
  recorders : ∀ frequencyHz, m'.recorder? frequencyHz = m.recorder? frequencyHz
  later : ∀ calls, (run Session.step ⟨m', []⟩ calls).map Session.view
    = (run Session.step ⟨m, []⟩ calls).map Session.view

theorem NotPresented.of_forget (h : CacheValid m) (h' : CacheValid m') (heq : forget m' = forget m)
    : NotPresented m m' := by
  constructor
  . intro frequencyHz
    have : (forget m').recorder? frequencyHz = (forget m).recorder? frequencyHz := by rw [heq]
    exact this
  . intro calls
    have hview : ∀ s : Option (Session P),
        s.map Session.view = (s.map forgetSession).map Session.view := by
      intro s
      rw [Option.map_map]
      rfl
    rw [hview, hview (run Session.step ⟨m, []⟩ calls), @run_forget _ _ ⟨m', []⟩ h',
      @run_forget _ _ ⟨m, []⟩ h]
    unfold forgetSession
    rw [heq]

theorem notPresented_iff {calls : List (Call P)} {s : Session P}
    (hrun : run Session.step ⟨new, []⟩ calls = some s)
    {msg : Message P} {what : String} {m' : SpectrumMonitor P}
    (h : s.monitor.update msg = some (.error (.service what), m'))
    : (¬ s.monitor.LeavesTrace msg → NotPresented s.monitor m')
        ∧ (msg.transmitters ≠ [] → NotPresented s.monitor m' → ¬ s.monitor.LeavesTrace msg) := by
  have hvalid := cacheValid_of_run hrun
  obtain ⟨hforget, hkeep⟩ := update_forget hvalid msg
  rw [h] at hforget
  have hratchets := update_ratchets hforget.symm
  constructor
  . intro hnot
    exact NotPresented.of_forget hvalid (hkeep _ _ h) ((hratchets 0).idle hnot)
  . intro hsome hpresented
    obtain ⟨transmitter, transmitters, htransmitters⟩ := List.exists_cons_of_ne_nil hsome
    apply (hratchets transmitter).not_act
    . rw [htransmitters]
      exact List.mem_cons_self
    . intro frequencyHz
      have hsame : (forget m').recorder? frequencyHz = (forget s.monitor).recorder? frequencyHz :=
        hpresented.recorders frequencyHz
      unfold eorBin
      rw [hsame]

open scoped Double

theorem notPresented_iff_example
    : ∃ (s : Session Int) (what : String) (m' : SpectrumMonitor Int),
        let msg : Message Int :=
          ⟨1000000, 1000000, 0, [⟨100, 0, 200, 0⟩, ⟨100, 0, 10, 0⟩], 20, [10, 10], true, [1]⟩
        run Session.step ⟨new, []⟩
          [.init ⟨[100], 20, 1, .ALL,
            ⟨⟨10, 100, 100, 100, by decide, by decide, by decide⟩, 10000, false⟩⟩] = some s
          ∧ s.monitor.update msg = some (.error (.service what), m')
          ∧ NotPresented s.monitor m' := by
  have hrun : ∃ (s : Session Int) (what : String) (m' : SpectrumMonitor Int),
      let msg : Message Int :=
        ⟨1000000, 1000000, 0, [⟨100, 0, 200, 0⟩, ⟨100, 0, 10, 0⟩], 20, [10, 10], true, [1]⟩
      run Session.step ⟨new, []⟩
        [.init ⟨[100], 20, 1, .ALL,
          ⟨⟨10, 100, 100, 100, by decide, by decide, by decide⟩, 10000, false⟩⟩] = some s
        ∧ s.monitor.update msg = some (.error (.service what), m')
        ∧ ¬ s.monitor.LeavesTrace msg := by
    exact ⟨_, _, _, rfl, rfl, by decide⟩
  obtain ⟨s, what, m', hrun, hupdate, hnot⟩ := hrun
  exact ⟨s, what, m', hrun, hupdate, (notPresented_iff hrun hupdate).1 hnot⟩

theorem not_notPresented
    : ¬ ∀ (calls : List (Call Int)) (s : Session Int) (msg : Message Int) (what : String) (m' : SpectrumMonitor Int),
        run Session.step ⟨new, []⟩ calls = some s
          → s.monitor.update msg = some (.error (.service what), m') →
          NotPresented s.monitor m' := by
  intro hall
  have hpresented := hall
    [.init ⟨[100], 20, 1, .ALL, ⟨⟨10, 100, 100, 100, by decide, by decide, by decide⟩, 10000, false⟩⟩] _
    ⟨1000000, 1000000, 0, [⟨100, 0, 10, 0⟩, ⟨100, 0, 200, 0⟩], 20, [10, 10], true, [1]⟩ _ _ rfl rfl
  have heor := congrArg (fun r => r.map (fun r => r.eorBin 1)) (hpresented.recorders 100)
  exact absurd heor (by decide)

end SpectrumMonitor
end Spectrum
end Emane

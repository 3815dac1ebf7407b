import Emane.Spectrum.Lemmas.OverlapCache

/-!
This module contains which messages are reported as in band, and with which segments.
-/

namespace Emane
namespace Spectrum
namespace SpectrumMonitor

open Recomputing

variable {P : Type u}

theorem mem_getFrequencies_iff (m : SpectrumMonitor P) (f : Nat)
    : f ∈ m.getFrequencies ↔ m.noiseRecorderMap.contains f = true := by
  unfold getFrequencies SortedMap.contains
  rw [List.mem_map, Option.isSome_iff_exists]
  simp only [SortedMap.find?_eq_some_iff]
  constructor
  . rintro ⟨⟨f', address⟩, hmem, rfl⟩
    exact ⟨address, hmem⟩
  . rintro ⟨address, hmem⟩
    exact ⟨(f, address), hmem, rfl⟩

variable [Double P]

def reported (m : SpectrumMonitor P) (x : FrequencySegment P × P) : FrequencySegment P where
  frequencyHz := x.1.frequencyHz
  powerdBm := Double.MILLIWATT_TO_DB x.2
  duration := min x.1.duration m.maxDuration
  offset := min x.1.offset m.maxOffset

variable {m : SpectrumMonitor P}

omit [Double P] in
theorem limit_eq_ok {name maxName : String} {value maximum value' : Microseconds}
    (h : m.limit name value maximum maxName = .ok value')
    : value' = min value maximum := by
  unfold limit at h
  split at h
  . next hgt =>
    split at h
    . cases h
      exact (Nat.min_eq_right (Nat.le_of_lt hgt)).symm
    . cases h
  . next hle =>
    cases h
    exact (Nat.min_eq_left (Nat.le_of_not_lt hle)).symm

omit [Double P] in
theorem validSegment_eq_ok {segment : FrequencySegment P} {duration offset : Microseconds}
    (h : m.validSegment segment = .ok (duration, offset))
    : duration = min segment.duration m.maxDuration ∧ offset = min segment.offset m.maxOffset := by
  unfold validSegment at h
  cases hoffset : m.limit "Segment offset" segment.offset m.maxOffset "offset" with
  | error what =>
    rw [hoffset] at h
    cases h
  | ok offset' =>
    cases hduration : m.limit "Segment duration" segment.duration m.maxDuration "duration" with
    | error what =>
      rw [hoffset, hduration] at h
      cases h
    | ok duration' =>
      rw [hoffset, hduration] at h
      cases h
      exact ⟨limit_eq_ok hduration, limit_eq_ok hoffset⟩

variable {msg : Message P} {txTime : TimePoint} {propagation : Microseconds} {r r' : Report P}

theorem checkSegments_eq_ok
    {segments : List (FrequencySegment P)} {i : Nat}
    (h : m.checkSegments msg txTime propagation segments i r = some (.ok r'))
    : (r'.reportAsInBand = true ↔ r.reportAsInBand = true ∧ ∀ s ∈ segments,
        m.noiseRecorderMap.contains s.frequencyHz = true)
        ∧ ((∀ s ∈ segments, m.noiseRecorderMap.contains s.frequencyHz = true) →
        ∃ added,
          r'.segments = r.segments ++ added
            ∧ added.Sublist ((segments.zip (msg.rxPowersMilliWatt.drop i)).map m.reported)) := by
  induction segments generalizing i r with
  | nil =>
    obtain rfl := Except.ok.inj (Option.some.inj h)
    refine ⟨by simp, fun _ => ⟨[], by simp, by simp⟩⟩
  | cons segment segments ih =>
    unfold checkSegments at h
    split at h
    . next hinside =>
      rw [Option.bind_eq_bind, Option.bind_eq_some_iff] at h
      obtain ⟨power, hpower, h⟩ := h
      have hdrop : msg.rxPowersMilliWatt.drop i = power :: msg.rxPowersMilliWatt.drop (i + 1) := by
        obtain ⟨hlt, rfl⟩ := List.getElem?_eq_some_iff.mp hpower
        exact List.drop_eq_getElem_cons hlt
      rw [hdrop, List.zip_cons_cons, List.map_cons]
      split at h
      . cases hvalid : m.validSegment segment with
        | error what =>
          rw [hvalid] at h
          cases h
        | ok res =>
          obtain ⟨duration, offset⟩ := res
          rw [hvalid] at h
          obtain ⟨hreport, hsegments⟩ := ih h
          obtain ⟨rfl, rfl⟩ := validSegment_eq_ok hvalid
          refine ⟨by simp [hreport, hinside, Report.add], ?_⟩
          intro hall
          obtain ⟨added, heq, hsub⟩ := hsegments (fun s hs => hall s (List.mem_cons_of_mem _ hs))
          refine ⟨m.reported (segment, power) :: added, ?_, hsub.cons_cons _⟩
          rw [heq]
          simp [Report.add, reported]
      . obtain ⟨hreport, hsegments⟩ := ih h
        refine ⟨by simp [hreport, hinside], ?_⟩
        intro hall
        obtain ⟨added, heq, hsub⟩ := hsegments (fun s hs => hall s (List.mem_cons_of_mem _ hs))
        exact ⟨added, heq, hsub.cons _⟩
    . next houtside =>
      obtain ⟨hreport, -⟩ := ih h
      refine ⟨by simp [hreport, houtside], ?_⟩
      intro hall
      exact absurd (hall segment List.mem_cons_self) houtside

def Overlaps (m : SpectrumMonitor P) (segmentBandwidthHz : Nat) (segment : FrequencySegment P) : Prop :=
  segment.frequencyHz ∈ m.getFrequencies
    ∧ (frequencyOverlapRatio segment.frequencyHz m.receiverBandwidthHz segment.frequencyHz
      segmentBandwidthHz : P) > 0

instance (m : SpectrumMonitor P) (segmentBandwidthHz : Nat) (segment : FrequencySegment P)
    : Decidable (m.Overlaps segmentBandwidthHz segment) :=
  inferInstanceAs (Decidable (_ ∧ _))

def matched (frequencyHz : Nat) (info : RecorderInfo P) : Bool :=
  info.overlapRatio > 0 && info.frequencyHz = frequencyHz

variable {sensitivity : P} {u : Reception P} {heap heap' : Heap (NoiseRecorder P)} {marks marks' : Marks}

theorem frequencyMatch_recordPower {info : RecorderInfo P}
    (h : recordPower sensitivity u heap marks info = some (heap', some marks'))
    : marks'.frequencyMatch = marks.frequencyMatch := by
  unfold recordPower at h
  simp only at h
  split at h
  . obtain ⟨recorder, -, h⟩ := Option.bind_eq_some_iff.mp h
    split at h
    . obtain ⟨-, heq⟩ := Prod.mk.inj (Option.some.inj h)
      cases heq
      rfl
    . cases h
  . obtain ⟨-, heq⟩ := Prod.mk.inj (Option.some.inj h)
    cases heq
    rfl

theorem frequencyMatch_updateRecorder {frequencyHz : Nat} {info : RecorderInfo P}
    (h : updateRecorder sensitivity u frequencyHz (heap, some marks) info = some (heap', some marks'))
    : marks'.frequencyMatch = (marks.frequencyMatch || matched frequencyHz info) := by
  unfold updateRecorder at h
  simp only at h
  unfold matched
  split at h
  . next hratio =>
    obtain ⟨⟨_, visited⟩, hrecord, heq⟩ := Option.map_eq_some_iff.mp h
    cases visited with
    | none => cases heq
    | some marks₁ =>
      obtain ⟨-, heq⟩ := Prod.mk.inj heq
      cases heq
      simp [frequencyMatch_recordPower hrecord, hratio]
  . next hratio =>
    obtain ⟨-, heq⟩ := Prod.mk.inj (Option.some.inj h)
    cases heq
    simp [hratio]

theorem foldlM_updateRecorder_none (frequencyHz : Nat) (infos : List (RecorderInfo P))
    : infos.foldlM (updateRecorder sensitivity u frequencyHz) (heap, none) = some (heap, none) := by
  induction infos with
  | nil => rfl
  | cons info infos ih => exact ih

theorem frequencyMatch_foldlM {frequencyHz : Nat} {infos : List (RecorderInfo P)}
    (h : infos.foldlM (updateRecorder sensitivity u frequencyHz) (heap, some marks)
      = some (heap', some marks'))
    : marks'.frequencyMatch = (marks.frequencyMatch || infos.any (matched frequencyHz)) := by
  induction infos generalizing heap marks with
  | nil =>
    obtain ⟨-, heq⟩ := Prod.mk.inj (Option.some.inj h)
    cases heq
    simp
  | cons info infos ih =>
    rw [List.foldlM_cons, Option.bind_eq_bind, Option.bind_eq_some_iff] at h
    obtain ⟨⟨heap₁, visited⟩, hone, hrest⟩ := h
    cases visited with
    | none =>
      rw [foldlM_updateRecorder_none] at hrest
      cases hrest
    | some marks₁ => rw [ih hrest, frequencyMatch_updateRecorder hone, List.any_cons, Bool.or_assoc]

theorem any_matched_recorderInfo (m : SpectrumMonitor P) (segmentBandwidthHz : Nat)
    (segment : FrequencySegment P)
    : (m.recorderInfo segmentBandwidthHz segment.frequencyHz).any (matched segment.frequencyHz) = true
        ↔
      m.Overlaps segmentBandwidthHz segment := by
  unfold recorderInfo Overlaps getFrequencies matched
  simp only [List.any_map, List.any_eq_true, Function.comp_apply, Bool.and_eq_true,
    decide_eq_true_eq, List.mem_map]
  constructor
  . rintro ⟨entry, hmem, hratio, heq⟩
    rw [heq] at hratio
    exact ⟨⟨entry, hmem, heq⟩, hratio⟩
  . rintro ⟨⟨entry, hmem, heq⟩, hratio⟩
    rw [← heq] at hratio
    exact ⟨entry, hmem, by rw [heq] at hratio ⊢; exact hratio, heq⟩

variable {m' : SpectrumMonitor P}

theorem recordSegment_eq_ok
    {segment : FrequencySegment P} {power : P}
    (h : Recomputing.recordSegment msg txTime propagation m segment power r = some (.ok r', m'))
    : ∃ heap marks,
        m' = { m with heap := heap }
          ∧ (marks.frequencyMatch = true ↔ m.Overlaps msg.segmentBandwidthHz segment)
          ∧ r' = reportSegment msg segment power (min segment.duration m.maxDuration)
              (min segment.offset m.maxOffset) marks r := by
  unfold Recomputing.recordSegment recordWith at h
  cases hvalid : m.validSegment segment with
  | error what =>
    rw [hvalid] at h
    cases h
  | ok res =>
    obtain ⟨duration, offset⟩ := res
    rw [hvalid] at h
    obtain ⟨⟨heap, visited⟩, hupdate, h⟩ := Option.bind_eq_some_iff.mp h
    cases visited with
    | none => cases h
    | some marks =>
      obtain ⟨hres, rfl⟩ := Prod.mk.inj (Option.some.inj h)
      cases hres
      obtain ⟨rfl, rfl⟩ := validSegment_eq_ok hvalid
      refine ⟨heap, marks, rfl, ?_, rfl⟩
      rw [frequencyMatch_foldlM hupdate, ← any_matched_recorderInfo]
      simp [Marks.none]

theorem reportSegment_eq (msg : Message P) (hin : msg.inBand = true) (m : SpectrumMonitor P)
    (segment : FrequencySegment P)
    (power : P) (marks : Marks) (r : Report P)
    : let r' := reportSegment msg segment power (min segment.duration m.maxDuration)
        (min segment.offset m.maxOffset) marks r
      (r'.reportAsInBand = true ↔ r.reportAsInBand = true ∨ marks.frequencyMatch = true)
        ∧ (r'.segments = r.segments ∨ r'.segments = r.segments ++ [m.reported (segment, power)]) := by
  intro r'
  change ((reportSegment _ _ _ _ _ _ _).reportAsInBand = true ↔ _)
    ∧ ((reportSegment _ _ _ _ _ _ _).segments = _
    ∨ (reportSegment _ _ _ _ _ _ _).segments = _)
  unfold reportSegment
  simp only [hin, ↓reduceIte]
  by_cases hmatch : marks.frequencyMatch
  . by_cases habove : marks.aboveSensitivity
    . simp [hmatch, habove, Report.add, reported]
    . simp [hmatch, habove]
  . simp [hmatch]

theorem forSegments_eq_ok (hin : msg.inBand = true)
    {xs : List (FrequencySegment P × P)}
    (h : forSegments (Recomputing.recordSegment msg txTime propagation) m xs r = some (.ok r', m'))
    : (r'.reportAsInBand = true ↔ r.reportAsInBand = true
        ∨ ∃ x ∈ xs, m.Overlaps msg.segmentBandwidthHz x.1)
        ∧ ∃ added, r'.segments = r.segments ++ added ∧ added.Sublist (xs.map m.reported) := by
  induction xs generalizing m r with
  | nil =>
    obtain ⟨heq, -⟩ := Prod.mk.inj (Option.some.inj h)
    cases heq
    exact ⟨by simp, [], by simp, by simp⟩
  | cons x xs ih =>
    obtain ⟨segment, power⟩ := x
    unfold forSegments at h
    rw [Option.bind_eq_bind, Option.bind_eq_some_iff] at h
    obtain ⟨⟨res, m₁⟩, hone, h⟩ := h
    cases res with
    | error what => cases h
    | ok r₁ =>
      obtain ⟨heap, marks, rfl, hmatch, rfl⟩ := recordSegment_eq_ok hone
      obtain ⟨hfirst, hsegments⟩ := reportSegment_eq msg hin m segment power marks r
      obtain ⟨hreport, added, heq, hsub⟩ := ih h
      have hoverlaps : ∀ s,
        ({ m with heap := heap } : SpectrumMonitor P).Overlaps msg.segmentBandwidthHz s
          ↔ m.Overlaps msg.segmentBandwidthHz s := fun _ => Iff.rfl
      constructor
      . rw [hreport, hfirst, hmatch, List.exists_mem_cons_iff, or_assoc]
        simp only [hoverlaps]
      . cases hsegments with
        | inl hsame => exact ⟨added, by rw [heq, hsame], hsub.cons _⟩
        | inr hmore => exact ⟨_ :: added, by rw [heq, hmore, List.append_assoc]; rfl, hsub.cons_cons _⟩

theorem update_eq_ok {res : UpdateResult P}
    (hlength : msg.segments.length = msg.rxPowersMilliWatt.length)
    (h : Recomputing.update m msg = some (.ok res, m'))
    : ∃ propagation r,
        (if m.isQuiet msg then
          m.checkSegments msg (m.validTxTime msg) propagation msg.segments 0
            ⟨0, TimePoint.max, [], true⟩ = some (.ok r)
        else
          Recomputing.noise m msg (m.validTxTime msg) propagation = some (.ok r, m'))
          ∧ res.segments = r.segments
          ∧ res.reportAsInBand = r.reportAsInBand := by
  unfold Recomputing.update updateWith at h
  rw [if_neg (not_not.mpr hlength)] at h
  cases hpropagation : m.validPropagation msg with
  | error what =>
    rw [hpropagation] at h
    cases h
  | ok propagation =>
    rw [hpropagation] at h
    obtain ⟨⟨res', m''⟩, hres, hpair⟩ := Option.map_eq_some_iff.mp h
    obtain ⟨hmap, rfl⟩ := Prod.mk.inj hpair
    cases res' with
    | error what => cases hmap
    | ok r =>
      cases hmap
      refine ⟨propagation, r, ?_, rfl, rfl⟩
      unfold process at hres
      split at hres
      . next hquiet =>
        obtain ⟨res, hcheck, heq⟩ := Option.map_eq_some_iff.mp hres
        cases res with
        | error what => cases heq
        | ok r' =>
          obtain ⟨heq, -⟩ := Prod.mk.inj heq
          cases heq
          rw [if_pos hquiet]
          exact hcheck
      . next hquiet =>
        rw [if_neg hquiet]
        exact hres

structure InBandContract (m : SpectrumMonitor P) (msg : Message P) (res : UpdateResult P) : Prop where
  decision : res.reportAsInBand = true ↔ ∀ s ∈ msg.segments, s.frequencyHz ∈ m.getFrequencies
  segments : res.reportAsInBand = true →
    res.segments.Sublist ((msg.segments.zip msg.rxPowersMilliWatt).map m.reported)

def Mixed (m : SpectrumMonitor P) (msg : Message P) : Prop :=
  (∃ s ∈ msg.segments, s.frequencyHz ∉ m.getFrequencies) ∧ ∃ s ∈ msg.segments,
    m.Overlaps msg.segmentBandwidthHz s

/--
No segment at all, or a bandwidth that is zero, so that no segment is in the band of its recorder.
-/
def Hollow (m : SpectrumMonitor P) (msg : Message P) : Prop :=
  ∀ s ∈ msg.segments, s.frequencyHz ∈ m.getFrequencies ∧ ¬ m.Overlaps msg.segmentBandwidthHz s

instance (m : SpectrumMonitor P) (msg : Message P) : Decidable (m.Mixed msg) :=
  inferInstanceAs (Decidable (_ ∧ _))

instance (m : SpectrumMonitor P) (msg : Message P) : Decidable (m.Hollow msg) :=
  inferInstanceAs (Decidable (∀ s ∈ msg.segments, _))

def Decides (m : SpectrumMonitor P) (msg : Message P) : Prop :=
  if msg.segments.length ≠ msg.rxPowersMilliWatt.length then
    ∃ s ∈ msg.segments, s.frequencyHz ∉ m.getFrequencies
  else
    m.mode = .ALL → ¬ m.Mixed msg ∧ ¬ m.Hollow msg

instance (m : SpectrumMonitor P) (msg : Message P) : Decidable (m.Decides msg) := by
  unfold Decides
  infer_instance

theorem not_mixed_hollow_iff (m : SpectrumMonitor P) (msg : Message P)
    : ¬ m.Mixed msg ∧ ¬ m.Hollow msg
        ↔
      ((∀ s ∈ msg.segments, s.frequencyHz ∈ m.getFrequencies) ↔ ∃ s ∈ msg.segments,
          m.Overlaps msg.segmentBandwidthHz s) := by
  have houtside : (∃ s ∈ msg.segments, s.frequencyHz ∉ m.getFrequencies)
      ↔ ¬ ∀ s ∈ msg.segments, s.frequencyHz ∈ m.getFrequencies := by
    simp
  have hhollow : m.Hollow msg ↔ (∀ s ∈ msg.segments, s.frequencyHz ∈ m.getFrequencies)
      ∧ ¬ ∃ s ∈ msg.segments, m.Overlaps msg.segmentBandwidthHz s := by
    unfold Hollow
    rw [not_exists, ← forall_and]
    simp only [not_and, imp_and]
  unfold Mixed
  rw [hhollow, houtside]
  generalize (∀ s ∈ msg.segments, s.frequencyHz ∈ m.getFrequencies) = inside
  generalize (∃ s ∈ msg.segments, m.Overlaps msg.segmentBandwidthHz s) = overlaps
  grind

theorem recomputing_inBandContract_iff (hin : msg.inBand = true)
    {res : UpdateResult P} (h : Recomputing.update m msg = some (.ok res, m'))
    : InBandContract m msg res ↔ m.Decides msg := by
  unfold Decides
  rw [not_mixed_hollow_iff]
  by_cases hlength : msg.segments.length = msg.rxPowersMilliWatt.length
  . rw [if_neg (not_not.mpr hlength)]
    obtain ⟨propagation, r, hway, hsegments, hreport⟩ := update_eq_ok hlength h
    simp only [mem_getFrequencies_iff]
    by_cases hquiet : m.isQuiet msg = true
    . rw [if_pos hquiet] at hway
      have hmode : m.mode ≠ .ALL := by
        intro hall
        simp [isQuiet, hall] at hquiet
      obtain ⟨hdecision, hadded⟩ := checkSegments_eq_ok hway
      simp only [true_and] at hdecision
      simp only [hmode, false_implies, iff_true]
      constructor
      . simp only [mem_getFrequencies_iff]
        rw [hreport, hdecision]
      . intro hband
        rw [hreport, hdecision] at hband
        obtain ⟨added, heq, hsub⟩ := hadded hband
        rw [hsegments, heq]
        exact hsub
    . rw [if_neg hquiet] at hway
      have hmode : m.mode = .ALL := by
        cases hm : m.mode with
        | NONE => simp [isQuiet, hm] at hquiet
        | ALL => rfl
        | OUTOFBAND => simp [isQuiet, hm, hin] at hquiet
      obtain ⟨hdecision, added, heq, hsub⟩ := forSegments_eq_ok hin hway
      have hzip : (∃ x ∈ msg.segments.zip msg.rxPowersMilliWatt, m.Overlaps msg.segmentBandwidthHz x.1)
          ↔ ∃ s ∈ msg.segments, m.Overlaps msg.segmentBandwidthHz s := by
        have hfst : (msg.segments.zip msg.rxPowersMilliWatt).map Prod.fst = msg.segments :=
          List.map_fst_zip (Nat.le_of_eq hlength)
        conv_rhs => rw [← hfst]
        simp only [List.mem_map]
        exact ⟨fun ⟨x, hx, ho⟩ => ⟨x.1, ⟨x, hx, rfl⟩, ho⟩, fun ⟨_, ⟨x, hx, hs⟩, ho⟩ => ⟨x, hx, hs ▸ ho⟩⟩
      simp only [Bool.false_eq_true, false_or, hzip] at hdecision
      simp only [hmode, forall_const]
      constructor
      . intro hcontract
        have := hcontract.decision
        simp only [mem_getFrequencies_iff] at this
        rw [← this, hreport, hdecision]
      . intro hiff
        constructor
        . simp only [mem_getFrequencies_iff]
          rw [hreport, hdecision, hiff]
        . intro _
          rw [hsegments, heq]
          exact hsub
  . rw [if_pos hlength]
    unfold Recomputing.update updateWith at h
    rw [if_pos hlength] at h
    obtain ⟨hres, -⟩ := Prod.mk.inj (Option.some.inj h)
    cases hres
    constructor
    . intro hcontract
      by_contra hnone
      simp only [not_exists, not_and, not_not] at hnone
      have hband := hcontract.decision.mpr hnone
      cases hband
    . rintro ⟨s, hs, houtside⟩
      refine ⟨⟨?_, fun hall => absurd (hall s hs) houtside⟩, ?_⟩
      . intro hband
        cases hband
      . intro hband
        cases hband

theorem inBandContract_forget (m : SpectrumMonitor P) (msg : Message P) (res : UpdateResult P)
    : InBandContract (forget m) msg res ↔ InBandContract m msg res := by
  exact ⟨fun h => ⟨h.decision, h.segments⟩, fun h => ⟨h.decision, h.segments⟩⟩

theorem inBandContract_iff {calls : List (Call P)} {s : Session P}
    (hrun : run Session.step ⟨new, []⟩ calls = some s)
    {msg : Message P} (hin : msg.inBand = true) {res : UpdateResult P} {m' : SpectrumMonitor P}
    (h : s.monitor.update msg = some (.ok res, m'))
    : InBandContract s.monitor msg res ↔ s.monitor.Decides msg := by
  have hforget := (update_forget (cacheValid_of_run hrun) msg).1
  rw [h] at hforget
  rw [← inBandContract_forget]
  exact recomputing_inBandContract_iff hin hforget.symm

open scoped Double

theorem inBandContract_iff_example
    : ∃ (s : Session Int) (res : UpdateResult Int) (m' : SpectrumMonitor Int),
        let msg : Message Int :=
          ⟨1000000, 1000000, 0, [⟨100, 0, 10, 0⟩, ⟨200, 0, 10, 20⟩], 20, [10, 100], true, [1]⟩
        run Session.step ⟨new, []⟩
          [.init ⟨[100, 200], 20, 1, .ALL,
            ⟨⟨10, 100, 100, 100, by decide, by decide, by decide⟩, 10000, false⟩⟩] = some s
          ∧ s.monitor.update msg = some (.ok res, m')
          ∧ InBandContract s.monitor msg res := by
  have hrun : ∃ (s : Session Int) (res : UpdateResult Int) (m' : SpectrumMonitor Int),
      let msg : Message Int :=
        ⟨1000000, 1000000, 0, [⟨100, 0, 10, 0⟩, ⟨200, 0, 10, 20⟩], 20, [10, 100], true, [1]⟩
      run Session.step ⟨new, []⟩
        [.init ⟨[100, 200], 20, 1, .ALL,
          ⟨⟨10, 100, 100, 100, by decide, by decide, by decide⟩, 10000, false⟩⟩] = some s
        ∧ s.monitor.update msg = some (.ok res, m')
        ∧ s.monitor.Decides msg := by
    exact ⟨_, _, _, rfl, rfl, by decide⟩
  obtain ⟨s, res, m', hrun, hupdate, hdecides⟩ := hrun
  exact ⟨s, res, m', hrun, hupdate, (inBandContract_iff hrun rfl hupdate).mpr hdecides⟩

theorem not_inBandContract
    : ¬ ∀ (calls : List (Call Int)) (s : Session Int) (msg : Message Int) (res : UpdateResult Int) (m' : SpectrumMonitor Int),
        run Session.step ⟨new, []⟩ calls = some s → msg.inBand = true
          → s.monitor.update msg = some (.ok res, m') →
          InBandContract s.monitor msg res := by
  intro hall
  have hcontract := hall
    [.init ⟨[100], 20, 1, .ALL, ⟨⟨10, 100, 100, 100, by decide, by decide, by decide⟩, 10000, false⟩⟩] _
    ⟨1000000, 1000000, 0, [⟨100, 0, 10, 0⟩, ⟨500, 0, 10, 20⟩], 20, [10, 100], true, [1]⟩ _ _ rfl rfl rfl
  have hinside := hcontract.decision.mp rfl
  exact absurd hinside (by decide)

end SpectrumMonitor
end Spectrum
end Emane

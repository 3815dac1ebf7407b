import Emane.Lib.Machine
import Emane.Spectrum.Impl.Monitor

/-!
This module contains that the cache of the spectrum monitor does not show.
-/

namespace Emane
namespace Spectrum
namespace SpectrumMonitor

open Recomputing

variable {P : Type u}

theorem cached?_insertCache (m : SpectrumMonitor P) (b f b' f' : Nat) (infos : List (RecorderInfo P))
    : (m.insertCache b f infos).cached? b' f'
        =
      if b' = b ∧ f' = f then some ((m.cached? b f).getD infos) else m.cached? b' f' := by
  unfold cached? insertCache
  simp only [SortedMap.find?_set]
  by_cases hb : b' = b
  . subst hb
    simp only [↓reduceIte, Option.bind_some, SortedMap.find?_insert, true_and]
    cases m.transmitterBandwidthCache.find? b' with
    | none => simp
    | some cache => simp
  . simp [hb]

theorem cached?_findCache (m : SpectrumMonitor P) (b b' f' : Nat)
    : (m.findCache b).cached? b' f' = m.cached? b' f' := by
  unfold cached? findCache
  simp only [SortedMap.find?_insert]
  by_cases hb : b' = b
  . subst hb
    cases m.transmitterBandwidthCache.find? b' with
    | none => simp
    | some cache => simp
  . simp [hb]

variable [Double P]

def CacheValid (m : SpectrumMonitor P) : Prop :=
  ∀ segmentBandwidthHz frequencyHz infos,
    m.cached? segmentBandwidthHz frequencyHz = some infos
      → infos = m.recorderInfo segmentBandwidthHz frequencyHz

structure SameRecorders (m m' : SpectrumMonitor P) : Prop where
  noiseRecorderMap : m'.noiseRecorderMap = m.noiseRecorderMap
  receiverBandwidthHz : m'.receiverBandwidthHz = m.receiverBandwidthHz

variable {m m' : SpectrumMonitor P}

theorem SameRecorders.recorderInfo_eq (h : SameRecorders m m') (segmentBandwidthHz frequencyHz : Nat)
    : m'.recorderInfo segmentBandwidthHz frequencyHz = m.recorderInfo segmentBandwidthHz frequencyHz := by
  unfold recorderInfo
  rw [h.noiseRecorderMap, h.receiverBandwidthHz]

theorem CacheValid.of_empty (h : m.transmitterBandwidthCache = .empty) : CacheValid m := by
  intro segmentBandwidthHz frequencyHz infos hcached
  simp [cached?, h] at hcached

theorem CacheValid.of_same (h : CacheValid m) (hsame : SameRecorders m m')
    (hcache : m'.transmitterBandwidthCache = m.transmitterBandwidthCache)
    : CacheValid m' := by
  intro segmentBandwidthHz frequencyHz infos hcached
  rw [hsame.recorderInfo_eq]
  apply h
  unfold cached? at hcached ⊢
  rw [hcache] at hcached
  exact hcached

theorem CacheValid.insertCache (h : CacheValid m) (b f : Nat)
    : CacheValid (m.insertCache b f (m.recorderInfo b f)) := by
  intro b' f' infos hcached
  rw [cached?_insertCache] at hcached
  change infos = m.recorderInfo b' f'
  split at hcached
  . next heq =>
    obtain ⟨rfl, rfl⟩ := heq
    cases hcached
    cases hold : m.cached? b' f' with
    | none => rfl
    | some infos => exact h b' f' infos hold
  . exact h b' f' infos hcached

theorem recordWith_eq {infos : List (RecorderInfo P)} {msg : Message P} {txTime : TimePoint}
    {propagation : Microseconds} {segment : FrequencySegment P} {power : P} {r : Report P}
    {res : Except Raised (Report P)}
    (h : recordWith infos m msg txTime propagation segment power r = some (res, m'))
    : m' = { m with heap := m'.heap } := by
  unfold recordWith at h
  split at h
  . cases h
    rfl
  . obtain ⟨⟨heap, visited⟩, -, h⟩ := Option.bind_eq_some_iff.mp h
    cases visited with
    | none =>
      cases h
      rfl
    | some marks =>
      cases h
      rfl

def forgetTurn (t : Turn P) : Turn P :=
  (t.1, forget t.2)

theorem recordWith_forget (infos : List (RecorderInfo P)) (m : SpectrumMonitor P) (msg : Message P)
    (txTime : TimePoint)
    (propagation : Microseconds) (segment : FrequencySegment P) (power : P) (r : Report P)
    : (recordWith infos m msg txTime propagation segment power r).map forgetTurn
        =
      recordWith infos (forget m) msg txTime propagation segment power r := by
  have hvalid : (forget m).validSegment segment = m.validSegment segment := rfl
  unfold recordWith
  rw [hvalid]
  cases m.validSegment segment with
  | error what => rfl
  | ok res =>
    obtain ⟨duration, offset⟩ := res
    have hupdate : ∀ u, (forget m).updateRecorders u segment.frequencyHz infos
        = m.updateRecorders u segment.frequencyHz infos :=
      fun _ => rfl
    simp only [Option.bind_eq_bind, Option.pure_def, hupdate]
    cases m.updateRecorders (reception msg txTime propagation duration offset power)
        segment.frequencyHz infos with
    | none => rfl
    | some visit =>
      obtain ⟨heap, visited⟩ := visit
      cases visited with
      | none => rfl
      | some marks => rfl

theorem recordSegment_forget (h : CacheValid m) (msg : Message P) (txTime : TimePoint)
    (propagation : Microseconds) (segment : FrequencySegment P) (power : P) (r : Report P)
    : (recordSegment msg txTime propagation m segment power r).map forgetTurn
        =
      Recomputing.recordSegment msg txTime propagation (forget m) segment power r := by
  have hinfo : (forget m).recorderInfo msg.segmentBandwidthHz segment.frequencyHz
      = m.recorderInfo msg.segmentBandwidthHz segment.frequencyHz := rfl
  unfold recordSegment Recomputing.recordSegment
  rw [hinfo, ← recordWith_forget]
  cases hcached : m.cached? msg.segmentBandwidthHz segment.frequencyHz with
  | some infos =>
    rw [← h _ _ _ hcached]
  | none =>
    simp only [Option.bind_eq_bind]
    cases recordWith (m.recorderInfo msg.segmentBandwidthHz segment.frequencyHz) m msg txTime
        propagation segment power r with
    | none => rfl
    | some t =>
      obtain ⟨res, m'⟩ := t
      cases res with
      | error what => rfl
      | ok r' => rfl

theorem CacheValid.recordSegment (h : CacheValid m) {msg : Message P} {txTime : TimePoint}
    {propagation : Microseconds} {segment : FrequencySegment P} {power : P} {r : Report P}
    {res : Except Raised (Report P)}
    (heq : recordSegment msg txTime propagation m segment power r = some (res, m'))
    : CacheValid m' := by
  have hwith : ∀ {infos : List (RecorderInfo P)} {res : Except Raised (Report P)} {m' : SpectrumMonitor P},
      recordWith infos m msg txTime propagation segment power r = some (res, m') →
        CacheValid m' ∧ SameRecorders m m' := by
    intro infos res m' hrec
    have hm := recordWith_eq hrec
    have hsame : SameRecorders m m' := ⟨by rw [hm], by rw [hm]⟩
    exact ⟨h.of_same hsame (by rw [hm]), hsame⟩
  unfold SpectrumMonitor.recordSegment at heq
  cases hcached : m.cached? msg.segmentBandwidthHz segment.frequencyHz with
  | some infos =>
    simp only [hcached] at heq
    exact (hwith heq).1
  | none =>
    simp only [hcached, Option.bind_eq_bind, Option.bind_eq_some_iff] at heq
    obtain ⟨⟨res', m''⟩, hrec, heq⟩ := heq
    obtain ⟨hvalid, hsame⟩ := hwith hrec
    cases res' with
    | error what =>
      cases heq
      exact hvalid
    | ok r' =>
      cases heq
      rw [← hsame.recorderInfo_eq]
      exact hvalid.insertCache _ _

omit [Double P] in
theorem forSegments_forget {body body' : SpectrumMonitor P → FrequencySegment P → P → Report P
    → Option (Turn P)}
    {inv : SpectrumMonitor P → Prop}
    (hbody : ∀ m segment power r, inv m
      → (body m segment power r).map forgetTurn = body' (forget m) segment power r)
    (hinv : ∀ m segment power r res m', inv m → body m segment power r = some (res, m') → inv m')
    (h : inv m) (segments : List (FrequencySegment P × P)) (r : Report P)
    : (forSegments body m segments r).map forgetTurn = forSegments body' (forget m) segments r
        ∧ ∀ res m', forSegments body m segments r = some (res, m') → inv m' := by
  induction segments generalizing m r with
  | nil =>
    refine ⟨rfl, ?_⟩
    intro res m' heq
    cases heq
    exact h
  | cons x segments ih =>
    obtain ⟨segment, power⟩ := x
    unfold forSegments
    rw [← hbody m segment power r h]
    cases hturn : body m segment power r with
    | none =>
      refine ⟨rfl, ?_⟩
      intro res m' heq
      cases heq
    | some t =>
      obtain ⟨res, m'⟩ := t
      have h' := hinv _ _ _ _ _ _ h hturn
      cases res with
      | error what =>
        refine ⟨rfl, ?_⟩
        intro res m'' heq
        cases heq
        exact h'
      | ok r' => exact ih h' r'

theorem checkSegments_forget (m : SpectrumMonitor P) (msg : Message P) (txTime : TimePoint)
    (propagation : Microseconds)
    : (forget m).checkSegments msg txTime propagation = m.checkSegments msg txTime propagation := by
  funext segments i r
  induction segments generalizing i r with
  | nil => rfl
  | cons segment segments ih =>
    unfold checkSegments
    simp only [ih]
    rfl

theorem noise_forget (h : CacheValid m) (msg : Message P) (txTime : TimePoint)
    (propagation : Microseconds)
    : (m.noise msg txTime propagation).map forgetTurn = Recomputing.noise
        (forget m) msg txTime propagation
        ∧ ∀ res m', m.noise msg txTime propagation = some (res, m') → CacheValid m' := by
  have hfind : CacheValid (m.findCache msg.segmentBandwidthHz) := by
    intro b f infos hcached
    rw [cached?_findCache] at hcached
    exact h b f infos hcached
  exact forSegments_forget
    (fun _ segment power r h => recordSegment_forget h msg txTime propagation segment power r)
    (fun _ _ _ _ _ _ h heq => h.recordSegment heq) hfind _ _

theorem update_forget (h : CacheValid m) (msg : Message P)
    : (m.update msg).map (fun t => (t.1, forget t.2)) = Recomputing.update (forget m) msg
        ∧ ∀ res m', m.update msg = some (res, m') → CacheValid m' := by
  have hpropagation : (forget m).validPropagation msg = m.validPropagation msg := rfl
  unfold update Recomputing.update updateWith
  rw [hpropagation]
  split
  . refine ⟨rfl, ?_⟩
    intro res m' heq
    cases heq
    exact h
  . cases m.validPropagation msg with
    | error what =>
      refine ⟨rfl, ?_⟩
      intro res m' heq
      cases heq
      exact h
    | ok propagation =>
      have hquiet : (forget m).isQuiet msg = m.isQuiet msg := rfl
      have htime : (forget m).validTxTime msg = m.validTxTime msg := rfl
      obtain ⟨hnoise, hvalid⟩ := noise_forget h msg (m.validTxTime msg) propagation
      simp only [process, hquiet, htime, ← hnoise]
      cases m.isQuiet msg with
      | true =>
        have hcheck : (forget m).checkSegments msg (m.validTxTime msg) propagation
            = m.checkSegments msg (m.validTxTime msg) propagation := checkSegments_forget m msg _ _
        simp only [↓reduceIte, hcheck, Option.map_map]
        refine ⟨rfl, ?_⟩
        intro res m' heq
        obtain ⟨res', -, hpair⟩ := Option.map_eq_some_iff.mp heq
        cases hpair
        exact h
      | false =>
        simp only [Bool.false_eq_true, ↓reduceIte, Option.map_map]
        refine ⟨rfl, ?_⟩
        intro res m' heq
        obtain ⟨t, hturn, hpair⟩ := Option.map_eq_some_iff.mp heq
        cases hpair
        exact hvalid t.1 t.2 hturn

theorem transmitterBandwidthCache_init (m : SpectrumMonitor P) (args : Initialization P)
    : (m.init args).transmitterBandwidthCache = .empty := by
  have hfold : ∀ (foi : List Nat) (m : SpectrumMonitor P), m.transmitterBandwidthCache = .empty →
      (foi.foldl
        (fun m frequency =>
          { m with
            noiseRecorderMap := m.noiseRecorderMap.insert frequency m.heap.next
            heap := m.heap.alloc (.init args.cfg.toNoiseRecorderConfig) })
        m).transmitterBandwidthCache = .empty := by
    intro foi
    induction foi with
    | nil => exact fun _ h => h
    | cons f foi ih =>
      intro m h
      exact ih _ h
  exact hfold args.foi _ rfl

theorem init_forget (m : SpectrumMonitor P) (args : Initialization P)
    : forget (m.init args) = (forget m).init args := by
  have hsame : (forget m).init args = m.init args := rfl
  rw [hsame]
  unfold forget
  rw [← transmitterBandwidthCache_init m args]

variable {s : Session P}

theorem step_forget (h : CacheValid s.monitor) (call : Call P)
    : (s.step call).map forgetSession = Recomputing.step (forgetSession s) call := by
  cases call with
  | init args =>
    change some (forgetSession ⟨s.monitor.init args, s.answers ++ [.initialized]⟩)
      = some ⟨(forget s.monitor).init args, s.answers ++ [.initialized]⟩
    rw [← init_forget]
    rfl
  | update msg =>
    have hupdate := (update_forget h msg).1
    change ((s.monitor.update msg).map _).map _ = (Recomputing.update (forget s.monitor) msg).map _
    rw [← hupdate, Option.map_map, Option.map_map]
    rfl
  | request now frequencyHz duration timepoint =>
    change ((s.monitor.request now frequencyHz duration timepoint).map _).map _
      = (s.monitor.request now frequencyHz duration timepoint).map _
    rw [Option.map_map]
    rfl

theorem CacheValid.step {s' : Session P} {call : Call P} (h : CacheValid s.monitor)
    (heq : s.step call = some s')
    : CacheValid s'.monitor := by
  cases call with
  | init args =>
    cases heq
    exact CacheValid.of_empty (transmitterBandwidthCache_init s.monitor args)
  | update msg =>
    obtain ⟨⟨res, m'⟩, hupdate, rfl⟩ := Option.map_eq_some_iff.mp heq
    exact (update_forget h msg).2 res m' hupdate
  | request now frequencyHz duration timepoint =>
    obtain ⟨res, -, rfl⟩ := Option.map_eq_some_iff.mp heq
    exact h

theorem run_forget {s : Session P} (h : CacheValid s.monitor) (calls : List (Call P))
    : (run Session.step s calls).map forgetSession = run Recomputing.step (forgetSession s) calls := by
  exact run_map (fun _ call h => step_forget h call) (fun _ _ _ h heq => CacheValid.step h heq) h calls

theorem cacheValid_of_run {calls : List (Call P)} (hrun : run Session.step ⟨new, []⟩ calls = some s)
    : CacheValid s.monitor := by
  apply @run_inv _ _ Session.step (fun _ _ => True) (fun s => CacheValid s.monitor) _ ⟨new, []⟩ calls s
    (CacheValid.of_empty rfl) (guarded_of_forall (fun _ _ => trivial)) hrun
  intro s call s' h _ heq
  exact h.step heq

def Live (m : SpectrumMonitor P) : Prop :=
  ∀ frequencyHz address, m.noiseRecorderMap.find? frequencyHz = some address
    → (m.heap.read address).isSome

def Keeps (heap heap' : Heap (NoiseRecorder P)) : Prop :=
  ∀ address, (heap.read address).isSome → (heap'.read address).isSome

omit [Double P] in
theorem keeps_write (heap : Heap (NoiseRecorder P)) (address : Nat) (r : NoiseRecorder P)
    : Keeps heap (heap.write address r) := by
  intro address' hlive
  rw [Heap.read_write]
  split
  . rfl
  . exact hlive

theorem updateRecorder_defined {sensitivity : P} {u : Reception P} {f : Nat} {s : Visit P}
    {info : RecorderInfo P}
    (hlive : (s.1.read info.recorder).isSome)
    : ∃ s', updateRecorder sensitivity u f s info = some s' ∧ Keeps s.1 s'.1 := by
  obtain ⟨heap, visited⟩ := s
  cases visited with
  | none => exact ⟨_, rfl, fun _ h => h⟩
  | some marks =>
    obtain ⟨recorder, hread⟩ := Option.isSome_iff_exists.mp hlive
    unfold updateRecorder recordPower
    simp only [hread, Option.bind_eq_bind, Option.bind_some]
    split
    . split
      . split
        . exact ⟨_, rfl, keeps_write _ _ _⟩
        . exact ⟨_, rfl, keeps_write _ _ _⟩
      . exact ⟨_, rfl, fun _ h => h⟩
    . exact ⟨_, rfl, fun _ h => h⟩

theorem foldlM_updateRecorder_defined {sensitivity : P} {u : Reception P} {f : Nat} {s : Visit P}
    {infos : List (RecorderInfo P)} (hlive : ∀ info ∈ infos, (s.1.read info.recorder).isSome)
    : ∃ s', infos.foldlM (updateRecorder sensitivity u f) s = some s' ∧ Keeps s.1 s'.1 := by
  induction infos generalizing s with
  | nil => exact ⟨s, rfl, fun _ h => h⟩
  | cons info infos ih =>
    obtain ⟨hfirst, hrest⟩ := List.forall_mem_cons.mp hlive
    obtain ⟨s₁, hone, hkeeps⟩ := @updateRecorder_defined _ _ sensitivity u f s info hfirst
    obtain ⟨s', hall, hkeeps'⟩ := ih (fun info hinfo => hkeeps _ (hrest info hinfo))
    refine ⟨s', ?_, fun address h => hkeeps' address (hkeeps address h)⟩
    rw [List.foldlM_cons, hone]
    exact hall

def Goes (t : Option (Turn P)) : Prop :=
  ∃ res m, t = some (res, m) ∧ Live m

theorem recordSegment_goes (h : Live m) (msg : Message P) (txTime : TimePoint)
    (propagation : Microseconds)
    (segment : FrequencySegment P) (power : P) (r : Report P)
    : Goes (Recomputing.recordSegment msg txTime propagation m segment power r) := by
  unfold Recomputing.recordSegment recordWith
  cases m.validSegment segment with
  | error what => exact ⟨_, m, rfl, h⟩
  | ok times =>
    have hlive : ∀ info ∈ m.recorderInfo msg.segmentBandwidthHz segment.frequencyHz,
        (m.heap.read info.recorder).isSome := by
      intro info hinfo
      obtain ⟨entry, hentry, rfl⟩ := List.mem_map.mp hinfo
      exact h entry.1 entry.2 ((SortedMap.find?_eq_some_iff _ _ _).mpr hentry)
    obtain ⟨⟨heap, visited⟩, hupdate, hkeeps⟩ :=
      @foldlM_updateRecorder_defined _ _ m.receiverSensitivityMilliWatt
      (reception msg txTime propagation times.1 times.2 power) segment.frequencyHz
        (m.heap, some .none) _ hlive
    have hlive' : Live { m with heap := heap } := fun f address hfind => hkeeps address
      (h f address hfind)
    unfold updateRecorders
    simp only [hupdate, Option.bind_eq_bind, Option.bind_some]
    cases visited with
    | none => exact ⟨_, _, rfl, hlive'⟩
    | some marks => exact ⟨_, _, rfl, hlive'⟩

theorem forSegments_goes (h : Live m) (msg : Message P) (txTime : TimePoint) (propagation : Microseconds)
    (xs : List (FrequencySegment P × P)) (r : Report P)
    : Goes (forSegments (Recomputing.recordSegment msg txTime propagation) m xs r) := by
  induction xs generalizing m r with
  | nil => exact ⟨_, m, rfl, h⟩
  | cons x xs ih =>
    obtain ⟨res, m', hone, h'⟩ := recordSegment_goes h msg txTime propagation x.1 x.2 r
    unfold forSegments
    rw [hone]
    cases res with
    | error e => exact ⟨_, m', rfl, h'⟩
    | ok r' => exact ih h' r'

theorem checkSegments_defined (m : SpectrumMonitor P) (msg : Message P) (txTime : TimePoint)
    (propagation : Microseconds)
    {segments : List (FrequencySegment P)} {i : Nat}
    (hi : i + segments.length ≤ msg.rxPowersMilliWatt.length) (r : Report P)
    : ∃ res, m.checkSegments msg txTime propagation segments i r = some res := by
  induction segments generalizing i r with
  | nil => exact ⟨_, rfl⟩
  | cons segment segments ih =>
    rw [List.length_cons] at hi
    unfold checkSegments
    split
    . rw [List.getElem?_eq_getElem (by omega : i < msg.rxPowersMilliWatt.length)]
      simp only [Option.bind_eq_bind, Option.bind_some]
      split
      . split
        . exact ⟨_, rfl⟩
        . exact ih (by omega) _
      . exact ih (by omega) _
    . exact ih (by omega) _

theorem update_defined (h : Live m) (msg : Message P)
    : ∃ res m', Recomputing.update m msg = some (res, m') ∧ Live m' := by
  unfold Recomputing.update updateWith
  split
  . exact ⟨_, m, rfl, h⟩
  . next hlength =>
    cases m.validPropagation msg with
    | error what => exact ⟨_, m, rfl, h⟩
    | ok propagation =>
      unfold process
      simp only
      split
      . have hi : 0 + msg.segments.length ≤ msg.rxPowersMilliWatt.length := by omega
        obtain ⟨res, hres⟩ := checkSegments_defined m msg (m.validTxTime msg) propagation hi
          ⟨0, TimePoint.max, [], true⟩
        rw [hres]
        exact ⟨_, m, rfl, h⟩
      . obtain ⟨res, m', hnoise, h'⟩ := forSegments_goes h msg (m.validTxTime msg) propagation
          (msg.segments.zip msg.rxPowersMilliWatt) ⟨0, TimePoint.max, [], false⟩
        unfold Recomputing.noise
        rw [hnoise]
        exact ⟨_, m', rfl, h'⟩

theorem request_defined (h : Live m) (now : TimePoint) (frequencyHz : Nat) (duration : Microseconds)
    (timepoint : Option TimePoint)
    : ∃ res, m.request now frequencyHz duration timepoint = some res := by
  unfold request
  split
  . exact ⟨_, rfl⟩
  . split
    . next address hfind =>
      obtain ⟨recorder, hread⟩ := Option.isSome_iff_exists.mp (h _ _ hfind)
      rw [hread]
      exact ⟨_, rfl⟩
    . exact ⟨_, rfl⟩

theorem live_init (m : SpectrumMonitor P) (args : Initialization P) : Live (m.init args) := by
  apply List.foldlRecOn
  . intro f address hfind
    cases hfind
  . intro m h frequency _ f address hfind
    rw [SortedMap.find?_insert] at hfind
    change (Heap.read (m.heap.alloc _) address).isSome
    rw [Heap.read_alloc]
    split
    . rfl
    . next hne =>
      split at hfind
      . next heq =>
        cases hold : m.noiseRecorderMap.find? frequency with
        | none =>
          rw [hold] at hfind
          exact absurd (Option.some.inj hfind).symm hne
        | some other =>
          rw [hold] at hfind
          cases hfind
          exact h frequency other hold
      . exact h f address hfind

theorem step_defined (h : Live s.monitor) (call : Call P)
    : ∃ s', Recomputing.step s call = some s' ∧ Live s'.monitor := by
  unfold Recomputing.step Session.stepWith
  cases call with
  | init args => exact ⟨_, rfl, live_init s.monitor args⟩
  | update msg =>
    obtain ⟨res, m', hupdate, h'⟩ := update_defined h msg
    simp only [hupdate]
    exact ⟨_, rfl, h'⟩
  | request now frequencyHz duration timepoint =>
    obtain ⟨res, hres⟩ := request_defined h now frequencyHz duration timepoint
    simp only [hres]
    exact ⟨_, rfl, h⟩

theorem run_defined (calls : List (Call P))
    : ∃ s, run Recomputing.step (⟨new, []⟩ : Session P) calls = some s := by
  have hnew : Live (⟨new, []⟩ : Session P).monitor := by
    intro f address hfind
    cases hfind
  have hstep : ∀ (s : Session P) (call : Call P), Live s.monitor → True →
      ∃ s', Recomputing.step s call = some s' ∧ Live s'.monitor := fun _ call h _ => step_defined h call
  obtain ⟨s, hrun, -⟩ := run_total hstep hnew (guarded_of_forall (fun _ _ => trivial))
  exact ⟨s, hrun⟩

def Session.view (s : Session P) : List (Answer P) × (Nat → Option (NoiseRecorder P)) :=
  (s.answers, s.monitor.recorder?)

/--
The cache is transparent: every sequence of calls to a new monitor, with all the exceptions in it,
shows the same as it does to one that computes the overlaps every time.
-/
theorem overlapCache_transparent (calls : List (Call P))
    : ∃ s s', run Session.step ⟨new, []⟩ calls = some s
        ∧ run Recomputing.step ⟨new, []⟩ calls = some s' ∧ s.view = s'.view := by
  have hnew : CacheValid (new : SpectrumMonitor P) := CacheValid.of_empty rfl
  have hforget := @run_forget P _ ⟨new, []⟩ hnew calls
  have hinit : forgetSession (⟨new, []⟩ : Session P) = ⟨new, []⟩ := rfl
  obtain ⟨s', hs'⟩ := run_defined calls
  rw [hinit, hs', Option.map_eq_some_iff] at hforget
  obtain ⟨s, hs, rfl⟩ := hforget
  exact ⟨s, _, hs, hs', rfl⟩

def Answer.raised? : Answer P → Option Raised
  | .updated (.error e) => some e
  | _ => none

open scoped Double in
example
    : (run Session.step (⟨new, []⟩ : Session Int)
        [
          .init ⟨[100], 20, 1, .ALL, ⟨⟨1, 1, 1, 2, by decide, by decide, by decide⟩, 10, false⟩⟩,
          .update ⟨100000, 100000, 0, [⟨100, 0, 1, 0⟩], 20, [10], true, [1]⟩,
          .update ⟨106000, 106000, 1, [⟨100, 0, 1, 1⟩], 20, [10], true, [2]⟩,
          .update ⟨107000, 107000, 0, [⟨100, 0, 1, 0⟩], 20, [10], true, [3]⟩
        ]).map (fun s => s.answers.map Answer.raised?) = some [none, none, some .indexError, none] := by
  rfl

end SpectrumMonitor
end Spectrum
end Emane

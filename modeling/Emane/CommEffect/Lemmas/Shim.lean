import Mathlib.Tactic.Linarith
import Emane.Lib.Machine
import Emane.CommEffect.Impl.Shim

/-!
This module contains when the packets of a source have been received, which of them are dropped,
and the order in which the others are released.
-/

namespace Emane
namespace CommEffect

def Shim.effect? (shim : Shim) (a : Arrival) : Option Effect :=
  match shim.checkHeader a.packet with
  | .ok _ => a.profileData
  | .error _ => none

def Shim.Exceeded (shim : Shim) (eorTime : Option NNRat) (now : NNRat) : Prop :=
  shim.receiveBufferPeriod ≠ 0 ∧ ∃ t ∈ eorTime, (t : ℚ) - now > shim.receiveBufferPeriod

instance (shim : Shim) (eorTime : Option NNRat) (now : NNRat) : Decidable (shim.Exceeded eorTime now) :=
  inferInstanceAs (Decidable (_ ∧ _))

def Arrival.newEnd (a : Arrival) (effect : Effect) (eorTime : Option NNRat) : NNRat :=
  max a.beginTime (eorTime.getD a.beginTime) + a.rxInterval effect

def Shim.nextEnd (shim : Shim) (eorTime : Option NNRat) (a : Arrival) : Option NNRat :=
  match shim.effect? a with
  | none => eorTime
  | some effect => if shim.Exceeded eorTime a.beginTime then eorTime else some (a.newEnd effect eorTime)

def Shim.endOfReception (shim : Shim) (arrivals : List Arrival) : Option NNRat :=
  arrivals.foldl shim.nextEnd none

def Arrival.source (a : Arrival) : NEMId :=
  a.packet.source

def own (source : NEMId) (arrivals : List Arrival) : List Arrival :=
  arrivals.filter (fun a => a.source = source)

namespace Shim

variable (shim : Shim) (eorTimeMap : EORTimeMap) (a : Arrival)

theorem processUpstreamPacket_of_none (h : shim.effect? a = none)
    : (shim.processUpstreamPacket eorTimeMap a).1 = eorTimeMap
      ∧ (shim.processUpstreamPacket eorTimeMap a).2 ≠ .dropped .rxBuff
      ∧ ShimState.tasks a (shim.processUpstreamPacket eorTimeMap a).2 = [] := by
  unfold effect? at h
  unfold processUpstreamPacket
  cases hcheck : shim.checkHeader a.packet with
  | error code =>
    refine ⟨rfl, ?_, rfl⟩
    simp only [ne_eq, Outcome.dropped.injEq]
    rintro rfl
    unfold checkHeader at hcheck
    split at hcheck
    . cases hcheck
    . split at hcheck
      . cases hcheck
      . split at hcheck
        . cases hcheck
        . split at hcheck
          . cases hcheck
          . cases hcheck
  | ok header =>
    rw [hcheck] at h
    simp only [h]
    cases shim.bDefaultConnectivity with
    | true => exact ⟨trivial, Outcome.noConfusion, rfl⟩
    | false =>
      refine ⟨trivial, ?_, rfl⟩
      decide

theorem processUpstreamPacket_of_some {effect : Effect} (h : shim.effect? a = some effect)
    : ∃ header, shim.processUpstreamPacket eorTimeMap a
        = shim.applyEffect eorTimeMap a effect header := by
  unfold effect? at h
  unfold processUpstreamPacket
  cases hcheck : shim.checkHeader a.packet with
  | error code =>
    rw [hcheck] at h
    cases h
  | ok header =>
    rw [hcheck] at h
    simp only [h]
    exact ⟨header, rfl⟩

theorem newEnd_eq (eorTime : Option NNRat) (effect : Effect)
    : (if eorTime.getD 0 > a.beginTime then eorTime.getD 0 + a.rxInterval effect else a.beginTime
        + a.rxInterval effect)
        =
      a.newEnd effect eorTime := by
  unfold Arrival.newEnd
  cases eorTime with
  | none =>
    rw [Option.getD_none, Option.getD_none, max_self, if_neg (not_lt.mpr zero_le)]
  | some t =>
    rw [Option.getD_some, Option.getD_some]
    split
    . next hlater => rw [max_eq_right hlater.le]
    . next hearlier => rw [max_eq_left (not_lt.mp hearlier)]

theorem applyEffect_of_exceeded (effect : Effect) (header : ShimHeader)
    (h : shim.Exceeded (eorTimeMap.find? a.source) a.beginTime)
    : shim.applyEffect eorTimeMap a effect header = (eorTimeMap, .dropped .rxBuff) := by
  exact if_pos h

theorem applyEffect_of_not_exceeded (effect : Effect) (header : ShimHeader)
    (h : ¬shim.Exceeded (eorTimeMap.find? a.source) a.beginTime)
    : shim.applyEffect eorTimeMap a effect header
        =
      (eorTimeMap.set a.source (a.newEnd effect (eorTimeMap.find? a.source)),
        if (shim.timeouts a effect header (a.newEnd effect (eorTimeMap.find? a.source))).isEmpty then
          .dropped .discard
        else
          .scheduled (shim.timeouts a effect header (a.newEnd effect (eorTimeMap.find? a.source)))) := by
  rw [← newEnd_eq a (eorTimeMap.find? a.source) effect]
  exact if_neg h

theorem find?_processUpstreamPacket (source : NEMId)
    : (shim.processUpstreamPacket eorTimeMap a).1.find? source
        =
      if source = a.source then shim.nextEnd (eorTimeMap.find? source) a else eorTimeMap.find?
          source := by
  unfold nextEnd
  cases heffect : shim.effect? a with
  | none =>
    rw [(shim.processUpstreamPacket_of_none eorTimeMap a heffect).1]
    simp
  | some effect =>
    obtain ⟨header, heq⟩ := shim.processUpstreamPacket_of_some eorTimeMap a heffect
    rw [heq]
    simp only
    by_cases hexceeded : shim.Exceeded (eorTimeMap.find? a.source) a.beginTime
    . rw [shim.applyEffect_of_exceeded eorTimeMap a effect header hexceeded]
      split
      . next hsource =>
        rw [hsource, if_pos hexceeded]
      . rfl
    . rw [shim.applyEffect_of_not_exceeded eorTimeMap a effect header hexceeded, SortedMap.find?_set]
      split
      . next hsource =>
        rw [hsource, if_neg hexceeded]
      . rfl

theorem outcome_eq_rxBuff_iff
    : (shim.processUpstreamPacket eorTimeMap a).2 = .dropped .rxBuff
        ↔
      (shim.effect? a).isSome ∧ shim.Exceeded (eorTimeMap.find? a.source) a.beginTime := by
  cases heffect : shim.effect? a with
  | none => exact iff_of_false (shim.processUpstreamPacket_of_none eorTimeMap a heffect).2.1 (by simp)
  | some effect =>
    obtain ⟨header, heq⟩ := shim.processUpstreamPacket_of_some eorTimeMap a heffect
    rw [heq]
    by_cases hexceeded : shim.Exceeded (eorTimeMap.find? a.source) a.beginTime
    . rw [shim.applyEffect_of_exceeded eorTimeMap a effect header hexceeded]
      exact iff_of_true rfl ⟨rfl, hexceeded⟩
    . rw [shim.applyEffect_of_not_exceeded eorTimeMap a effect header hexceeded]
      refine iff_of_false ?_ (fun h => hexceeded h.2)
      simp only
      split
      . decide
      . exact Outcome.noConfusion

end Shim
namespace ShimState

section

variable {pending : List Task} {task other : Task} {p : Task → Bool}

abbrev Sorted (pending : List Task) : Prop :=
  pending.Pairwise (fun t t' => t.timeout ≤ t'.timeout)

theorem mem_schedule_iff : other ∈ schedule pending task ↔ other = task ∨ other ∈ pending := by
  unfold schedule
  rw [List.mem_append, List.mem_cons, or_left_comm, ← List.mem_append, List.takeWhile_append_dropWhile]

theorem lt_of_mem_dropWhile (hsorted : Sorted pending)
    (h : other ∈ pending.dropWhile (fun t => decide (t.timeout ≤ task.timeout)))
    : task.timeout < other.timeout := by
  induction pending with
  | nil => cases h
  | cons t pending ih =>
    rw [Sorted, List.pairwise_cons] at hsorted
    rw [List.dropWhile_cons] at h
    split at h
    . exact ih hsorted.2 h
    . next hlater =>
      have hlt : task.timeout < t.timeout := by simpa using hlater
      rcases List.mem_cons.mp h with rfl | hmem
      . exact hlt
      . exact lt_of_lt_of_le hlt (hsorted.1 other hmem)

theorem schedule_sorted (hsorted : Sorted pending) : Sorted (schedule pending task) := by
  have hparts := hsorted
  rw [Sorted, ← List.takeWhile_append_dropWhile (p := fun t => decide (t.timeout ≤ task.timeout))
    (l := pending),
    List.pairwise_append] at hparts
  have hearlier : ∀ t ∈ pending.takeWhile (fun t => decide (t.timeout ≤ task.timeout)),
      t.timeout ≤ task.timeout := by
    intro t ht
    simpa using List.mem_takeWhile_imp ht
  unfold schedule
  rw [Sorted, List.pairwise_append, List.pairwise_cons]
  refine ⟨hparts.1, ⟨fun t ht => (lt_of_mem_dropWhile hsorted ht).le, hparts.2.1⟩, ?_⟩
  intro t ht t' ht'
  rcases List.mem_cons.mp ht' with rfl | hmem
  . exact hearlier t ht
  . exact hparts.2.2 t ht t' hmem

theorem filter_schedule_of_not (h : p task = false)
    : (schedule pending task).filter p = pending.filter p := by
  unfold schedule
  rw [List.filter_append, List.filter_cons_of_neg (by simp [h]), ← List.filter_append,
    List.takeWhile_append_dropWhile]

theorem filter_schedule (hsorted : Sorted pending) (h : p task = true)
    (hearlier : ∀ t ∈ pending, p t = true → t.timeout ≤ task.timeout)
    : (schedule pending task).filter p = pending.filter p ++ [task] := by
  have hlater : (pending.dropWhile (fun t => decide (t.timeout ≤ task.timeout))).filter p = [] := by
    rw [List.filter_eq_nil_iff]
    intro t ht hp
    exact absurd (hearlier t (List.dropWhile_subset _ ht) hp)
      (not_le.mpr (lt_of_mem_dropWhile hsorted ht))
  have hsplit := congrArg (List.filter p)
    (List.takeWhile_append_dropWhile (p := fun t => decide (t.timeout ≤ task.timeout)) (l := pending))
  rw [List.filter_append, hlater, List.append_nil] at hsplit
  unfold schedule
  rw [List.filter_append, List.filter_cons_of_pos h, hlater, hsplit]

theorem foldl_schedule_sorted {tasks : List Task} (hsorted : Sorted pending)
    : Sorted (tasks.foldl schedule pending) := by
  induction tasks generalizing pending with
  | nil => exact hsorted
  | cons t tasks ih => exact ih (schedule_sorted hsorted)

theorem mem_foldl_schedule {tasks : List Task} (h : other ∈ tasks.foldl schedule pending)
    : other ∈ tasks ∨ other ∈ pending := by
  induction tasks generalizing pending with
  | nil => exact .inr h
  | cons t tasks ih =>
    rcases ih h with hmem | hmem
    . exact .inl (List.mem_cons_of_mem t hmem)
    . rcases mem_schedule_iff.mp hmem with rfl | hmem
      . exact .inl List.mem_cons_self
      . exact .inr hmem

theorem filter_foldl_schedule {tasks : List Task} {time : ℚ} (hsorted : Sorted pending)
    (htasks : ∀ t ∈ tasks, p t = true → t.timeout = time)
    (hearlier : ∀ t ∈ pending, p t = true → t.timeout ≤ time)
    : (tasks.foldl schedule pending).filter p = pending.filter p ++ tasks.filter p := by
  induction tasks generalizing pending with
  | nil => simp
  | cons t tasks ih =>
    rw [List.forall_mem_cons] at htasks
    rw [List.foldl_cons, ih (schedule_sorted hsorted) htasks.2]
    . cases hp : p t with
      | false => rw [filter_schedule_of_not hp, List.filter_cons_of_neg (by simp [hp])]
      | true =>
        have htime := htasks.1 hp
        rw [filter_schedule hsorted hp (fun t' ht' hp' => htime ▸ hearlier t' ht' hp'),
          List.filter_cons_of_pos hp, List.append_assoc]
        rfl
    . intro t' ht' hp'
      rcases mem_schedule_iff.mp ht' with rfl | hmem
      . exact (htasks.1 hp').le
      . exact hearlier t' hmem hp'

end

section

variable (shim : Shim) (s : ShimState)

theorem step_receive (a : Arrival)
    : step shim s (.receive a)
        =
      some {
        eorTimeMap := (shim.processUpstreamPacket s.eorTimeMap a).1
        log := s.log ++ [(a, (shim.processUpstreamPacket s.eorTimeMap a).2)]
        pending := (tasks a (shim.processUpstreamPacket s.eorTimeMap a).2).foldl schedule s.pending
        released := s.released
      } := by
  rfl

theorem step_expire_cases {now : ℚ} {s' : ShimState} (h : step shim s (.expire now) = some s')
    : ∃ task pending, s.pending = task :: pending ∧ task.timeout ≤ now
        ∧ s' = { s with pending := pending, released := s.released ++ [task] } := by
  unfold step at h
  split at h
  . next a heq => cases heq
  . next heq =>
    obtain rfl := Action.expire.inj heq
    split at h
    . cases h
    . next task pending hpending =>
      split at h
      . next hdue => exact ⟨task, pending, hpending, hdue, (Option.some.inj h).symm⟩
      . cases h

def received (actions : List Action) : List Arrival :=
  actions.filterMap (fun action =>
    match action with
    | .receive a => some a
    | .expire _ => none)

end

structure Explained (shim : Shim) (s : ShimState) : Prop where
  ends : ∀ source, s.eorTimeMap.find? source = shim.endOfReception (own source (s.log.map Prod.fst))
  drops : ∀ before a outcome after, s.log = before ++ (a, outcome) :: after →
    (outcome = .dropped .rxBuff
        ↔
      (shim.effect? a).isSome
        ∧ shim.Exceeded (shim.endOfReception (own a.source (before.map Prod.fst))) a.beginTime)

theorem init_explained (shim : Shim) : init.Explained shim where
  ends := fun _ => rfl
  drops := fun before a outcome after h => absurd h.symm (by simp [init])

theorem endOfReception_append (shim : Shim) (source : NEMId) (before : List Arrival) (a : Arrival)
    : shim.endOfReception (own source (before ++ [a]))
        =
      if source = a.source then shim.nextEnd (shim.endOfReception (own source before)) a
          else shim.endOfReception (own source before) := by
  unfold own Shim.endOfReception
  rw [List.filter_append]
  split
  . next hsource =>
    rw [List.filter_cons_of_pos (by simp [hsource]), List.filter_nil, List.foldl_append]
    rfl
  . next hsource =>
    rw [List.filter_cons_of_neg (by simpa using fun heq => hsource heq.symm), List.filter_nil,
      List.append_nil]

variable {shim : Shim} {s s' : ShimState} {action : Action}

theorem Explained.step (h : s.Explained shim)
    (hstep : s.step shim action = some s')
    : s'.Explained shim := by
  cases action with
  | expire now =>
    obtain ⟨task, pending, -, -, rfl⟩ := step_expire_cases shim s hstep
    exact ⟨h.ends, h.drops⟩
  | receive a =>
    rw [step_receive] at hstep
    cases hstep
    constructor
    . intro source
      simp only [List.map_append, List.map_cons, List.map_nil]
      rw [shim.find?_processUpstreamPacket, endOfReception_append, h.ends source]
    . intro before a' outcome after heq
      rcases List.eq_nil_or_concat after with rfl | ⟨after', last, rfl⟩
      . obtain ⟨rfl, hlast⟩ := List.append_inj' heq rfl
        obtain ⟨rfl, rfl⟩ := Prod.mk.inj (List.cons.inj hlast).1
        rw [shim.outcome_eq_rxBuff_iff, h.ends]
      . refine h.drops before a' outcome after' ?_
        rw [List.concat_eq_append, ← List.cons_append, ← List.append_assoc] at heq
        exact (List.append_inj' heq rfl).1

def Steady (shim : Shim) (source : NEMId) (latency : ℚ) (a : Arrival) : Prop :=
  a.source = source → ∀ effect ∈ shim.effect? a, effect.latency = latency ∧ effect.jitter = 0

def scheduledFor (source : NEMId) (log : List (Arrival × Outcome)) : List Task :=
  (log.flatMap (fun entry => tasks entry.1 entry.2)).filter (fun t => t.arrival.source = source)

structure Ordered (source : NEMId) (latency : ℚ) (s : ShimState) : Prop where
  sorted : Sorted s.pending
  bound : ∀ t ∈ s.pending, t.arrival.source = source
    → ∃ eorTime, s.eorTimeMap.find? source = some eorTime ∧ t.timeout ≤ latency + eorTime
  sequence : (s.released ++ s.pending).filter (fun t => t.arrival.source = source)
    = scheduledFor source s.log

theorem init_ordered (source : NEMId) (latency : ℚ) : init.Ordered source latency where
  sorted := List.Pairwise.nil
  bound := fun _ ht => absurd ht List.not_mem_nil
  sequence := rfl

variable {a : Arrival}

theorem arrival_of_mem_tasks {outcome : Outcome} {t : Task} (h : t ∈ tasks a outcome)
    : t.arrival = a := by
  cases outcome with
  | scheduled timeouts =>
    obtain ⟨timeout, -, rfl⟩ := List.mem_map.mp h
    rfl
  | dropped code => cases h
  | sent => cases h

theorem timeout_of_mem_timeouts {effect : Effect} {header : ShimHeader} {eorTime : NNRat} {timeout : ℚ}
    (htight : shim.bEnableTightTimingMode = false) (hjitter : effect.jitter = 0)
    (h : timeout ∈ shim.timeouts a effect header eorTime)
    : timeout = effect.latency + eorTime := by
  obtain ⟨n, -, rfl⟩ := List.mem_map.mp h
  simp [htight, hjitter, randomize]

variable {source : NEMId} {latency : ℚ}

theorem tasks_of_steady (eorTimeMap : EORTimeMap)
    (htight : shim.bEnableTightTimingMode = false) (hsteady : Steady shim source latency a)
    (hsource : a.source = source)
    : (tasks a (shim.processUpstreamPacket eorTimeMap a).2 = []
        ∧ (shim.processUpstreamPacket eorTimeMap a).1 = eorTimeMap)
        ∨ ∃ eorTime : NNRat,
          (∀ t ∈ tasks a (shim.processUpstreamPacket eorTimeMap a).2, t.timeout = latency + eorTime)
        ∧ (shim.processUpstreamPacket eorTimeMap a).1.find? source = some eorTime
        ∧ ∀ t ∈ eorTimeMap.find? source, t ≤ eorTime := by
  cases heffect : shim.effect? a with
  | none =>
    obtain ⟨hmap, -, htasks⟩ := shim.processUpstreamPacket_of_none eorTimeMap a heffect
    exact .inl ⟨htasks, hmap⟩
  | some effect =>
    obtain ⟨hlatency, hjitter⟩ := hsteady hsource effect heffect
    obtain ⟨header, heq⟩ := shim.processUpstreamPacket_of_some eorTimeMap a heffect
    rw [heq]
    by_cases hexceeded : shim.Exceeded (eorTimeMap.find? a.source) a.beginTime
    . rw [shim.applyEffect_of_exceeded eorTimeMap a effect header hexceeded]
      exact .inl ⟨rfl, rfl⟩
    . rw [shim.applyEffect_of_not_exceeded eorTimeMap a effect header hexceeded, ← hsource]
      refine .inr ⟨a.newEnd effect (eorTimeMap.find? a.source), ?_, ?_, ?_⟩
      . intro t ht
        split at ht
        . cases ht
        . obtain ⟨timeout, htimeout, rfl⟩ := List.mem_map.mp ht
          rw [← hlatency]
          exact timeout_of_mem_timeouts htight hjitter htimeout
      . rw [SortedMap.find?_set, if_pos rfl]
      . intro t ht
        rw [ht]
        exact le_trans (le_max_right a.beginTime t) (le_add_of_nonneg_right zero_le)

theorem Ordered.receive (h : s.Ordered source latency)
    (htight : shim.bEnableTightTimingMode = false) (hsteady : Steady shim source latency a)
    : Ordered source latency {
        eorTimeMap := (shim.processUpstreamPacket s.eorTimeMap a).1
        log := s.log ++ [(a, (shim.processUpstreamPacket s.eorTimeMap a).2)]
        pending := (tasks a (shim.processUpstreamPacket s.eorTimeMap a).2).foldl schedule s.pending
        released := s.released
      } := by
  have hnew : ∃ time, (∀ t ∈ tasks a (shim.processUpstreamPacket s.eorTimeMap a).2,
    t.arrival.source = source → t.timeout = time)
      ∧ (∀ t ∈ s.pending, t.arrival.source = source → t.timeout ≤ time)
      ∧ ∀ t, (t ∈ tasks a (shim.processUpstreamPacket s.eorTimeMap a).2 ∨ t ∈ s.pending)
        → t.arrival.source = source →
          ∃ eorTime, (shim.processUpstreamPacket s.eorTimeMap a).1.find? source = some eorTime
              ∧ t.timeout ≤ latency + eorTime := by
    -- the tasks that are already there, if the time of the source stays as it is
    have hold : ∀ t ∈ s.pending, t.arrival.source = source
        → t.timeout ≤ latency + ((s.eorTimeMap.find? source).getD 0 : NNRat) := by
      intro t ht hsource
      obtain ⟨eorTime, hfind, hle⟩ := h.bound t ht hsource
      rw [hfind]
      exact hle
    by_cases hsource : a.source = source
    . rcases tasks_of_steady s.eorTimeMap htight hsteady hsource with ⟨htasks, hmap⟩ | ⟨eorTime,
        htasks, hfind, hle⟩
      . rw [htasks, hmap]
        refine ⟨_, fun t ht => absurd ht List.not_mem_nil, hold, ?_⟩
        rintro t (ht | ht)
        . exact absurd ht List.not_mem_nil
        . exact h.bound t ht
      . have hpending : ∀ t ∈ s.pending, t.arrival.source = source → t.timeout ≤ latency + eorTime := by
          intro t ht hown
          obtain ⟨previous, hprevious, hbound⟩ := h.bound t ht hown
          have hcast : (previous : ℚ) ≤ eorTime := NNRat.coe_le_coe.mpr (hle previous hprevious)
          linarith
        refine ⟨latency + eorTime, fun t ht _ => htasks t ht, hpending, ?_⟩
        rintro t (ht | ht) hown
        . exact ⟨eorTime, hfind, (htasks t ht).le⟩
        . exact ⟨eorTime, hfind, hpending t ht hown⟩
    . have hother : ∀ t ∈ tasks a (shim.processUpstreamPacket s.eorTimeMap a).2,
          t.arrival.source ≠ source := by
        intro t ht
        rw [arrival_of_mem_tasks ht]
        exact hsource
      rw [shim.find?_processUpstreamPacket, if_neg (Ne.symm hsource)]
      refine ⟨_, fun t ht hown => absurd hown (hother t ht), hold, ?_⟩
      rintro t (ht | ht) hown
      . exact absurd hown (hother t ht)
      . exact h.bound t ht hown
  obtain ⟨time, htasks, hearlier, hbound⟩ := hnew
  refine ⟨foldl_schedule_sorted h.sorted, ?_, ?_⟩
  . intro t ht hsource
    exact hbound t (mem_foldl_schedule ht) hsource
  . have hfilter := @filter_foldl_schedule s.pending (fun t => decide (t.arrival.source = source))
      (tasks a (shim.processUpstreamPacket s.eorTimeMap a).2) time h.sorted (by simpa using htasks)
        (by simpa using hearlier)
    rw [List.filter_append, hfilter, ← List.append_assoc, ← List.filter_append, h.sequence,
      scheduledFor, scheduledFor, List.flatMap_append, List.filter_append,
      List.flatMap_cons, List.flatMap_nil, List.append_nil]

theorem Ordered.step (h : s.Ordered source latency)
    (htight : shim.bEnableTightTimingMode = false)
    (hsteady : ∀ a, action = .receive a → Steady shim source latency a)
    (hstep : s.step shim action = some s')
    : s'.Ordered source latency := by
  cases action with
  | receive a =>
    cases hstep
    exact h.receive htight (hsteady a rfl)
  | expire now =>
    obtain ⟨task, pending, hpending, -, rfl⟩ := step_expire_cases shim s hstep
    obtain ⟨hsorted, hbound, hsequence⟩ := h
    rw [hpending] at hsorted hbound hsequence
    refine ⟨(List.pairwise_cons.mp hsorted).2, fun t ht => hbound t (List.mem_cons_of_mem task ht), ?_⟩
    rw [← hsequence, List.append_assoc]
    rfl

theorem log_of_step (hstep : s.step shim action = some s')
    : s'.log.map Prod.fst = s.log.map Prod.fst ++ received [action] := by
  cases action with
  | receive a =>
    cases hstep
    exact List.map_append
  | expire now =>
    obtain ⟨task, pending, -, -, rfl⟩ := step_expire_cases shim s hstep
    exact (List.append_nil _).symm

theorem log_of_run {actions : List Action} (hrun : run (ShimState.step shim) s actions = some s')
    : s'.log.map Prod.fst = s.log.map Prod.fst ++ received actions := by
  induction actions generalizing s with
  | nil =>
    cases hrun
    exact (List.append_nil _).symm
  | cons action actions ih =>
    rw [run_cons, Option.bind_eq_some_iff] at hrun
    obtain ⟨s₁, hstep, hrest⟩ := hrun
    rw [ih hrest, log_of_step hstep, List.append_assoc, received, received, ← List.filterMap_append]
    rfl

theorem receiveBuffer_of_run (shim : Shim) (htight : shim.bEnableTightTimingMode = false)
    {actions : List Action} {s : ShimState}
    (hrun : run (ShimState.step shim) init actions = some s)
    : s.log.map Prod.fst = received actions
      ∧ (∀ source, s.eorTimeMap.find? source = shim.endOfReception (own source (received actions)))
      ∧ (∀ before a outcome after, s.log = before ++ (a, outcome) :: after →
          (outcome = .dropped .rxBuff
              ↔
            (shim.effect? a).isSome ∧ shim.Exceeded
              (shim.endOfReception (own a.source (before.map Prod.fst))) a.beginTime))
      ∧ ∀ source latency, (∀ a ∈ received actions, Steady shim source latency a) →
          s.released.filter (fun t => t.arrival.source = source) <+: scheduledFor source s.log := by
  have hlog := log_of_run hrun
  rw [init, List.map_nil, List.nil_append] at hlog
  have hfree : Guarded (ShimState.step shim) (fun _ _ => True) init actions := guarded_of_forall
    (fun _ _ => trivial)
  have hexplained : s.Explained shim := run_inv (fun _ _ _ hinv _ hstep => hinv.step hstep)
    (init_explained shim) hfree hrun
  refine ⟨hlog, hlog ▸ hexplained.ends, hexplained.drops, ?_⟩
  intro source latency hsteady
  have hguarded : Guarded (ShimState.step shim)
      (fun _ action => ∀ a, action = .receive a → Steady shim source latency a) init actions := by
    refine guarded_of_forall (fun action haction a heq => hsteady a ?_)
    exact List.mem_filterMap.mpr ⟨action, haction, by rw [heq]⟩
  have hordered : s.Ordered source latency :=
    run_inv (fun _ _ _ hinv hok hstep => hinv.step htight hok hstep)
      (init_ordered source latency) hguarded hrun
  rw [← hordered.sequence, List.filter_append]
  exact List.prefix_append _ _

def slowEffect : Effect where
  latency := 1
  jitter := 0
  probabilityLoss := 0
  probabilityDuplicate := 0
  unicastBitRate := 8
  broadcastBitRate := 8

def slowPacket (source : NEMId) (beginTime : NNRat) : Arrival where
  packet := ⟨source, NEM_BROADCAST_MAC_ADDRESS, REGISTERED_EMANE_PHY_COMM_EFFECT, some ⟨0, 0⟩, 2⟩
  beginTime := beginTime
  profileData := some slowEffect
  draws := ⟨0, 0, fun _ => 0⟩

def bufferedShim : Shim where
  id := 9
  bDefaultConnectivity := false
  bEnablePromiscuousMode := false
  bEnableTightTimingMode := false
  groupId := 0
  receiveBufferPeriod := 4

def threePackets : List Action :=
  [.receive (slowPacket 1 1), .receive (slowPacket 2 1), .receive (slowPacket 1 2), .expire 6]

theorem receiveBuffer_of_run_threePackets
    : ∃ s, run (ShimState.step bufferedShim) init threePackets = some s
        ∧ s.eorTimeMap.find? 1 = some 5 := by
  have hrun : (run (ShimState.step bufferedShim) init threePackets).isSome := by decide +kernel
  obtain ⟨s, hs⟩ := Option.isSome_iff_exists.mp hrun
  refine ⟨s, hs, ?_⟩
  rw [(receiveBuffer_of_run bufferedShim rfl hs).2.1 1]
  decide +kernel

end ShimState
end CommEffect
end Emane

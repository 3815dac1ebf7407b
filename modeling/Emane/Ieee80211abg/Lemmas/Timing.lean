import Emane.Ieee80211abg.Lemmas.MACLayer

/-!
This module contains when the states of a transmission are left.
-/

namespace Emane
namespace Ieee80211abg

open TxState

def Action.Timely : Action → Prop
  | .process st entry time => st.due entry ≤ time
  | _ => True

namespace MACLayer

/--
The part of the layer that timing is about. A timer with the current sequence number is the one
that the pending entry waits for, and it is the only one.
-/
structure Timely (m : MACLayer) : Prop where
  idle : m.pending = none → m.txState = .idle
  waits : ∀ entry, m.pending = some entry → m.txState.phase = .pre ∨ m.txState.phase = .post
  timer_le : ∀ t ∈ m.timers, t.sequenceNumber ≤ m.radio.sequenceNumber
  timer_current : ∀ t ∈ m.timers, t.sequenceNumber = m.radio.sequenceNumber →
    m.pending.bind m.txState.getWaitTime = some t.time
  timer_unique : (m.timers.filter (fun t => t.sequenceNumber = m.radio.sequenceNumber)).length ≤ 1
  actions : ∀ a ∈ m.actions, a.Timely

def Fresh (m : MACLayer) : Prop :=
  ∀ t ∈ m.timers, t.sequenceNumber < m.radio.sequenceNumber

structure Turning (start : Nat) (m : MACLayer) : Prop where
  idle : m.pending = none → m.txState = .idle
  due : ∀ entry, m.pending = some entry → m.txState.due entry ≤ start
  timer_le : ∀ t ∈ m.timers, t.sequenceNumber ≤ m.radio.sequenceNumber
  fresh : m.txState.phase = .pre ∨ m.txState.phase = .tx ∨ m.Fresh
  actions : ∀ a ∈ m.actions, a.Timely

section

variable (cfg : MACConfig)

variable {m : MACLayer} {tick : Tick} {entry : DownstreamQueueEntry}

theorem timely_actions_processPending
    (h : ∀ a ∈ m.actions, a.Timely) (hdue : m.txState.due entry ≤ tick.start)
    : ∀ a ∈ (m.processPending cfg tick entry).actions, a.Timely := by
  obtain ⟨next, tokens, heq⟩ := m.actions_processPending cfg tick entry
  rw [heq]
  intro a ha
  simp only [List.mem_append, List.mem_cons, List.mem_map] at ha
  rcases ha with hold | rfl | ⟨_, -, rfl⟩ | ⟨_, -, rfl⟩ | ⟨_, -, rfl⟩ | ⟨_, -, rfl⟩
  . exact h a hold
  . exact hdue
  . trivial
  . trivial
  . trivial
  . trivial

variable {start : Nat}

theorem fresh_processPending (h : m.Turning start)
    : (m.processPending cfg tick entry).txState.phase = .tx
        ∨ (m.processPending cfg tick entry).Fresh := by
  obtain ⟨hstate, hradio, htimers⟩ := m.processPending_spec cfg tick entry
  unfold Fresh
  rw [hstate, hradio, htimers]
  cases hphase : m.txState.phase with
  | pre =>
    left
    rcases phase_process cfg tick entry m.radio m.txState with ⟨-, hnext⟩ | ⟨-, -, hidle | hpost⟩
    . rw [hnext, hphase]
      rfl
    . cases hphase.symm.trans hidle
    . cases hphase.symm.trans hpost
  | tx =>
    right
    intro t ht
    rw [(process_tx cfg tick entry m.radio hphase).1]
    exact Nat.lt_succ_of_le (h.timer_le t ht)
  | idle =>
    right
    rw [(process_not_tx cfg tick entry m.radio (by rw [hphase]; simp)).1]
    rcases h.fresh with hpre | htx | hfresh
    . cases hphase.symm.trans hpre
    . cases hphase.symm.trans htx
    . exact hfresh
  | post =>
    right
    rw [(process_not_tx cfg tick entry m.radio (by rw [hphase]; simp)).1]
    rcases h.fresh with hpre | htx | hfresh
    . cases hphase.symm.trans hpre
    . cases hphase.symm.trans htx
    . exact hfresh

theorem timer_le_processPending (h : m.Turning start)
    : ∀ t ∈ (m.processPending cfg tick entry).timers,
        t.sequenceNumber ≤ (m.processPending cfg tick entry).radio.sequenceNumber := by
  obtain ⟨-, hradio, htimers⟩ := m.processPending_spec cfg tick entry
  rw [hradio, htimers]
  intro t ht
  have hle := h.timer_le t ht
  by_cases hphase : m.txState.phase = .tx
  . rw [(process_tx cfg tick entry m.radio hphase).1]
    omega
  . rw [(process_not_tx cfg tick entry m.radio hphase).1]
    exact hle

theorem idle_processPending
    (h : (m.processPending cfg tick entry).pending = none)
    : (m.processPending cfg tick entry).txState = .idle := by
  obtain ⟨hstate, -, -⟩ := m.processPending_spec cfg tick entry
  rcases m.pending_processPending cfg tick entry with ⟨-, hsome, -⟩ | ⟨hdeparture, -, -⟩
  . rw [h] at hsome
    cases hsome
  . rw [hstate]
    rcases phase_process cfg tick entry m.radio m.txState with ⟨hnone, -⟩ | ⟨-, hidle, -⟩
    . exact absurd hnone hdeparture
    . exact hidle

theorem turning_processPending (h : m.Turning tick.start)
    (hpending : m.pending = some entry)
    (hreached : ∀ time, (m.processPending cfg tick entry).pending.bind
      (m.processPending cfg tick entry).txState.getWaitTime = some time →
      time ≤ tick.check) (hstart : tick.check ≤ start)
    : (m.processPending cfg tick entry).Turning start := by
  obtain ⟨hstate, -, -⟩ := m.processPending_spec cfg tick entry
  have horder := Nat.le_trans tick.start_le_later tick.later_le_check
  have hdue := h.due entry hpending
  constructor
  . exact idle_processPending cfg
  . intro entry' hpending'
    rw [hpending', Option.bind_some, getWaitTime_eq] at hreached
    cases hphase : (m.processPending cfg tick entry).txState.phase with
    | idle =>
      rw [due, hphase]
      exact Nat.zero_le start
    | pre =>
      rw [hphase] at hreached
      exact Nat.le_trans (hreached _ rfl) hstart
    | post =>
      rw [hphase] at hreached
      exact Nat.le_trans (hreached _ rfl) hstart
    | tx =>
      -- the entry comes from the delay before the transmission as it is
      have hpre : m.txState.phase = .pre ∧ entry' = entry := by
        rw [hstate] at hphase
        rcases m.pending_processPending cfg tick entry with ⟨hdeparture, hsame, -⟩ | ⟨hdeparture, -, -⟩
        . rcases phase_process cfg tick entry m.radio m.txState with ⟨-, hnext⟩ | ⟨hsome, -, -⟩
          . rw [hphase] at hnext
            have hpre : m.txState.phase = .pre := by
              cases hm : m.txState.phase with
              | pre => rfl
              | idle => rw [hm] at hnext; cases hnext
              | tx => rw [hm] at hnext; cases hnext
              | post => rw [hm] at hnext; cases hnext
            rw [hpending', entry_process_pre cfg tick entry m.radio hpre] at hsame
            exact ⟨hpre, Option.some.inj hsame⟩
          . exact absurd hdeparture hsome
        . rcases phase_process cfg tick entry m.radio m.txState with ⟨hnone, -⟩ | ⟨-, hidle, -⟩
          . exact absurd hnone hdeparture
          . rw [hidle] at hphase
            cases hphase
      obtain ⟨hpre, rfl⟩ := hpre
      rw [due, hpre] at hdue
      rw [due, hphase]
      exact Nat.le_trans hdue (Nat.le_trans horder hstart)
  . exact timer_le_processPending cfg h
  . exact Or.inr (fresh_processPending cfg h)
  . exact timely_actions_processPending cfg h.actions hdue

theorem timely_schedule {time : Nat} (h : m.Turning tick.start)
    (hpending : m.pending = some entry)
    (htime : (m.processPending cfg tick entry).pending.bind
      (m.processPending cfg tick entry).txState.getWaitTime = some time)
    : ((m.processPending cfg tick entry).schedule time).Timely := by
  obtain ⟨entry', hpending', hwait⟩ := Option.bind_eq_some_iff.mp htime
  have hphase : (m.processPending cfg tick entry).txState.phase = .pre
      ∨ (m.processPending cfg tick entry).txState.phase = .post := by
    rw [getWaitTime_eq] at hwait
    split at hwait
    . cases hwait
    . cases hwait
    . next h => exact Or.inl h
    . next h => exact Or.inr h
  have hfresh : (m.processPending cfg tick entry).Fresh := by
    refine (fresh_processPending cfg h).resolve_left ?_
    intro htx
    rw [htx] at hphase
    rcases hphase with hpre | hpost
    . cases hpre
    . cases hpost
  constructor
  . intro hnone
    rw [schedule] at hnone
    rw [hpending'] at hnone
    cases hnone
  . exact fun _ _ => hphase
  . intro t ht
    rcases List.mem_append.mp ht with hold | hnew
    . exact timer_le_processPending cfg h t hold
    . rw [List.mem_singleton.mp hnew]
      exact Nat.le_refl _
  . intro t ht hcurrent
    rcases List.mem_append.mp ht with hold | hnew
    . exact absurd hcurrent (Nat.ne_of_lt (hfresh t hold))
    . rw [List.mem_singleton.mp hnew]
      exact htime
  . have hnone : (m.processPending cfg tick entry).timers.filter
        (fun t => t.sequenceNumber = (m.processPending cfg tick entry).radio.sequenceNumber) = [] := by
      rw [List.filter_eq_nil_iff]
      intro t ht
      simpa using Nat.ne_of_lt (hfresh t ht)
    unfold schedule
    rw [List.filter_append, hnone, List.nil_append]
    exact List.length_filter_le _ _
  . exact timely_actions_processPending cfg h.actions (h.due entry hpending)

theorem timely_of_turning (h : m.Turning start) (hnone : m.pending = none) : m.Timely := by
  have hidle := h.idle hnone
  have hfresh : m.Fresh := by
    rcases h.fresh with hpre | htx | hfresh
    . rw [hidle] at hpre
      cases hpre
    . rw [hidle] at htx
      cases htx
    . exact hfresh
  constructor
  . exact h.idle
  . intro entry hsome
    rw [hnone] at hsome
    cases hsome
  . exact h.timer_le
  . exact fun t ht hcurrent => absurd hcurrent (Nat.ne_of_lt (hfresh t ht))
  . have hnil : m.timers.filter (fun t => t.sequenceNumber = m.radio.sequenceNumber) = [] := by
      rw [List.filter_eq_nil_iff]
      intro t ht
      simpa using Nat.ne_of_lt (hfresh t ht)
    rw [hnil]
    exact Nat.zero_le 1
  . exact h.actions

theorem timely_handle (env : Env) (h : m.Turning (env.tick 0).start)
    : (m.handleDownstreamQueueEntry cfg env m.radio.sequenceNumber).Timely := by
  unfold handleDownstreamQueueEntry
  rw [if_pos rfl]
  have hnone : ∀ k (m : MACLayer), m.Turning (env.tick k).start → m.pending = none → m.Timely :=
    fun _ _ h => timely_of_turning h
  refine go_rule cfg env hnone ?_ ?_ (Nat.le_refl _) h
  . exact fun k m entry time h hpending htime _ => timely_schedule cfg h hpending htime
  . exact fun k m entry h hpending hreached => turning_processPending cfg h hpending hreached
      (env.tick_le_tick k)

theorem Timely.of_eq {m m' : MACLayer} (h : m.Timely) (hstate : m'.txState = m.txState)
    (hpending : m'.pending = m.pending)
    (hradio : m'.radio = m.radio) (htimers : m'.timers = m.timers) (hactions : ∀ a ∈ m'.actions, a.Timely)
    : m'.Timely := by
  constructor
  . rw [hpending, hstate]
    exact h.idle
  . rw [hpending, hstate]
    exact h.waits
  . rw [htimers, hradio]
    exact h.timer_le
  . rw [htimers, hradio, hpending, hstate]
    exact h.timer_current
  . rw [htimers, hradio]
    exact h.timer_unique
  . exact hactions

theorem Timely.turning (h : m.Timely)
    (hdue : ∀ entry, m.pending = some entry → m.txState.due entry ≤ start)
    (hfresh : m.txState.phase = .pre ∨ m.Fresh)
    : m.Turning start := by
  exact ⟨h.idle, hdue, h.timer_le, hfresh.imp_right Or.inr, h.actions⟩

def undisturbed (m : MACLayer) (e : Env × Event) : Bool :=
  match e.2, m.pending with
  | .downstreamPacket _, some entry =>
    !(m.removeToken cfg).1
      || decide (e.1.test < m.radio.currentEndOfTransmissionTime)
      || (decide (m.txState.due entry ≤ e.1.test)
        && (decide (m.txState.phase = .pre) || m.timers.all
          (fun t => t.sequenceNumber ≠ m.radio.sequenceNumber)))
  | _, _ => true

theorem fresh_of_ne (h : m.Timely) (hne : ∀ t ∈ m.timers, t.sequenceNumber ≠ m.radio.sequenceNumber)
    : m.Fresh := by
  exact fun t ht => Nat.lt_of_le_of_ne (h.timer_le t ht) (hne t ht)

theorem timely_act (h : m.Timely) {actions : List Action} (hactions : ∀ a ∈ actions, a.Timely)
    : (m.act actions).Timely := by
  refine h.of_eq rfl rfl rfl rfl ?_
  intro a ha
  rcases List.mem_append.mp ha with hold | hnew
  . exact h.actions a hold
  . exact hactions a hnew

theorem timely_removeToken (h : m.Timely) : (m.removeToken cfg).2.Timely := by
  obtain ⟨flowControl, heq⟩ := m.removeToken_eq cfg
  rw [heq]
  exact h.of_eq rfl rfl rfl rfl h.actions

theorem timely_enqueue (h : m.Timely) (entry : DownstreamQueueEntry) : (m.enqueue cfg entry).Timely := by
  obtain ⟨flowControl, actions, heq, -, hkinds⟩ := m.enqueue_eq cfg entry
  rw [heq]
  refine h.of_eq rfl rfl rfl rfl ?_
  intro a ha
  rcases List.mem_append.mp ha with hold | hnew
  . exact h.actions a hold
  . rcases hkinds a hnew with ⟨_, rfl⟩ | ⟨_, rfl⟩
    . trivial
    . trivial

theorem timely_startPending (env : Env) (h : m.Timely) (hnone : m.pending = none)
    (entry : DownstreamQueueEntry)
    : (m.startPending cfg env entry).Timely := by
  have hidle := h.idle hnone
  have hturning : ({ m with pending := some entry } : MACLayer).Turning (env.tick 0).start := by
    constructor
    . intro hpending
      cases hpending
    . intro entry' _
      simp [due, hidle, phase]
    . exact h.timer_le
    . refine Or.inr (Or.inr ?_)
      intro t ht
      refine Nat.lt_of_le_of_ne (h.timer_le t ht) ?_
      intro hcurrent
      have htime := h.timer_current t ht hcurrent
      rw [hnone] at htime
      cases htime
    . exact h.actions
  have hwait : ({ m with pending := some entry } : MACLayer).txState.getWaitTime entry = none := by
    simp [hidle, getWaitTime]
  unfold startPending
  simp only [hwait]
  exact timely_handle cfg env hturning

theorem timely_processDownstreamPacket (env : Env) (h : m.Timely) (pkt : DownstreamPacket)
    (hundisturbed : m.undisturbed cfg (env, .downstreamPacket pkt) = true)
    : (m.processDownstreamPacket cfg env pkt).Timely := by
  have hremove := timely_removeToken cfg h
  obtain ⟨flowControl, heq⟩ := m.removeToken_eq cfg
  unfold processDownstreamPacket
  simp only
  split
  . next htoken =>
    have haccept : ((m.removeToken cfg).2.act [.accept (createEntry cfg env.now pkt)]).Timely :=
      timely_act hremove (by simp [Action.Timely])
    split
    . next entry hpending =>
      have henqueue := timely_enqueue cfg haccept (createEntry cfg env.now pkt)
      split
      . next hend =>
        obtain ⟨flowControl', actions, heq', -, -⟩ :=
          ((m.removeToken cfg).2.act [.accept (createEntry cfg env.now pkt)]).enqueue_eq cfg
            (createEntry cfg env.now pkt)
        rw [heq] at hpending
        have hpending' : m.pending = some entry := hpending
        have hover : m.radio.currentEndOfTransmissionTime ≤ env.test := by
          rw [heq', heq] at hend
          exact hend
        simp only [undisturbed, hpending', htoken] at hundisturbed
        simp only [Bool.not_true, Bool.false_or, Bool.or_eq_true, Bool.and_eq_true,
          decide_eq_true_eq] at hundisturbed
        rcases hundisturbed with hlt | ⟨hdue, hfresh⟩
        . omega
        . apply timely_handle
          apply henqueue.turning
          . intro entry' hentry'
            rw [heq', heq] at hentry'
            obtain rfl := Option.some.inj (hpending'.symm.trans hentry')
            rw [heq', heq]
            exact Nat.le_trans hdue env.test_le_tick
          . rcases hfresh with hpre | hall
            . left
              rw [heq', heq]
              exact hpre
            . right
              apply fresh_of_ne henqueue
              rw [heq', heq]
              intro t ht
              have hne : t.sequenceNumber
                ≠ m.radio.sequenceNumber := by simpa using List.all_eq_true.mp hall t ht
              exact hne
      . exact henqueue
    . next hpending => exact timely_startPending cfg env haccept hpending _
  . exact timely_act hremove (by simp [Action.Timely])

theorem not_of_mem_eraseIdx {α : Type u} {p : α → Bool} {l : List α} {i : Nat} {a b : α}
    (hget : l[i]? = some a) (ha : p a = true)
    (hunique : (l.filter p).length ≤ 1) (hb : b ∈ l.eraseIdx i)
    : p b = false := by
  by_contra hpb
  have hlt := (List.getElem?_eq_some_iff.mp hget).1
  have hwhole : l = l.take i ++ a :: l.drop (i + 1) := by
    have hget' : l[i] = a := (List.getElem?_eq_some_iff.mp hget).2
    rw [← hget', List.getElem_cons_drop, List.take_append_drop]
  have hone : 0 < ((l.eraseIdx i).filter p).length := by
    apply List.length_pos_of_mem
    rw [List.mem_filter]
    exact ⟨hb, by simpa using hpb⟩
  rw [hwhole, List.filter_append, List.filter_cons_of_pos ha, List.length_append,
    List.length_cons] at hunique
  rw [List.eraseIdx_eq_take_drop_succ, List.filter_append, List.length_append] at hone
  omega

theorem timely_timer (env : Env) (h : m.Timely) {index : Nat} {t : Timer} (ht : m.timers[index]? = some t)
    (htime : t.time ≤ env.now)
    : ({ m with timers := m.timers.eraseIdx index }.handleDownstreamQueueEntry cfg env
        t.sequenceNumber).Timely := by
  have hmem : t ∈ m.timers := List.mem_of_getElem? ht
  have hsub : ∀ t' ∈ m.timers.eraseIdx index, t' ∈ m.timers := fun _ => List.mem_of_mem_eraseIdx
  by_cases hcurrent : t.sequenceNumber = m.radio.sequenceNumber
  . have hwait := h.timer_current t hmem hcurrent
    obtain ⟨entry, hpending, hwait⟩ := Option.bind_eq_some_iff.mp hwait
    have hturning : ({ m with timers := m.timers.eraseIdx index } : MACLayer).Turning
        (env.tick 0).start := by
      constructor
      . exact h.idle
      . intro entry' hentry'
        obtain rfl := Option.some.inj (hpending.symm.trans hentry')
        have hdue := due_of_getWaitTime hwait
        have hstart := Nat.le_trans env.now_le_test env.test_le_tick
        simp only [hdue]
        omega
      . exact fun t' ht' => h.timer_le t' (hsub t' ht')
      . refine Or.inr (Or.inr ?_)
        intro t' ht'
        refine Nat.lt_of_le_of_ne (h.timer_le t' (hsub t' ht')) ?_
        simpa using not_of_mem_eraseIdx ht (by simpa using hcurrent) h.timer_unique ht'
      . exact h.actions
    rw [hcurrent]
    exact timely_handle cfg env hturning
  . unfold handleDownstreamQueueEntry
    rw [if_neg hcurrent]
    constructor
    . exact h.idle
    . exact h.waits
    . exact fun t' ht' => h.timer_le t' (hsub t' ht')
    . exact fun t' ht' => h.timer_current t' (hsub t' ht')
    . exact Nat.le_trans (((List.eraseIdx_sublist _ _).filter _).length_le) h.timer_unique
    . exact h.actions

theorem timely_processUpstreamPacket (env : Env) (h : m.Timely) (checks : Nat → Bool)
    (pkt : UpstreamPacket)
    : (m.processUpstreamPacket cfg env checks pkt).Timely := by
  obtain ⟨radio, duplicateMap, actions, heq, hradio, hkinds⟩ :=
    m.processUpstreamPacket_eq cfg env checks pkt
  have hactions : ∀ a ∈ m.actions ++ actions, a.Timely := by
    intro a ha
    rcases List.mem_append.mp ha with hold | hnew
    . exact h.actions a hold
    . rcases hkinds a hnew with ⟨_, rfl⟩ | ⟨_, rfl⟩
      . trivial
      . trivial
  rw [heq]
  rcases hradio with rfl | hsucc
  . exact h.of_eq rfl rfl rfl rfl hactions
  . have hfresh : ∀ t ∈ m.timers, t.sequenceNumber < radio.sequenceNumber := by
      intro t ht
      rw [hsucc]
      exact Nat.lt_succ_of_le (h.timer_le t ht)
    constructor
    . exact h.idle
    . exact h.waits
    . exact fun t ht => Nat.le_of_lt (hfresh t ht)
    . exact fun t ht hcurrent => absurd hcurrent (Nat.ne_of_lt (hfresh t ht))
    . have hnil : m.timers.filter (fun t => t.sequenceNumber = radio.sequenceNumber) = [] := by
        rw [List.filter_eq_nil_iff]
        intro t ht
        simpa using Nat.ne_of_lt (hfresh t ht)
      simp only [hnil]
      exact Nat.zero_le 1
    . exact hactions

theorem timely_processFlowControlMessage (h : m.Timely) (tokens : Nat)
    : (m.processFlowControlMessage cfg tokens).Timely := by
  unfold processFlowControlMessage
  split
  . apply timely_act
    . exact h.of_eq rfl rfl rfl rfl h.actions
    . intro a ha
      obtain ⟨_, -, rfl⟩ := List.mem_map.mp ha
      trivial
  . exact h

theorem timely_step {m' : MACLayer} {e : Env × Event} (h : m.Timely)
    (hundisturbed : m.undisturbed cfg e = true)
    (hstep : step cfg m e = some m')
    : m'.Timely := by
  obtain ⟨env, event⟩ := e
  cases event with
  | downstreamPacket pkt =>
    cases hstep
    exact timely_processDownstreamPacket cfg env h pkt hundisturbed
  | timer index =>
    simp only [step] at hstep
    split at hstep
    . next t ht =>
      split at hstep
      . next htime =>
        cases hstep
        exact timely_timer cfg env h ht htime
      . cases hstep
    . cases hstep
  | upstreamPacket pkt checks =>
    cases hstep
    exact timely_processUpstreamPacket cfg env h checks pkt
  | flowControlMessage tokens =>
    cases hstep
    exact timely_processFlowControlMessage cfg h tokens

theorem timely_init (categories : List AccessCategory) (flowControl : FlowControlManager)
    (entrySequenceNumber : UInt16)
    : (init categories flowControl entrySequenceNumber).Timely := by
  constructor
  . exact fun _ => rfl
  . exact fun _ h => by cases h
  . exact fun _ h => by cases h
  . exact fun _ h => by cases h
  . exact Nat.zero_le 1
  . exact fun _ h => by cases h

/--
In every run in which no packet disturbs a pending one, `process` is not called before the time
that its state waits for, nothing is sent before the delay is over, and a timer that is not for
the current state has no effect.
-/
theorem run_timely {categories : List AccessCategory} {flowControl : FlowControlManager}
    {entrySequenceNumber : UInt16}
    {es : List (Env × Event)} {m : MACLayer}
    (hguarded : Guarded (step cfg) (fun m e => m.undisturbed cfg e = true)
      (init categories flowControl entrySequenceNumber) es)
    (hrun : run (step cfg) (init categories flowControl entrySequenceNumber) es = some m)
    : (∀ st entry time, .process st entry time ∈ m.actions →
        (∀ wait, st.getWaitTime entry = some wait → wait ≤ time)
          ∧ (st.phase = .tx → entry.preTxDelayTime ≤ time))
      ∧ (∀ index t env, m.timers[index]? = some t → t.time ≤ env.now
        → m.pending.bind m.txState.getWaitTime ≠ some t.time →
        step cfg m (env, .timer index) = some { m with timers := m.timers.eraseIdx index }) := by
  have htimely : m.Timely := run_inv (fun _ _ _ h hok hstep => timely_step cfg h hok hstep)
    (timely_init categories flowControl entrySequenceNumber) hguarded hrun
  constructor
  . intro st entry time hmem
    have hdue : st.due entry ≤ time := htimely.actions _ hmem
    constructor
    . intro wait hwait
      rw [← due_of_getWaitTime hwait]
      exact hdue
    . intro htx
      rw [due, htx] at hdue
      exact hdue
  . intro index t env ht htime hother
    have hstale : t.sequenceNumber ≠ m.radio.sequenceNumber := by
      intro hcurrent
      exact hother (htimely.timer_current t (List.mem_of_getElem? ht) hcurrent)
    simp only [step, ht, if_pos htime, handleDownstreamQueueEntry, if_neg hstale]

end

def sampleDelay : Delay where
  preDelayMicroseconds := 1000
  postDelayMicroseconds := 2000
  collision := false

def orderlyEvents : List (Env × Event) :=
  [(.still 0 sampleDelay, .downstreamPacket (packetTo 2 [1])), (.still 1000 sampleDelay, .timer 0),
    (.still 1100 sampleDelay, .downstreamPacket (packetTo 2 [2])), (.still 9000 sampleDelay, .timer 0)]

theorem run_timely_orderly
    : ∃ m, run (step (mode80211b 1)) started orderlyEvents = some m
        ∧ ∀ st entry time, .process st entry time ∈ m.actions
            → ∀ wait, st.getWaitTime entry = some wait → wait ≤ time := by
  have hdefined : (run (step (mode80211b 1)) started orderlyEvents).isSome = true := by
    decide +kernel
  have hguarded : Guarded (step (mode80211b 1)) (fun m e => m.undisturbed (mode80211b 1) e = true)
      started orderlyEvents := by
    decide +kernel
  obtain ⟨m, hrun⟩ := Option.isSome_iff_exists.mp hdefined
  exact ⟨m, hrun, fun st entry time hmem =>
    ((run_timely (mode80211b 1) hguarded hrun).1 st entry time hmem).1⟩

theorem arrival_ends_delay
    : (run (step (mode80211b 1)) started
        [(.still 0 sampleDelay, .downstreamPacket (packetTo 2 [1])),
          (.still 10 sampleDelay, .downstreamPacket (packetTo 2 [2]))]).map
        (fun m => m.actions.filterMap (fun a =>
          match a with
          | .process st entry time => (st.getWaitTime entry).map (fun wait => (st, wait, time))
          | _ => none))
      =
      some [(.unicastPreTx, 1000, 10)] := by
  decide +kernel

end MACLayer
end Ieee80211abg
end Emane

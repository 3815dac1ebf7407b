import Mathlib.Data.List.Chain
import Emane.FlowControl.Lemmas.Handshake
import Emane.RFPipe.Impl.MACLayer

/-!
This module contains what becomes of packets in the RF pipe MAC layer: every one of them waits, is
sent in its turn or is dropped, and no transmission starts before the one before it is over.
-/

namespace Emane
namespace RFPipe

theorem DownstreamQueue.append_makeRoom (queue : List DownstreamQueueEntry)
    : (makeRoom queue).1 ++ (makeRoom queue).2 = queue := by
  induction queue with
  | nil => rfl
  | cons entry queue ih =>
    unfold makeRoom
    split
    . exact congrArg (entry :: ·) ih
    . rfl

namespace MACLayer

def sent (m : MACLayer) : List DownstreamQueueEntry :=
  m.transmissions.map Transmission.entry

structure Core (m : MACLayer) (waiting : List DownstreamQueueEntry) : Prop where
  order : (m.sent ++ waiting).Sublist m.arrivals
  conserved : (m.sent ++ waiting ++ m.overflow ++ m.refused).Perm m.arrivals
  spaced : m.transmissions.IsChain (fun t t' => t.sot + t.entry.durationMicroseconds ≤ t'.sot)
  tokens : m.flowControlEnable
    → m.flowControl.tokensAvailable + waiting.length = m.flowControl.totalTokensAvailable
  total : m.flowControl.totalTokensAvailable < 2^16
  refused : m.flowControlEnable = false → m.refused = []

def OverAt (m : MACLayer) (time : Int) : Prop :=
  ∀ t, m.transmissions.getLast? = some t → t.sot + t.entry.durationMicroseconds ≤ time

structure Good (m : MACLayer) : Prop where
  core : m.Core (m.pending.toList ++ m.queue)
  idle : m.pending = none → m.queue = []
  delay : 0 ≤ m.currentDelay
  ended : m.OverAt m.currentEndOfTransmissionTime
  free : m.pending = none → m.OverAt (m.currentEndOfTransmissionTime - m.currentDelay)
  timers : ∀ timer ∈ m.timers,
    timer.sequenceNumber < m.txSequenceNumber
      ∨ timer.sequenceNumber = m.txSequenceNumber ∧ timer.sot = m.currentEndOfTransmissionTime
        ∧ m.pending.isSome
  outstanding : m.pending.isSome → ∃ timer ∈ m.timers, timer.sequenceNumber = m.txSequenceNumber

section

variable {m : MACLayer} {waiting : List DownstreamQueueEntry} {entry : DownstreamQueueEntry}

theorem addToken_eq (m : MACLayer)
    : ∃ flowControl responses,
        m.addToken = { m with flowControl := flowControl, responses := responses }
          ∧ flowControl.totalTokensAvailable = m.flowControl.totalTokensAvailable
          ∧ (m.flowControlEnable → m.flowControl.totalTokensAvailable < 2^16 →
          m.flowControl.tokensAvailable + 1 ≤ m.flowControl.totalTokensAvailable →
          flowControl.tokensAvailable = m.flowControl.tokensAvailable + 1) := by
  unfold addToken
  split
  . refine ⟨_, _, rfl, FlowControlManager.totalTokensAvailable_addToken _ _, ?_⟩
    intro _ htotal hroom
    exact FlowControlManager.tokensAvailable_addToken htotal hroom
  . next hdisabled =>
      exact ⟨m.flowControl, m.responses, rfl, rfl, fun henabled => absurd henabled hdisabled⟩

variable {sot : Int}

theorem Core.send (h : m.Core (entry :: waiting)) (hsot : m.OverAt sot) (codec : Codec UInt64)
    (delay : Int)
    : (m.send codec entry sot delay).Core waiting := by
  obtain ⟨flowControl, responses, heq, htotal, htokens⟩ := addToken_eq m
  unfold MACLayer.send
  rw [heq]
  constructor
  . change (List.map Transmission.entry (m.transmissions ++ [_]) ++ waiting).Sublist m.arrivals
    rw [List.map_append, List.append_assoc]
    exact h.order
  . change (List.map Transmission.entry (m.transmissions ++ [_]) ++ waiting ++ m.overflow
      ++ m.refused).Perm m.arrivals
    rw [List.map_append, List.append_assoc _ _ waiting]
    exact h.conserved
  . rw [List.isChain_append]
    refine ⟨h.spaced, List.isChain_singleton _, ?_⟩
    intro t ht t' ht'
    simp only [List.head?_cons, Option.mem_def, Option.some.injEq] at ht'
    rw [← ht']
    exact hsot t ht
  . intro henabled
    have hsum := h.tokens henabled
    rw [List.length_cons] at hsum
    have hplus := htokens henabled h.total (by omega)
    simp only
    omega
  . simp only [htotal]
    exact h.total
  . exact h.refused

variable (codec : Codec UInt64)

theorem getLast?_send (sot delay : Int) (m : MACLayer)
    : (m.send codec entry sot delay).transmissions.getLast?
        =
      some ⟨m.txSequenceNumber, entry, prependHeader codec entry, sot⟩ := by
  obtain ⟨flowControl, responses, heq, _⟩ := addToken_eq m
  unfold send
  rw [heq]
  exact List.getLast?_concat

theorem send_fields (codec : Codec UInt64) (sot delay : Int) (m : MACLayer)
    : (m.send codec entry sot delay).txSequenceNumber = m.txSequenceNumber + 1
        ∧ (m.send codec entry sot delay).timers = m.timers
        ∧ (m.send codec entry sot delay).currentDelay = delay
        ∧ (m.send codec entry sot delay).currentEndOfTransmissionTime = sot
            + entry.durationMicroseconds + delay := by
  obtain ⟨flowControl, responses, heq, _⟩ := addToken_eq m
  unfold send
  rw [heq]
  exact ⟨rfl, rfl, rfl, rfl⟩

variable {m' : MACLayer}

theorem Core.congr (h : m.Core waiting) (hflowControlEnable : m'.flowControlEnable = m.flowControlEnable)
    (hflowControl : m'.flowControl = m.flowControl) (harrivals : m'.arrivals = m.arrivals)
    (htransmissions : m'.transmissions = m.transmissions) (hoverflow : m'.overflow = m.overflow)
    (hrefused : m'.refused = m.refused)
    : m'.Core waiting := by
  obtain ⟨horder, hconserved, hspaced, htokens, htotal, hnone⟩ := h
  constructor
  . unfold sent
    rw [htransmissions, harrivals]
    exact horder
  . unfold sent
    rw [htransmissions, hoverflow, hrefused, harrivals]
    exact hconserved
  . rw [htransmissions]
    exact hspaced
  . rw [hflowControlEnable, hflowControl]
    exact htokens
  . rw [hflowControl]
    exact htotal
  . rw [hflowControlEnable, hrefused]
    exact hnone

theorem schedule_good (hcore : m.Core (m.pending.toList ++ m.queue)) (hpending : m.pending.isSome)
    (hdelay : 0 ≤ m.currentDelay)
    (hover : m.OverAt m.currentEndOfTransmissionTime)
    (hold : ∀ timer ∈ m.timers, timer.sequenceNumber < m.txSequenceNumber)
    : m.schedule.Good := by
  have hnot : m.schedule.pending ≠ none := Option.isSome_iff_ne_none.mp hpending
  constructor
  . exact hcore.congr rfl rfl rfl rfl rfl rfl
  . exact fun hnone => absurd hnone hnot
  . exact hdelay
  . exact hover
  . exact fun hnone => absurd hnone hnot
  . intro timer htimer
    unfold schedule at htimer
    simp only [List.mem_append, List.mem_singleton] at htimer
    rcases htimer with htimer | rfl
    . exact .inl (hold timer htimer)
    . exact .inr ⟨rfl, rfl, hpending⟩
  . intro _
    exact ⟨⟨m.currentEndOfTransmissionTime, m.txSequenceNumber⟩, by simp [schedule], rfl⟩

variable {env : Env}

theorem sendPending_good (hdelay : ∀ i, 0 ≤ env.delay i)
    {queue : List DownstreamQueueEntry} (hcore : m.Core (entry :: queue)) (hsot : m.OverAt sot)
    (htimers : ∀ timer ∈ m.timers, timer.sequenceNumber ≤ m.txSequenceNumber)
    : (m.sendPending codec env sot entry queue).Good := by
  induction queue generalizing m env sot entry with
  | nil =>
    have hcore' := hcore.send hsot codec (env.delay 0)
    have hlast := @getLast?_send entry codec sot (env.delay 0) m
    obtain ⟨htx, htimers', hdelay', htime⟩ := @send_fields entry codec sot (env.delay 0) m
    have hover : ∀ time, sot + entry.durationMicroseconds ≤ time →
        OverAt { m.send codec entry sot (env.delay 0) with pending := none, queue := [] } time := by
      intro time hle t ht
      obtain rfl := Option.some.inj (hlast.symm.trans ht)
      exact hle
    have hnonneg := hdelay 0
    unfold sendPending
    constructor
    . exact hcore'.congr rfl rfl rfl rfl rfl rfl
    . exact fun _ => rfl
    . exact hnonneg
    . apply hover
      simp only [htime]
      omega
    . intro _
      apply hover
      simp only [htime, hdelay']
      omega
    . intro timer htimer
      simp only [htimers'] at htimer
      have hle := htimers timer htimer
      simp only [htx]
      exact .inl (by omega)
    . intro hpending
      simp at hpending
  | cons next queue ih =>
    have hcore' := hcore.send hsot codec (env.delay 0)
    have hlast := @getLast?_send entry codec sot (env.delay 0) m
    obtain ⟨htx, htimers', hdelay', htime⟩ := @send_fields entry codec sot (env.delay 0) m
    have hnonneg := hdelay 0
    generalize hm' : { m.send codec entry sot (env.delay 0) with pending := some next, queue :=
      queue } = m'
    have hpending : m'.pending = some next := by rw [← hm']
    have hqueue : m'.queue = queue := by rw [← hm']
    have hcore'' : m'.Core (next :: queue) := by
      apply hcore'.congr
      all_goals
        rw [← hm']
    have hold : ∀ timer ∈ m'.timers, timer.sequenceNumber < m'.txSequenceNumber := by
      intro timer htimer
      rw [← hm'] at htimer ⊢
      simp only [htimers'] at htimer
      have hle := htimers timer htimer
      simp only [htx]
      omega
    have hover : m'.OverAt m'.currentEndOfTransmissionTime := by
      intro t ht
      rw [← hm'] at ht ⊢
      obtain rfl := Option.some.inj (hlast.symm.trans ht)
      simp only [htime]
      omega
    have hdelay'' : 0 ≤ m'.currentDelay := by
      rw [← hm']
      exact hnonneg
    have hunfold : m.sendPending codec env sot entry (next :: queue)
        = if m'.currentEndOfTransmissionTime > env.now 0 then m'.schedule
          else m'.sendPending codec env.next m'.currentEndOfTransmissionTime next queue := by
      rw [← hm']
      rfl
    rw [hunfold]
    split
    . apply schedule_good ?_ ?_ hdelay'' hover hold
      . rw [hpending, hqueue]
        exact hcore''
      . rw [hpending]
        rfl
    . apply ih
      . intro i
        exact hdelay (i + 1)
      . exact hcore''
      . exact hover
      . intro timer htimer
        exact Nat.le_of_lt (hold timer htimer)

theorem handleDownstreamQueueEntry_good (hdelay : ∀ i, 0 ≤ env.delay i)
    (hpending : m.pending = some entry) (hcore : m.Core (entry :: m.queue)) (hsot : m.OverAt sot)
    (htimers : ∀ timer ∈ m.timers, timer.sequenceNumber ≤ m.txSequenceNumber) {sequenceNumber : Nat}
    (hcurrent : sequenceNumber = m.txSequenceNumber)
    : (m.handleDownstreamQueueEntry codec env sot sequenceNumber).Good := by
  subst hcurrent
  unfold handleDownstreamQueueEntry
  simp only [true_or, ↓reduceIte, ne_eq, not_true_eq_false, hpending]
  exact sendPending_good codec hdelay hcore hsot htimers

theorem Good.timedEvent (h : m.Good) (codec : Codec UInt64) (hdelay : ∀ i, 0 ≤ env.delay i)
    {index : Nat} {timer : TimedEvent}
    (htimer : m.timers[index]? = some timer)
    : ({ m with timers := m.timers.eraseIdx index }.handleDownstreamQueueEntry codec env timer.sot
        timer.sequenceNumber).Good := by
  have hmem := List.mem_of_getElem? htimer
  have hcore : Core { m with timers := m.timers.eraseIdx index } (m.pending.toList ++ m.queue) :=
    h.core.congr rfl rfl rfl rfl rfl rfl
  have htimers : ∀ timer' ∈ m.timers.eraseIdx index, timer'.sequenceNumber ≤ m.txSequenceNumber := by
    intro timer' htimer'
    rcases h.timers timer' (List.mem_of_mem_eraseIdx htimer') with hlt | ⟨heq, _⟩
    . exact Nat.le_of_lt hlt
    . exact Nat.le_of_eq heq
  unfold handleDownstreamQueueEntry
  simp only
  split
  . next hturn =>
    cases hpending : m.pending with
    | none =>
      -- nobody waits, so that this is an old timer
      rcases h.timers timer hmem with hlt | ⟨_, _, hsome⟩
      . rcases hturn with heq | ⟨hsome, _⟩
        . omega
        . simp [hpending] at hsome
      . simp [hpending] at hsome
    | some entry =>
      rw [hpending] at hcore
      apply sendPending_good codec hdelay hcore ?_ htimers
      intro t ht
      have hover := h.ended t ht
      split
      . next hne =>
        rcases hturn with heq | ⟨_, hle⟩
        . exact absurd heq hne
        . exact Int.le_trans hover hle
      . next heq =>
        rcases h.timers timer hmem with hlt | ⟨_, hsot, _⟩
        . omega
        . rw [hsot]
          exact hover
  . next hturn =>
    rw [not_or] at hturn
    constructor
    . exact hcore
    . exact h.idle
    . exact h.delay
    . exact h.ended
    . exact h.free
    . intro timer' htimer'
      exact h.timers timer' (List.mem_of_mem_eraseIdx htimer')
    . intro hpending
      obtain ⟨timer', hmem', heq⟩ := h.outstanding hpending
      refine ⟨timer', ?_, heq⟩
      rw [List.mem_eraseIdx_iff_getElem?]
      rw [List.mem_iff_getElem?] at hmem'
      obtain ⟨index', hindex'⟩ := hmem'
      refine ⟨index', ?_, hindex'⟩
      rintro rfl
      rw [htimer, Option.some.injEq] at hindex'
      rw [hindex'] at hturn
      exact hturn.1 heq

theorem Core.drop (first : DownstreamQueueEntry) {result : List DownstreamQueueEntry}
    (h : m.Core (first :: (result ++ waiting)))
    : ∃ m', result.foldl (fun m dropped => { m with overflow := m.overflow ++ [dropped] }.addToken) m = m'
        ∧ m'.Core (first :: waiting)
        ∧ m'.queue = m.queue
        ∧ m'.pending = m.pending
        ∧ m'.currentEndOfTransmissionTime = m.currentEndOfTransmissionTime
        ∧ m'.currentDelay = m.currentDelay
        ∧ m'.txSequenceNumber = m.txSequenceNumber
        ∧ m'.timers = m.timers
        ∧ m'.transmissions = m.transmissions := by
  induction result generalizing m with
  | nil => exact ⟨m, rfl, h, rfl, rfl, rfl, rfl, rfl, rfl, rfl⟩
  | cons dropped result ih =>
    obtain ⟨flowControl, responses, heq, htotal, htokens⟩ := addToken_eq
      { m with overflow := m.overflow ++ [dropped] }
    have hcore : ({ m with overflow := m.overflow ++ [dropped] }.addToken).Core
        (first :: (result ++ waiting)) := by
      rw [heq]
      constructor
      . apply List.Sublist.trans ?_ h.order
        apply List.Sublist.append_left
        apply List.Sublist.cons_cons
        exact List.sublist_cons_self _ _
      . apply List.Perm.trans ?_ h.conserved
        apply List.perm_iff_count.mpr
        intro entry
        simp only [sent, List.cons_append, List.count_append, List.count_cons, List.count_nil]
        omega
      . exact h.spaced
      . intro henabled
        have hsum := h.tokens henabled
        simp only [List.cons_append, List.length_cons, List.length_append] at hsum
        have hplus := htokens henabled h.total (by simp only; omega)
        simp only at hplus htotal
        simp only [List.length_cons, List.length_append]
        omega
      . simp only [htotal]
        exact h.total
      . exact h.refused
    obtain ⟨m', hfold, hrest⟩ := ih hcore
    refine ⟨m', hfold, ?_⟩
    rw [heq] at hrest
    exact hrest

variable {flowControl : FlowControlManager}

theorem Core.arrive (h : m.Core waiting) (entry : DownstreamQueueEntry)
    (htotal : flowControl.totalTokensAvailable = m.flowControl.totalTokensAvailable)
    (htokens : m.flowControlEnable → flowControl.tokensAvailable + 1 = m.flowControl.tokensAvailable)
    : Core { m with arrivals := m.arrivals ++ [entry], flowControl := flowControl }
        (waiting ++ [entry]) := by
  constructor
  . change (m.sent ++ (waiting ++ [entry])).Sublist (m.arrivals ++ [entry])
    rw [← List.append_assoc]
    exact h.order.append_right [entry]
  . apply List.Perm.trans ?_ (h.conserved.append_right [entry])
    apply List.perm_iff_count.mpr
    intro entry'
    simp only [sent, List.count_append]
    omega
  . exact h.spaced
  . intro henabled
    have hsum := h.tokens henabled
    have hplus := htokens henabled
    simp only [List.length_append, List.length_singleton]
    omega
  . simp only [htotal]
    exact h.total
  . exact h.refused

theorem Core.enqueue {first : DownstreamQueueEntry} (h : m.Core (first :: (m.queue ++ [entry])))
    : ∃ m', m.enqueue entry = m'
        ∧ m'.Core (first :: m'.queue)
        ∧ m'.pending = m.pending
        ∧ m'.currentEndOfTransmissionTime = m.currentEndOfTransmissionTime
        ∧ m'.currentDelay = m.currentDelay
        ∧ m'.txSequenceNumber = m.txSequenceNumber
        ∧ m'.timers = m.timers
        ∧ m'.transmissions = m.transmissions := by
  have hsplit := DownstreamQueue.append_makeRoom m.queue
  generalize hroom : DownstreamQueue.makeRoom m.queue = room at hsplit
  obtain ⟨result, queue⟩ := room
  have hcore : Core { m with queue := queue ++ [entry] } (first :: (result ++ (queue ++ [entry]))) := by
    rw [← List.append_assoc, hsplit]
    exact h.congr rfl rfl rfl rfl rfl rfl
  obtain ⟨m', hfold, hcore', hqueue, hrest⟩ := hcore.drop
  refine ⟨m', ?_, ?_, hrest⟩
  . unfold MACLayer.enqueue DownstreamQueue.enqueue
    rw [hroom]
    exact hfold
  . rw [hqueue]
    exact hcore'

theorem Good.sequenceNumber_le (h : m.Good) {timer : TimedEvent} (htimer : timer ∈ m.timers)
    : timer.sequenceNumber ≤ m.txSequenceNumber := by
  rcases h.timers timer htimer with hlt | ⟨heq, _⟩
  . exact Nat.le_of_lt hlt
  . exact Nat.le_of_eq heq

theorem Good.sequenceNumber_lt (h : m.Good) (hpending : m.pending = none) {timer : TimedEvent}
    (htimer : timer ∈ m.timers)
    : timer.sequenceNumber < m.txSequenceNumber := by
  rcases h.timers timer htimer with hlt | ⟨_, _, hsome⟩
  . exact hlt
  . simp [hpending] at hsome

theorem processEntry_of_some (env : Env) (now delay : Int) {first : DownstreamQueueEntry}
    (hpending : m.pending = some first)
    : m.processEntry codec env now delay entry
        =
      if (m.enqueue entry).currentEndOfTransmissionTime ≤ now then
        (m.enqueue entry).handleDownstreamQueueEntry codec env now (m.enqueue entry).txSequenceNumber
      else
        m.enqueue entry := by
  unfold processEntry
  rw [hpending]

theorem Good.behind (h : m.Good) (codec : Codec UInt64) (hdelay : ∀ i, 0 ≤ env.delay i) (now delay : Int)
    {first : DownstreamQueueEntry} (hpending : m.pending = some first)
    (hcore : Core { m with arrivals := m.arrivals ++ [entry], flowControl := flowControl }
      (m.pending.toList ++ m.queue ++ [entry]))
    : ({ m with arrivals := m.arrivals ++ [entry], flowControl := flowControl }.processEntry codec
        env now delay entry).Good := by
  have hlist : m.pending.toList = [first] := by
    rw [hpending]
    rfl
  rw [hlist] at hcore
  obtain ⟨m', henqueue, hcore', hpending', htime, hcurrent, htx, htimers, htransmissions⟩ :=
    @Core.enqueue { m with arrivals := m.arrivals ++ [entry], flowControl := flowControl }
      entry first hcore
  simp only [hpending] at hpending'
  rw [processEntry_of_some
    (m := { m with arrivals := m.arrivals ++ [entry], flowControl := flowControl }) codec env now
    delay hpending]
  rw [henqueue]
  have hover : ∀ time, m.OverAt time → m'.OverAt time := by
    intro time htime t ht
    rw [htransmissions] at ht
    exact htime t ht
  split
  . next hle =>
    apply handleDownstreamQueueEntry_good codec hdelay hpending' hcore'
    . intro t ht
      rw [htime] at hle
      exact Int.le_trans (hover _ h.ended t ht) hle
    . intro timer htimer
      rw [htimers] at htimer
      rw [htx]
      exact h.sequenceNumber_le htimer
    . rfl
  . constructor
    . rw [hpending']
      exact hcore'
    . simp [hpending']
    . rw [hcurrent]
      exact h.delay
    . rw [htime]
      exact hover _ h.ended
    . simp [hpending']
    . intro timer htimer
      rw [htimers] at htimer
      rw [htx, htime, hpending', ← hpending]
      exact h.timers timer htimer
    . intro _
      rw [htimers, htx]
      exact h.outstanding (by simp [hpending])

variable {delay : Int}

theorem Good.ahead (h : m.Good) (codec : Codec UInt64) (hdelay : ∀ i, 0 ≤ env.delay i) (now : Int)
    (hnonneg : 0 ≤ delay) (hpending : m.pending = none)
    (hcore : Core { m with arrivals := m.arrivals ++ [entry], flowControl := flowControl }
      (m.pending.toList ++ m.queue ++ [entry]))
    : ({ m with arrivals := m.arrivals ++ [entry], flowControl := flowControl }.processEntry codec
        env now delay entry).Good := by
  have hqueue := h.idle hpending
  have hold := fun timer htimer => @Good.sequenceNumber_lt m h hpending timer htimer
  have hlist : m.pending.toList ++ m.queue ++ [entry] = [entry] := by
    rw [hpending, hqueue]
    rfl
  rw [hlist] at hcore
  unfold processEntry
  simp only [hpending]
  split
  . next hle =>
    have hover : ∀ time, now ≤ time → m.OverAt time := by
      intro time hnow t ht
      have hfree := h.free hpending t ht
      omega
    split
    . apply schedule_good
      . simp only [hqueue]
        exact hcore.congr rfl rfl rfl rfl rfl rfl
      . rfl
      . exact hnonneg
      . apply hover
        simp only
        omega
      . exact hold
    . apply handleDownstreamQueueEntry_good codec hdelay
      . rfl
      . simp only [hqueue]
        exact hcore.congr rfl rfl rfl rfl rfl rfl
      . exact hover now (Int.le_refl now)
      . intro timer htimer
        exact Nat.le_of_lt (hold timer htimer)
      . rfl
  . apply schedule_good
    . simp only [hqueue]
      exact hcore.congr rfl rfl rfl rfl rfl rfl
    . rfl
    . exact h.delay
    . exact h.ended
    . exact hold

theorem Good.accept (h : m.Good) (codec : Codec UInt64) (hdelay : ∀ i, 0 ≤ env.delay i) (now : Int)
    (hnonneg : 0 ≤ delay) (entry : DownstreamQueueEntry)
    (htotal : flowControl.totalTokensAvailable = m.flowControl.totalTokensAvailable)
    (htokens : m.flowControlEnable → flowControl.tokensAvailable + 1 = m.flowControl.tokensAvailable)
    : ({ m with arrivals := m.arrivals ++ [entry], flowControl := flowControl }.processEntry codec
        env now delay entry).Good := by
  have hcore := h.core.arrive entry htotal htokens
  obtain hpending | ⟨first, hpending⟩ := Option.eq_none_or_eq_some m.pending
  . exact h.ahead codec hdelay now hnonneg hpending hcore
  . exact h.behind codec hdelay now delay hpending hcore

theorem Good.refuse (h : m.Good) (henabled : m.flowControlEnable = true) (entry : DownstreamQueueEntry)
    : Good { m with arrivals := m.arrivals ++ [entry], refused := m.refused ++ [entry] } := by
  constructor
  . constructor
    . exact h.core.order.trans (List.sublist_append_left _ _)
    . change (m.sent ++ (m.pending.toList ++ m.queue) ++ m.overflow ++ (m.refused ++ [entry])).Perm
        (m.arrivals ++ [entry])
      rw [← List.append_assoc]
      exact h.core.conserved.append_right [entry]
    . exact h.core.spaced
    . exact h.core.tokens
    . exact h.core.total
    . intro hdisabled
      simp [henabled] at hdisabled
  . exact h.idle
  . exact h.delay
  . exact h.ended
  . exact h.free
  . exact h.timers
  . exact h.outstanding

theorem removeToken_of_false (h : flowControl.removeToken.1 = false)
    : flowControl.removeToken.2 = flowControl := by
  unfold FlowControlManager.removeToken at h ⊢
  split
  . rfl
  . split
    . rfl
    . simp_all

theorem Good.processDownstreamPacket (h : m.Good) (codec : Codec UInt64)
    (hdelay : ∀ i, 0 ≤ env.delay i) (now : Int) (hnonneg : 0 ≤ delay) (entry : DownstreamQueueEntry)
    : (m.processDownstreamPacket codec env now delay entry).Good := by
  unfold MACLayer.processDownstreamPacket
  simp only
  split
  . next henabled =>
    split
    . next hstatus =>
      apply h.accept codec hdelay now hnonneg entry
      . exact FlowControlManager.totalTokensAvailable_removeToken _
      . intro _
        exact FlowControlManager.tokensAvailable_removeToken hstatus
    . next hstatus =>
      have hsame := removeToken_of_false (Bool.eq_false_iff.mpr hstatus)
      rw [hsame]
      exact h.refuse henabled entry
  . next hdisabled =>
    apply h.accept codec hdelay now hnonneg entry
    . rfl
    . intro henabled
      exact absurd henabled hdisabled

theorem Good.withFlowControl (h : m.Good) (responses : List Nat)
    (htotal : flowControl.totalTokensAvailable = m.flowControl.totalTokensAvailable)
    (htokens : flowControl.tokensAvailable = m.flowControl.tokensAvailable)
    : Good { m with flowControl := flowControl, responses := responses } := by
  constructor
  . constructor
    . exact h.core.order
    . exact h.core.conserved
    . exact h.core.spaced
    . simp only [htotal, htokens]
      exact h.core.tokens
    . simp only [htotal]
      exact h.core.total
    . exact h.core.refused
  . exact h.idle
  . exact h.delay
  . exact h.ended
  . exact h.free
  . exact h.timers
  . exact h.outstanding

theorem Good.step (h : m.Good) (codec : Codec UInt64) {input : Input} (hdelays : input.NonnegDelays)
    (hstep : m.step codec input = some m')
    : m'.Good := by
  cases input with
  | packet env now delay entry =>
    cases hstep
    exact h.processDownstreamPacket codec hdelays.2 now hdelays.1 entry
  | timedEvent env index =>
    unfold MACLayer.step at hstep
    rw [Option.map_eq_some_iff] at hstep
    obtain ⟨timer, htimer, rfl⟩ := hstep
    exact h.timedEvent codec hdelays htimer
  | flowControlMessage tokens =>
    unfold MACLayer.step at hstep
    simp only at hstep
    split at hstep
    . cases hstep
      apply h.withFlowControl
      . exact FlowControlManager.totalTokensAvailable_processFlowControlMessage _ _
      . exact FlowControlManager.tokensAvailable_processFlowControlMessage _ _
    . cases hstep
      exact h

theorem good_postStart (flowControlEnable : Bool) (flowControlTokens : UInt16)
    : ((init flowControlEnable FlowControlManager.init).postStart flowControlTokens).Good := by
  have hlt := flowControlTokens.toNat_lt
  cases flowControlEnable with
  | false =>
    constructor
    . constructor <;> simp [postStart, init, sent, FlowControlManager.init]
    all_goals
      simp [postStart, init, OverAt]
  | true =>
    constructor
    . constructor <;>
        simp [postStart, init, sent, FlowControlManager.start,
          FlowControlManager.sendFlowControlResponseMessage, hlt]
    all_goals
      simp [postStart, init, OverAt]

structure SameBooks (m m' : MACLayer) : Prop where
  flowControlEnable : m'.flowControlEnable = m.flowControlEnable
  total : m'.flowControl.totalTokensAvailable = m.flowControl.totalTokensAvailable
  arrivals : m'.arrivals = m.arrivals
  refused : m'.refused = m.refused

theorem SameBooks.refl (m : MACLayer) : m.SameBooks m :=
  ⟨rfl, rfl, rfl, rfl⟩

theorem SameBooks.trans {m'' : MACLayer} (h : m.SameBooks m') (h' : m'.SameBooks m'')
    : m.SameBooks m'' := by
  constructor
  . exact h'.flowControlEnable.trans h.flowControlEnable
  . exact h'.total.trans h.total
  . exact h'.arrivals.trans h.arrivals
  . exact h'.refused.trans h.refused

theorem sameBooks_addToken (m : MACLayer) : m.SameBooks m.addToken := by
  obtain ⟨flowControl, responses, heq, htotal, _⟩ := addToken_eq m
  rw [heq]
  exact ⟨rfl, htotal, rfl, rfl⟩

theorem sameBooks_sendPending (env : Env) (sot : Int) (entry : DownstreamQueueEntry) (m : MACLayer)
    (queue : List DownstreamQueueEntry)
    : m.SameBooks (m.sendPending codec env sot entry queue) := by
  induction queue generalizing m env sot entry with
  | nil =>
    obtain ⟨henable, htotal, harrivals, hrefused⟩ := sameBooks_addToken m
    exact ⟨henable, htotal, harrivals, hrefused⟩
  | cons next queue ih =>
    obtain ⟨henable, htotal, harrivals, hrefused⟩ := sameBooks_addToken m
    unfold sendPending
    simp only
    split
    . exact ⟨henable, htotal, harrivals, hrefused⟩
    . apply SameBooks.trans ?_ (ih _ _ _ _)
      exact ⟨henable, htotal, harrivals, hrefused⟩

theorem sameBooks_handleDownstreamQueueEntry (env : Env) (sot : Int) (sequenceNumber : Nat) (m : MACLayer)
    : m.SameBooks (m.handleDownstreamQueueEntry codec env sot sequenceNumber) := by
  unfold handleDownstreamQueueEntry
  simp only
  split
  . split
    . exact sameBooks_sendPending codec env _ _ m m.queue
    . exact .refl m
  . exact .refl m

theorem sameBooks_enqueue (entry : DownstreamQueueEntry) (m : MACLayer)
    : m.SameBooks (m.enqueue entry) := by
  have hfold : ∀ (result : List DownstreamQueueEntry) (m : MACLayer),
      m.SameBooks (result.foldl
          (fun m dropped => { m with overflow := m.overflow ++ [dropped] }.addToken) m) := by
    intro result
    induction result with
    | nil => exact .refl
    | cons dropped result ih =>
      intro m
      obtain ⟨henable, htotal, harrivals, hrefused⟩ := sameBooks_addToken
        { m with overflow := m.overflow ++ [dropped] }
      apply SameBooks.trans ?_ (ih _)
      exact ⟨henable, htotal, harrivals, hrefused⟩
  obtain ⟨henable, htotal, harrivals, hrefused⟩ :=
    hfold (DownstreamQueue.enqueue m.queue entry).1
      { m with queue := (DownstreamQueue.enqueue m.queue entry).2 }
  exact ⟨henable, htotal, harrivals, hrefused⟩

theorem sameBooks_processEntry (env : Env) (now delay : Int) (entry : DownstreamQueueEntry) (m : MACLayer)
    : m.SameBooks (m.processEntry codec env now delay entry) := by
  unfold processEntry
  split
  . have henqueue := sameBooks_enqueue entry m
    simp only
    split
    . exact henqueue.trans (sameBooks_handleDownstreamQueueEntry codec env now _ _)
    . exact henqueue
  . simp only
    split
    . split
      . exact ⟨rfl, rfl, rfl, rfl⟩
      . apply SameBooks.trans ?_ (sameBooks_handleDownstreamQueueEntry codec env now _ _)
        exact ⟨rfl, rfl, rfl, rfl⟩
    . exact ⟨rfl, rfl, rfl, rfl⟩

theorem refused_processDownstreamPacket (env : Env) (now delay : Int) (entry : DownstreamQueueEntry)
    (m : MACLayer)
    : (m.processDownstreamPacket codec env now delay entry).refused
        =
      if m.flowControlEnable ∧ (m.flowControl.ackPending ∨ m.flowControl.tokensAvailable = 0) then
        m.refused ++ [entry]
      else
        m.refused := by
  have hstatus : m.flowControl.removeToken.1 = true
      ↔ ¬(m.flowControl.ackPending ∨ m.flowControl.tokensAvailable = 0) := by
    unfold FlowControlManager.removeToken
    split
    . simp_all
    . split
      . simp_all
      . simp_all
  unfold processDownstreamPacket
  simp only
  split
  . next henabled =>
    split
    . next htrue =>
      rw [if_neg (fun h => hstatus.mp htrue h.2)]
      exact (sameBooks_processEntry codec env now delay entry _).refused
    . next hfalse =>
      rw [if_pos ⟨henabled, Decidable.not_not.mp (mt hstatus.mpr hfalse)⟩]
  . next hdisabled =>
    rw [if_neg (fun h => hdisabled h.1)]
    exact (sameBooks_processEntry codec env now delay entry _).refused

theorem arrivals_step {input : Input} (hstep : m.step codec input = some m')
    : m'.arrivals = m.arrivals ++ input.entry?.toList
        ∧ m'.flowControlEnable = m.flowControlEnable
        ∧ m'.flowControl.totalTokensAvailable = m.flowControl.totalTokensAvailable := by
  cases input with
  | packet env now delay entry =>
    cases hstep
    unfold processDownstreamPacket
    simp only
    split
    . split
      . obtain ⟨henable, htotal, harrivals, _⟩ :=
          sameBooks_processEntry codec env now delay entry
            { m with arrivals := m.arrivals ++ [entry], flowControl := m.flowControl.removeToken.2 }
        exact ⟨harrivals, henable, htotal.trans (FlowControlManager.totalTokensAvailable_removeToken _)⟩
      . exact ⟨rfl, rfl, FlowControlManager.totalTokensAvailable_removeToken _⟩
    . obtain ⟨henable, htotal, harrivals, _⟩ :=
        sameBooks_processEntry codec env now delay entry { m with arrivals := m.arrivals ++ [entry] }
      exact ⟨harrivals, henable, htotal⟩
  | timedEvent env index =>
    unfold MACLayer.step at hstep
    rw [Option.map_eq_some_iff] at hstep
    obtain ⟨timer, _, rfl⟩ := hstep
    obtain ⟨henable, htotal, harrivals, _⟩ :=
      sameBooks_handleDownstreamQueueEntry codec env timer.sot timer.sequenceNumber
        { m with timers := m.timers.eraseIdx index }
    exact ⟨harrivals.trans (List.append_nil _).symm, henable, htotal⟩
  | flowControlMessage tokens =>
    unfold MACLayer.step at hstep
    simp only at hstep
    split at hstep
    . cases hstep
      exact ⟨(List.append_nil _).symm, rfl,
        FlowControlManager.totalTokensAvailable_processFlowControlMessage _ _⟩
    . cases hstep
      exact ⟨(List.append_nil _).symm, rfl, rfl⟩

theorem arrivals_run {inputs : List Input} (hrun : Emane.run (step codec) m inputs = some m')
    : m'.arrivals = m.arrivals ++ inputs.filterMap Input.entry?
        ∧ m'.flowControlEnable = m.flowControlEnable
        ∧ m'.flowControl.totalTokensAvailable = m.flowControl.totalTokensAvailable := by
  induction inputs generalizing m with
  | nil =>
    cases hrun
    exact ⟨(List.append_nil _).symm, rfl, rfl⟩
  | cons input inputs ih =>
    rw [run_cons, Option.bind_eq_some_iff] at hrun
    obtain ⟨m₁, hstep, hrun⟩ := hrun
    obtain ⟨harrivals, henable, htotal⟩ := arrivals_step codec hstep
    obtain ⟨harrivals', henable', htotal'⟩ := ih hrun
    refine ⟨?_, henable'.trans henable, htotal'.trans htotal⟩
    rw [harrivals', harrivals, List.append_assoc, List.filterMap_cons]
    cases input.entry? with
    | none => rfl
    | some entry => rfl

/--
In every run packets leave in the order they came in, and no transmission starts before the one
before it is over.
-/
theorem transmits_in_turn (codec : Codec UInt64) (flowControlEnable : Bool)
    (flowControlTokens : UInt16) {inputs : List Input}
    (hdelays : ∀ input ∈ inputs, input.NonnegDelays)
    (hrun : Emane.run (step codec) ((init flowControlEnable FlowControlManager.init).postStart
      flowControlTokens) inputs = some m)
    : (m.sent ++ (m.pending.toList ++ m.queue)).Sublist (inputs.filterMap Input.entry?)
        ∧ (m.sent ++ (m.pending.toList ++ m.queue) ++ m.overflow ++ m.refused).Perm
          (inputs.filterMap Input.entry?)
        ∧ (∀ env now delay entry, (m.processDownstreamPacket codec env now delay entry).refused
          =
        if flowControlEnable ∧ (m.flowControl.ackPending ∨ m.flowControl.tokensAvailable = 0)
          then m.refused ++ [entry] else m.refused)
        ∧ (flowControlEnable = false → m.refused = [])
        ∧ m.transmissions.IsChain (fun t t' => t.sot + t.entry.durationMicroseconds ≤ t'.sot)
        ∧ (flowControlEnable → m.flowControl.tokensAvailable + m.queue.length
          + m.pending.toList.length = flowControlTokens.toNat)
        ∧ (m.pending.isSome → ∃ timer ∈ m.timers, timer.sequenceNumber = m.txSequenceNumber) := by
  have hgood : m.Good := by
    have hkeep : ∀ m input m', Good m → input.NonnegDelays → step codec m input = some m' → Good m' := by
      intro m input m' h hdelays hstep
      exact h.step codec hdelays hstep
    exact run_inv hkeep (good_postStart flowControlEnable flowControlTokens)
      (guarded_of_forall hdelays) hrun
  obtain ⟨harrivals, henable, htotal⟩ := arrivals_run codec hrun
  have hstart : ((init flowControlEnable FlowControlManager.init).postStart
    flowControlTokens).arrivals = []
      ∧ ((init flowControlEnable FlowControlManager.init).postStart
          flowControlTokens).flowControlEnable = flowControlEnable := by
    cases flowControlEnable with
    | false => exact ⟨rfl, rfl⟩
    | true => exact ⟨rfl, rfl⟩
  rw [hstart.1, List.nil_append] at harrivals
  rw [hstart.2] at henable
  obtain ⟨horder, hconserved, hspaced, htokens, _, hrefused⟩ := hgood.core
  rw [harrivals] at horder hconserved
  refine ⟨horder, hconserved, ?_, ?_, hspaced, ?_, hgood.outstanding⟩
  . intro env now delay entry
    rw [← henable]
    exact refused_processDownstreamPacket codec env now delay entry m
  . rw [← henable]
    exact hrefused
  . intro htrue
    have hsum := htokens (henable.trans htrue)
    rw [htotal, htrue, List.length_append] at hsum
    have hstarted : ((init true FlowControlManager.init).postStart
      flowControlTokens).flowControl.totalTokensAvailable
        = flowControlTokens.toNat := rfl
    omega

end

namespace MACHeaderMessage

def fields (dataRatebps : UInt64) : List Nat :=
  [dataRatebps.toNat]

def ofFields : List Nat → Option UInt64
  | [dataRatebps] => some (.ofNat dataRatebps)
  | _ => none

theorem fields_lt (dataRatebps : UInt64) : ∀ n ∈ fields dataRatebps, n < 2^64 := by
  intro n hn
  have hdataRatebps := dataRatebps.toNat_lt
  simp only [fields, List.mem_cons, List.not_mem_nil, or_false] at hn
  omega

theorem ofFields_fields (dataRatebps : UInt64) : ofFields (fields dataRatebps) = some dataRatebps := by
  simp [fields, ofFields]

def protobuf : Codec UInt64 :=
  Protobuf.numbers fields ofFields 1 (fun _ => rfl) (by decide) (by decide) fields_lt ofFields_fields

end MACHeaderMessage

def exampleEntry (segment : Bytes) : DownstreamQueueEntry where
  pkt := .create ⟨1, NEM_BROADCAST_MAC_ADDRESS, 0, 0, .ofByte 0⟩ segment
  acquireTime := 100
  durationMicroseconds := 50
  dataRatebps := 1000000

def exampleInputs (tokens : Nat) : List Input :=
  [
    .flowControlMessage tokens,
    .packet ⟨fun _ => 100, fun _ => 10⟩ 100 10 (exampleEntry [1]),
    .packet ⟨fun _ => 100, fun _ => 10⟩ 100 10 (exampleEntry [2]),
    .timedEvent ⟨fun _ => 110, fun _ => 10⟩ 0
  ]

theorem nonnegDelays_exampleInputs (tokens : Nat)
    : ∀ input ∈ exampleInputs tokens, input.NonnegDelays := by
  simp [exampleInputs, Input.NonnegDelays]

theorem transmits_in_turn_two
    : ∃ m, Emane.run (step MACHeaderMessage.protobuf)
        ((init true FlowControlManager.init).postStart 2) (exampleInputs 2) = some m
        ∧ m.sent = [exampleEntry [1]]
        ∧ m.flowControl.tokensAvailable + m.queue.length + m.pending.toList.length = 2 := by
  have hmap : (Emane.run (step MACHeaderMessage.protobuf)
    ((init true FlowControlManager.init).postStart 2) (exampleInputs 2)).map sent
      = some [exampleEntry [1]] := by
    decide +kernel
  obtain ⟨m, hrun, hsent⟩ := Option.map_eq_some_iff.mp hmap
  obtain ⟨_, _, _, _, _, htokens, _⟩ :=
    transmits_in_turn MACHeaderMessage.protobuf true 2 (nonnegDelays_exampleInputs 2) hrun
  exact ⟨m, hrun, hsent, htokens rfl⟩

theorem refused_without_token
    : ¬ ∀ (inputs : List Input) (m : MACLayer), (∀ input ∈ inputs, input.NonnegDelays) →
          Emane.run (step MACHeaderMessage.protobuf)
            ((init true FlowControlManager.init).postStart 1) inputs = some m →
          ∀ entry ∈ inputs.filterMap Input.entry?, entry ∈ m.sent ++ (m.pending.toList ++ m.queue)
              ++ m.overflow := by
  intro h
  have hmap : (Emane.run (step MACHeaderMessage.protobuf)
    ((init true FlowControlManager.init).postStart 1) (exampleInputs 1)).map
      (fun m => m.sent ++ (m.pending.toList ++ m.queue) ++ m.overflow) = some [exampleEntry [1]] := by
    decide +kernel
  obtain ⟨m, hrun, hall⟩ := Option.map_eq_some_iff.mp hmap
  have hmem := h (exampleInputs 1) m (nonnegDelays_exampleInputs 1) hrun (exampleEntry [2])
    (by simp [exampleInputs, Input.entry?])
  rw [hall] at hmem
  revert hmem
  decide

end MACLayer
end RFPipe
end Emane

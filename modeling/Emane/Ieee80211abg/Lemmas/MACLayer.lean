import Emane.FlowControl.Lemmas.Handshake
import Emane.Ieee80211abg.Lemmas.TxState
import Emane.Ieee80211abg.Lemmas.DownstreamQueue

/-!
This module contains the loop over the pending entry: it comes to an end, and what every turn
keeps holds in the end.
-/

namespace Emane
namespace Ieee80211abg

def Action.dropped : Action → Option DownstreamQueueEntry
  | .drop entry => some entry
  | _ => none

namespace MACLayer

open TxState

section

variable (cfg : MACConfig) (m : MACLayer)

theorem addToken_eq
    : ∃ (flowControl : FlowControlManager) (tokens : List Nat),
        m.addToken cfg = { m with flowControl := flowControl, actions :=
            m.actions ++ tokens.map .flowControl } := by
  unfold addToken
  split
  . exact ⟨_, _, rfl⟩
  . exact ⟨m.flowControl, [], by simp⟩

@[simp]
theorem txState_addToken : (m.addToken cfg).txState = m.txState := by
  obtain ⟨_, _, heq⟩ := m.addToken_eq cfg
  rw [heq]

@[simp]
theorem pending_addToken : (m.addToken cfg).pending = m.pending := by
  obtain ⟨_, _, heq⟩ := m.addToken_eq cfg
  rw [heq]

@[simp]
theorem queue_addToken : (m.addToken cfg).queue = m.queue := by
  obtain ⟨_, _, heq⟩ := m.addToken_eq cfg
  rw [heq]

@[simp]
theorem radio_addToken : (m.addToken cfg).radio = m.radio := by
  obtain ⟨_, _, heq⟩ := m.addToken_eq cfg
  rw [heq]

@[simp]
theorem timers_addToken : (m.addToken cfg).timers = m.timers := by
  obtain ⟨_, _, heq⟩ := m.addToken_eq cfg
  rw [heq]

variable (tick : Tick) (entry : DownstreamQueueEntry)

theorem processPending_spec
    : (m.processPending cfg tick entry).txState = (m.txState.process cfg tick entry m.radio).txState
      ∧ (m.processPending cfg tick entry).radio = (m.txState.process cfg tick entry m.radio).radio
      ∧ (m.processPending cfg tick entry).timers = m.timers := by
  unfold processPending
  simp only
  split
  . exact ⟨rfl, rfl, rfl⟩
  . simp [next, processEntry, act]

theorem actions_processPending
    : ∃ (next : List DownstreamQueueEntry) (tokens : List Nat), (m.processPending cfg tick entry).actions
        =
        m.actions ++ (.process m.txState entry tick.start
          :: ((m.txState.process cfg tick entry m.radio).transmission.toList.map .transmit
            ++ ((m.txState.process cfg tick entry m.radio).departure.toList.map
              (.leave (m.txState.process cfg tick entry m.radio).entry)
              ++ (next.map (.dequeue m.queue.categories) ++ tokens.map .flowControl)))) := by
  unfold processPending
  simp only
  split
  . next h => exact ⟨[], [], by simp [processEntry, act, h]⟩
  . next departure h =>
    unfold next
    obtain ⟨flowControl, tokens, heq⟩ := addToken_eq cfg
      ({ (m.processEntry cfg tick entry).act [.leave
          (m.txState.process cfg tick entry m.radio).entry departure] with
        pending := m.queue.dequeue.1
        queue := m.queue.dequeue.2 }.act (m.queue.dequeue.1.toList.map (.dequeue m.queue.categories)))
    refine ⟨m.queue.dequeue.1.toList, tokens, ?_⟩
    have hactions := congrArg MACLayer.actions heq
    rw [h]
    simpa [processEntry, act] using hactions

theorem pending_processPending
    : ((m.txState.process cfg tick entry m.radio).departure = none
        ∧ (m.processPending cfg tick entry).pending = some
          (m.txState.process cfg tick entry m.radio).entry
        ∧ (m.processPending cfg tick entry).queue = m.queue)
      ∨ ((m.txState.process cfg tick entry m.radio).departure ≠ none
        ∧ (m.processPending cfg tick entry).pending = m.queue.dequeue.1
        ∧ (m.processPending cfg tick entry).queue = m.queue.dequeue.2) := by
  unfold processPending
  simp only
  split
  . next h => exact Or.inl ⟨h, rfl, rfl⟩
  . next departure h =>
      exact Or.inr ⟨by simp [h], by simp [next, processEntry, act], by simp [next, processEntry, act]⟩

theorem foldl_drop_eq (dropped : List DownstreamQueueEntry)
    : ∃ (flowControl : FlowControlManager) (actions : List Action),
        dropped.foldl (fun m e => (m.act [.drop e]).addToken cfg) m
          = { m with flowControl := flowControl, actions := m.actions ++ actions }
        ∧ actions.filterMap Action.dropped = dropped
        ∧ ∀ a ∈ actions, (∃ entry, a = .drop entry) ∨ ∃ tokens, a = .flowControl tokens := by
  induction dropped generalizing m with
  | nil => exact ⟨m.flowControl, [], by simp, rfl, by simp⟩
  | cons e dropped ih =>
    rw [List.foldl_cons]
    obtain ⟨flowControl, tokens, htoken⟩ := (m.act [.drop e]).addToken_eq cfg
    obtain ⟨flowControl', actions, heq, hdropped, hkinds⟩ := ih ((m.act [.drop e]).addToken cfg)
    refine ⟨flowControl', .drop e :: (tokens.map .flowControl ++ actions), ?_, ?_, ?_⟩
    . rw [heq, htoken]
      simp [act]
    . have hnone : (tokens.map Action.flowControl).filterMap Action.dropped = [] := by
        simp [List.filterMap_eq_nil_iff, Action.dropped]
      have hfirst : Action.dropped (.drop e) = some e := rfl
      rw [List.filterMap_cons_some hfirst, List.filterMap_append, hnone, hdropped, List.nil_append]
    . intro a ha
      simp only [List.mem_cons, List.mem_append, List.mem_map] at ha
      rcases ha with rfl | ⟨n, -, rfl⟩ | hrest
      . exact Or.inl ⟨e, rfl⟩
      . exact Or.inr ⟨n, rfl⟩
      . exact hkinds a hrest

theorem enqueue_eq
    : ∃ (flowControl : FlowControlManager) (actions : List Action),
        m.enqueue cfg entry
          = { m with queue := (m.queue.enqueue entry).2, flowControl := flowControl, actions :=
            m.actions ++ actions }
        ∧ actions.filterMap Action.dropped = (m.queue.enqueue entry).1
        ∧ ∀ a ∈ actions, (∃ entry, a = .drop entry) ∨ ∃ tokens, a = .flowControl tokens := by
  exact foldl_drop_eq cfg { m with queue := (m.queue.enqueue entry).2 } (m.queue.enqueue entry).1

theorem removeToken_eq
    : ∃ flowControl : FlowControlManager,
        (m.removeToken cfg).2 = { m with flowControl := flowControl } := by
  unfold removeToken
  split
  . exact ⟨_, rfl⟩
  . exact ⟨m.flowControl, rfl⟩

theorem processUpstreamPacket_eq (env : Env) (checks : Nat → Bool) (pkt : UpstreamPacket)
    : ∃ radio duplicateMap actions,
        m.processUpstreamPacket cfg env checks pkt
          = { m with radio := radio, duplicateMap := duplicateMap, actions := m.actions ++ actions }
        ∧ (radio = m.radio ∨ radio.sequenceNumber = m.radio.sequenceNumber + 1)
        ∧ ∀ a ∈ actions, (∃ transmission, a = .transmit transmission)
            ∨ ∃ pkt, a = .sendUpstreamPacket pkt := by
  have hsame : ∃ radio duplicateMap actions,
      m = { m with radio := radio, duplicateMap := duplicateMap, actions := m.actions ++ actions }
      ∧ (radio = m.radio ∨ radio.sequenceNumber = m.radio.sequenceNumber + 1)
      ∧ ∀ a ∈ actions, (∃ transmission, a = .transmit transmission)
          ∨ ∃ pkt, a = .sendUpstreamPacket pkt :=
    ⟨m.radio, m.duplicateMap, [], by simp, Or.inl rfl, by simp⟩
  have hanswer : ∀ params, ∃ radio actions,
      m.answerRts cfg env.now params = { m with radio := radio, actions := m.actions ++ actions }
      ∧ (radio = m.radio ∨ radio.sequenceNumber = m.radio.sequenceNumber + 1)
      ∧ ∀ a ∈ actions, ∃ transmission, a = .transmit transmission := by
    intro params
    unfold answerRts
    split
    . refine ⟨_, _, rfl, Or.inr ?_, ?_⟩
      . simp [sendDownstreamUnicastCts, sendDownstreamMessage]
      . intro a ha
        exact ⟨_, List.mem_singleton.mp ha⟩
    . exact ⟨m.radio, [], by simp, Or.inl rfl, by simp⟩
  have hdata : ∀ (m' : MACLayer) params pkt, ∃ duplicateMap actions,
      m'.handleData cfg env checks params pkt
        = { m' with duplicateMap := duplicateMap, actions := m'.actions ++ actions }
      ∧ ∀ a ∈ actions, ∃ pkt, a = .sendUpstreamPacket pkt := by
    intro m' params pkt
    have hduplicate : ∃ duplicateMap, (m'.isDuplicate env.test params.srcNEM params.sequenceNumber).2
        = { m' with duplicateMap := duplicateMap } := by
      unfold isDuplicate
      split
      . exact ⟨_, rfl⟩
      . exact ⟨_, rfl⟩
    obtain ⟨duplicateMap, hduplicate⟩ := hduplicate
    unfold handleData
    simp only [hduplicate]
    have hquiet : ∃ duplicateMap' actions, ({ m' with duplicateMap := duplicateMap } : MACLayer)
        = { m' with duplicateMap := duplicateMap', actions := m'.actions ++ actions }
        ∧ ∀ a ∈ actions, ∃ pkt, a = Action.sendUpstreamPacket pkt := ⟨duplicateMap, [], by simp, by simp⟩
    split
    . exact hquiet
    . split
      . split
        . exact hquiet
        . exact ⟨duplicateMap, [.sendUpstreamPacket pkt], rfl,
            fun a ha => ⟨pkt, List.mem_singleton.mp ha⟩⟩
      . exact hquiet
  unfold processUpstreamPacket
  split
  . exact hsame
  . split
    . unfold handleUpstreamPacket
      simp only
      split
      . split
        . exact hsame
        . next params _ =>
          split
          . exact hsame
          . obtain ⟨radio, actions, hanswer, hradio, hkinds⟩ := hanswer params
            obtain ⟨duplicateMap, actions', hdata, hkinds'⟩ := hdata
              (m.answerRts cfg env.now params) params _
            refine ⟨radio, duplicateMap, actions ++ actions', ?_, hradio, ?_⟩
            . rw [hdata, hanswer]
              simp
            . intro a ha
              rcases List.mem_append.mp ha with h | h
              . exact Or.inl (hkinds a h)
              . exact Or.inr (hkinds' a h)
      . exact hsame
    . exact hsame

end

theorem turns_pos (st : TxState) (entry : DownstreamQueueEntry) : 0 < turns st entry := by
  rw [turns_eq]
  split
  all_goals omega

def queueWork (categories : List AccessCategory) : Nat :=
  ((DownstreamQueue.entries categories).map (turns .idle)).sum

theorem work_eq {m : MACLayer} {entry : DownstreamQueueEntry} (h : m.pending = some entry)
    : m.work = turns m.txState entry + queueWork m.queue.categories := by
  have hsum : ∀ ps : List AccessCategory, (ps.map (fun p => (p.queue.map (turns .idle)).sum)).sum
      = queueWork ps := by
    intro ps
    induction ps with
    | nil => rfl
    | cons p ps ih =>
      rw [List.map_cons, List.sum_cons, ih]
      simp [queueWork, DownstreamQueue.entries_cons]
  unfold work
  rw [h]
  rw [hsum]

theorem work_processPending (cfg : MACConfig) (tick : Tick) {m : MACLayer} {entry : DownstreamQueueEntry}
    (h : m.pending = some entry)
    : (m.processPending cfg tick entry).work < m.work := by
  obtain ⟨hstate, -, -⟩ := m.processPending_spec cfg tick entry
  rcases m.pending_processPending cfg tick entry with ⟨hdeparture, hpending, hqueue⟩ | ⟨hdeparture,
    hpending, hqueue⟩
  . have hturns := turns_process cfg tick entry m.radio hdeparture
    rw [work_eq h, work_eq hpending, hstate, hqueue]
    omega
  . have hperm := (m.queue.dequeue_perm.map (turns .idle)).sum_eq
    have hpos := turns_pos m.txState entry
    have hidle : (m.txState.process cfg tick entry m.radio).txState = .idle := by
      rcases phase_process cfg tick entry m.radio m.txState with ⟨hnone, -⟩ | ⟨-, hidle, -⟩
      . exact absurd hnone hdeparture
      . exact hidle
    rw [work_eq h]
    cases hnext : m.queue.dequeue.1 with
    | none =>
      rw [hnext] at hpending
      simp only [work, hpending]
      omega
    | some entry' =>
      rw [hnext] at hpending hperm
      rw [work_eq hpending, hstate, hidle, hqueue]
      simp only [Option.toList_some, List.singleton_append, List.map_cons, List.sum_cons] at hperm
      unfold queueWork
      omega

theorem go_rule (cfg : MACConfig) (env : Env) {inv : Nat → MACLayer → Prop} {post : MACLayer → Prop}
    (hnone : ∀ k m, inv k m → m.pending = none → post m)
    (hwait : ∀ k m entry time, inv k m → m.pending = some entry →
      (m.processPending cfg (env.tick k) entry).pending.bind
        (m.processPending cfg (env.tick k) entry).txState.getWaitTime = some time →
      (env.tick k).check < time → post ((m.processPending cfg (env.tick k) entry).schedule time))
    (hturn : ∀ k m entry, inv k m → m.pending = some entry →
      (∀ time, (m.processPending cfg (env.tick k) entry).pending.bind
        (m.processPending cfg (env.tick k) entry).txState.getWaitTime = some time →
        time ≤ (env.tick k).check) → inv (k + 1) (m.processPending cfg (env.tick k) entry))
    {fuel k : Nat} {m : MACLayer} (hfuel : m.work ≤ fuel) (h : inv k m)
    : post (handleDownstreamQueueEntry.go cfg env fuel k m) := by
  induction fuel generalizing k m with
  | zero =>
    cases hpending : m.pending with
    | none => exact hnone k m h hpending
    | some entry =>
      have hpos := turns_pos m.txState entry
      rw [work_eq hpending] at hfuel
      omega
  | succ fuel ih =>
    unfold handleDownstreamQueueEntry.go
    split
    . next hpending => exact hnone k m h hpending
    . next entry hpending =>
      have hwork := work_processPending cfg (env.tick k) hpending
      have hless : (m.processPending cfg (env.tick k) entry).work ≤ fuel := by omega
      simp only
      split
      . next time htime =>
        split
        . next hlate => exact hwait k m entry time h hpending htime hlate
        . next hreached =>
          refine ih hless (hturn k m entry h hpending ?_)
          intro time' htime'
          obtain rfl := Option.some.inj (htime.symm.trans htime')
          omega
      . next htime =>
        refine ih hless (hturn k m entry h hpending ?_)
        intro time' htime'
        rw [htime] at htime'
        cases htime'

end MACLayer
end Ieee80211abg
end Emane

import Emane.Ieee80211abg.Lemmas.MACLayer

/-!
This module contains the accounts of the MAC layer: where the packets are that it has accepted,
where the tokens are, and what is counted of the packets that it has dropped.
-/

namespace Emane
namespace Ieee80211abg

open DownstreamQueue

namespace Action

def accepted : Action → Option DownstreamQueueEntry
  | .accept entry => some entry
  | _ => none

def departed : Action → Option DownstreamQueueEntry
  | .leave entry _ => some entry
  | .drop entry => some entry
  | _ => none

def InOrder (before : List Action) : Action → Prop
  | .dequeue categories entry =>
    IsNext categories entry ∧ ∀ p ∈ categories, p.queue.Sublist (before.filterMap accepted)
  | _ => True

structure Quiet (a : Action) : Prop where
  accepted : a.accepted = none
  departed : a.departed = none
  inOrder : ∀ before, a.InOrder before

theorem quiet_process (st : TxState) (entry : DownstreamQueueEntry) (time : Nat)
    : (process st entry time).Quiet :=
  ⟨rfl, rfl, fun _ => trivial⟩

theorem quiet_transmit (transmission : Transmission) : (transmit transmission).Quiet :=
  ⟨rfl, rfl, fun _ => trivial⟩

theorem quiet_flowControl (tokens : Nat) : (flowControl tokens).Quiet :=
  ⟨rfl, rfl, fun _ => trivial⟩

theorem quiet_sendUpstreamPacket (pkt : UpstreamPacket) : (sendUpstreamPacket pkt).Quiet :=
  ⟨rfl, rfl, fun _ => trivial⟩

theorem quiet_flowControlError (pkt : DownstreamPacket) : (flowControlError pkt).Quiet :=
  ⟨rfl, rfl, fun _ => trivial⟩

end Action

namespace MACLayer

open TxState

def number (origin : PacketInfo × Bytes × Nat × Nat) (entries : List DownstreamQueueEntry) : Nat :=
  entries.countP (fun entry => entry.origin = origin)

@[simp]
theorem number_nil (origin : PacketInfo × Bytes × Nat × Nat) : number origin [] = 0 := by
  rfl

@[simp]
theorem number_append (origin : PacketInfo × Bytes × Nat × Nat)
    (entries entries' : List DownstreamQueueEntry)
    : number origin (entries ++ entries') = number origin entries + number origin entries' := by
  apply List.countP_append

theorem number_cons (origin : PacketInfo × Bytes × Nat × Nat) (entry : DownstreamQueueEntry)
    (entries : List DownstreamQueueEntry)
    : number origin (entry :: entries) = number origin [entry] + number origin entries := by
  apply number_append origin [entry] entries

theorem number_singleton {origin : PacketInfo × Bytes × Nat × Nat} {entry entry' : DownstreamQueueEntry}
    (h : entry.origin = entry'.origin)
    : number origin [entry] = number origin [entry'] := by
  unfold number
  rw [List.countP_singleton, List.countP_singleton, h]

def InOrder (actions : List Action) : Prop :=
  ∀ before a after, actions = before ++ a :: after → a.InOrder before

theorem inOrder_nil : InOrder [] := by
  intro before a after h
  simp at h

variable {actions : List Action}

theorem inOrder_concat {a : Action} (h : InOrder actions) (ha : a.InOrder actions)
    : InOrder (actions ++ [a]) := by
  intro before b after heq
  rcases List.eq_nil_or_concat after with rfl | ⟨after, c, rfl⟩
  . obtain ⟨rfl, hab⟩ := List.append_inj' heq rfl
    obtain rfl := List.singleton_inj.mp hab
    exact ha
  . rw [List.concat_eq_append, ← List.cons_append, ← List.append_assoc] at heq
    obtain ⟨heq, -⟩ := List.append_inj' heq rfl
    exact h before b after heq

theorem inOrder_append {actions' : List Action} (h : InOrder actions) (hquiet : ∀ a ∈ actions', a.Quiet)
    : InOrder (actions ++ actions') := by
  induction actions' generalizing actions with
  | nil =>
    rw [List.append_nil]
    exact h
  | cons a actions' ih =>
    rw [List.append_cons]
    apply ih
    . apply inOrder_concat h
      exact (hquiet a (by simp)).inOrder actions
    . intro b hb
      exact hquiet b (by simp [hb])

theorem filterMap_accepted_of_quiet (h : ∀ a ∈ actions, a.Quiet)
    : actions.filterMap Action.accepted = [] := by
  rw [List.filterMap_eq_nil_iff]
  exact fun a ha => (h a ha).accepted

theorem filterMap_departed_of_quiet (h : ∀ a ∈ actions, a.Quiet)
    : actions.filterMap Action.departed = [] := by
  rw [List.filterMap_eq_nil_iff]
  exact fun a ha => (h a ha).departed

/--
The accounts of the layer with `total` tokens, of which `owed` are neither available nor with a
packet. What is `held` are packets that are accepted and not in a place yet.
-/
structure Accounts (total owed : Nat) (held : List DownstreamQueueEntry) (m : MACLayer) : Prop where
  totalTokens : m.flowControl.totalTokensAvailable = total
  tokens : m.flowControl.tokensAvailable + (entries m.queue.categories).length
    + m.pending.toList.length + owed = total
  custody : ∀ origin, number origin (m.actions.filterMap Action.accepted)
    =
    number origin (m.actions.filterMap Action.departed) + number origin m.pending.toList
      + number origin (entries m.queue.categories) + number origin held
  queued : ∀ p ∈ m.queue.categories, p.queue.Sublist (m.actions.filterMap Action.accepted)
  inOrder : InOrder m.actions

section

variable {cfg : MACConfig} {m : MACLayer} {total owed : Nat} {held : List DownstreamQueueEntry}

theorem Accounts.of_eq {m' : MACLayer} (h : m.Accounts total owed held)
    (hflow : m'.flowControl = m.flowControl)
    (hpending : m'.pending = m.pending) (hqueue : m'.queue = m.queue) (hactions : m'.actions = m.actions)
    : m'.Accounts total owed held := by
  constructor
  . rw [hflow]
    exact h.totalTokens
  . rw [hflow, hqueue, hpending]
    exact h.tokens
  . rw [hactions, hqueue, hpending]
    exact h.custody
  . rw [hactions, hqueue]
    exact h.queued
  . rw [hactions]
    exact h.inOrder

theorem accounts_act (h : m.Accounts total owed held) {actions : List Action}
    (hquiet : ∀ a ∈ actions, a.Quiet)
    : (m.act actions).Accounts total owed held := by
  constructor
  . exact h.totalTokens
  . exact h.tokens
  . simp only [act, List.filterMap_append, filterMap_accepted_of_quiet hquiet,
      filterMap_departed_of_quiet hquiet,
      List.append_nil]
    exact h.custody
  . simp only [act, List.filterMap_append, filterMap_accepted_of_quiet hquiet, List.append_nil]
    exact h.queued
  . apply inOrder_append h.inOrder hquiet

theorem accounts_accept (h : m.Accounts total owed held) (entry : DownstreamQueueEntry)
    : (m.act [.accept entry]).Accounts total owed (entry :: held) := by
  constructor
  . exact h.totalTokens
  . exact h.tokens
  . intro origin
    have hcustody := h.custody origin
    simp only [act, List.filterMap_append, number_append]
    simp only [List.filterMap_cons, Action.accepted, Action.departed, List.filterMap_nil, number_nil]
    rw [number_cons origin entry held]
    omega
  . intro p hp
    simp only [act, List.filterMap_append]
    exact (h.queued p hp).trans (List.sublist_append_left _ _)
  . apply inOrder_concat h.inOrder
    trivial

variable {entry : DownstreamQueueEntry}

theorem accounts_depart {a : Action} (h : m.Accounts total owed (entry :: held))
    (hdeparted : a.departed = some entry) (haccepted : a.accepted = none)
    (horder : ∀ before, a.InOrder before)
    : (m.act [a]).Accounts total owed held := by
  constructor
  . exact h.totalTokens
  . exact h.tokens
  . intro origin
    have hcustody := h.custody origin
    rw [number_cons origin entry held] at hcustody
    simp only [act, List.filterMap_append, number_append]
    simp only [List.filterMap_cons, haccepted, hdeparted, List.filterMap_nil, number_nil]
    omega
  . intro p hp
    simp only [act, List.filterMap_append]
    exact (h.queued p hp).trans (List.sublist_append_left _ _)
  . apply inOrder_concat h.inOrder
    apply horder

theorem accounts_addToken (henable : cfg.flowControlEnable = true) (htotal : total < 2^16)
    (h : m.Accounts total (owed + 1) held)
    : (m.addToken cfg).Accounts total owed held := by
  have hfits : m.flowControl.tokensAvailable + 1 ≤ m.flowControl.totalTokensAvailable := by
    have htokens := h.tokens
    rw [h.totalTokens]
    omega
  have hadd := FlowControlManager.tokensAvailable_addToken (by rw [h.totalTokens]; exact htotal) hfits
  unfold addToken
  rw [if_pos henable]
  apply accounts_act
  . constructor
    . exact (FlowControlManager.totalTokensAvailable_addToken m.flowControl 1).trans h.totalTokens
    . have htokens := h.tokens
      show (m.flowControl.addToken 1).2.2.tokensAvailable + (entries m.queue.categories).length
        + m.pending.toList.length + owed = total
      omega
    . exact h.custody
    . exact h.queued
    . exact h.inOrder
  . intro a ha
    obtain ⟨tokens, -, rfl⟩ := List.mem_map.mp ha
    apply Action.quiet_flowControl

theorem accounts_removeToken (henable : cfg.flowControlEnable = true)
    (hstatus : (m.removeToken cfg).1 = true)
    (h : m.Accounts total owed held)
    : (m.removeToken cfg).2.Accounts total (owed + 1) held := by
  unfold removeToken at hstatus ⊢
  rw [if_pos henable] at hstatus ⊢
  have hremove := FlowControlManager.tokensAvailable_removeToken hstatus
  constructor
  . simp only [FlowControlManager.totalTokensAvailable_removeToken]
    exact h.totalTokens
  . have htokens := h.tokens
    simp only
    omega
  . exact h.custody
  . exact h.queued
  . exact h.inOrder

theorem flowControl_removeToken (hstatus : (m.removeToken cfg).1 = false)
    : (m.removeToken cfg).2.flowControl = m.flowControl := by
  unfold removeToken at hstatus ⊢
  split
  . next henable =>
    simp only at hstatus ⊢
    unfold FlowControlManager.removeToken at hstatus ⊢
    split
    . rfl
    . split
      . rfl
      . simp_all
  . rfl

theorem accounts_pending (h : m.Accounts total (owed + 1) (entry :: held))
    (hnone : m.pending = none)
    : ({ m with pending := some entry } : MACLayer).Accounts total owed held := by
  have htokens := h.tokens
  rw [hnone] at htokens
  constructor
  . exact h.totalTokens
  . simp only [Option.toList_none, Option.toList_some, List.length_nil,
      List.length_singleton] at htokens ⊢
    omega
  . intro origin
    have hcustody := h.custody origin
    rw [hnone, number_cons] at hcustody
    simp only [Option.toList_none, Option.toList_some, number_nil] at hcustody ⊢
    omega
  . exact h.queued
  . exact h.inOrder

theorem accounts_release (h : m.Accounts total owed held) (hsome : m.pending = some entry)
    : ({ m with pending := none } : MACLayer).Accounts total (owed + 1) (entry :: held) := by
  have htokens := h.tokens
  rw [hsome] at htokens
  constructor
  . exact h.totalTokens
  . simp only [Option.toList_none, Option.toList_some, List.length_nil,
      List.length_singleton] at htokens ⊢
    omega
  . intro origin
    have hcustody := h.custody origin
    rw [hsome] at hcustody
    rw [number_cons]
    simp only [Option.toList_none, Option.toList_some, number_nil] at hcustody ⊢
    omega
  . exact h.queued
  . exact h.inOrder

theorem accounts_queue (h : m.Accounts total (owed + 1) []) (entry : DownstreamQueueEntry)
    : ({ m.act [.accept entry] with queue := (m.queue.enqueue entry).2 } : MACLayer).Accounts total
        (owed + (m.queue.enqueue entry).1.length) (m.queue.enqueue entry).1 := by
  have hperm := m.queue.enqueue_perm entry
  have haccept := accounts_accept h entry
  constructor
  . exact h.totalTokens
  . have htokens := h.tokens
    have hlength := hperm.length_eq
    simp only [List.length_append, List.length_singleton] at hlength
    simp only [act]
    omega
  . intro origin
    have hcustody := haccept.custody origin
    have hnumber : number origin
      ((m.queue.enqueue entry).1 ++ entries (m.queue.enqueue entry).2.categories)
        = number origin (entries m.queue.categories ++ [entry]) := hperm.countP_eq _
    rw [number_append, number_append] at hnumber
    simp only [act] at hcustody ⊢
    omega
  . intro p' hp'
    obtain ⟨i, hi⟩ := List.mem_iff_getElem?.mp hp'
    simp only [act, List.filterMap_append]
    rcases getElem?_enqueue hi with ⟨-, hsame⟩ | ⟨p, -, hp, rfl, -⟩
    . exact (h.queued p' (List.mem_of_getElem? hsame)).trans (List.sublist_append_left _ _)
    . have hqueued := h.queued p (List.mem_of_getElem? hp)
      have hsublist : (p.enqueue entry).2.queue.Sublist (p.queue ++ [entry]) := by
        cases hlarge : p.isTooLarge entry with
        | true =>
          rw [AccessCategory.enqueue_eq_tooLarge hlarge]
          simp
        | false =>
          obtain ⟨queue, mark, max, heq, hsub⟩ := AccessCategory.enqueue_eq_push hlarge
          rw [heq]
          exact hsub
      exact hsublist.trans (hqueued.append (List.Sublist.refl _))
  . exact haccept.inOrder

theorem accounts_foldl_drop (henable : cfg.flowControlEnable = true) (htotal : total < 2^16)
    (h : m.Accounts total (owed + held.length) held)
    : (held.foldl (fun m e => (m.act [.drop e]).addToken cfg) m).Accounts total owed [] := by
  induction held generalizing m with
  | nil => exact h
  | cons entry held ih =>
    apply ih
    apply accounts_addToken henable htotal
    apply accounts_depart h
    . rfl
    . rfl
    . exact fun _ => trivial

theorem accounts_enqueue (henable : cfg.flowControlEnable = true) (htotal : total < 2^16)
    (h : m.Accounts total (owed + 1) [])
    (entry : DownstreamQueueEntry)
    : ((m.act [.accept entry]).enqueue cfg entry).Accounts total owed [] := by
  apply accounts_foldl_drop henable htotal
  apply accounts_queue h

theorem accounts_processEntry (tick : Tick) (hpending : m.pending = some entry)
    (h : m.Accounts total owed held)
    : (m.processEntry cfg tick entry).Accounts total owed held := by
  have hpacket := origin_process cfg tick entry m.radio m.txState
  apply accounts_act
  . constructor
    . exact h.totalTokens
    . have htokens := h.tokens
      rw [hpending] at htokens
      exact htokens
    . intro origin
      have hcustody := h.custody origin
      rw [hpending, Option.toList_some] at hcustody
      simp only [Option.toList_some]
      rw [number_singleton hpacket]
      exact hcustody
    . exact h.queued
    . exact h.inOrder
  . intro a ha
    simp only [List.mem_cons, List.mem_map] at ha
    rcases ha with rfl | ⟨transmission, -, rfl⟩
    . apply Action.quiet_process
    . apply Action.quiet_transmit

theorem accounts_dequeue (hnone : m.pending = none) (h : m.Accounts total owed held)
    : (({ m with pending := m.queue.dequeue.1, queue := m.queue.dequeue.2 } : MACLayer).act
        (m.queue.dequeue.1.toList.map (.dequeue m.queue.categories))).Accounts total owed held := by
  have hperm := m.queue.dequeue_perm
  have hmoved : ({ m with pending := m.queue.dequeue.1, queue :=
      m.queue.dequeue.2 } : MACLayer).Accounts total owed held := by
    constructor
    . exact h.totalTokens
    . have htokens := h.tokens
      have hlength := hperm.length_eq
      rw [hnone] at htokens
      simp only [List.length_append, Option.toList_none, List.length_nil] at hlength htokens
      simp only
      omega
    . intro origin
      have hcustody := h.custody origin
      have hnumber : number origin (m.queue.dequeue.1.toList ++ entries m.queue.dequeue.2.categories)
          = number origin (entries m.queue.categories) := hperm.countP_eq _
      rw [number_append] at hnumber
      rw [hnone, Option.toList_none, number_nil] at hcustody
      simp only
      omega
    . intro p' hp'
      obtain ⟨i, hi⟩ := List.mem_iff_getElem?.mp hp'
      obtain ⟨p, queue, hp, rfl, hsub⟩ := getElem?_dequeue hi
      exact hsub.trans (h.queued p (List.mem_of_getElem? hp))
    . exact h.inOrder
  cases hentry : m.queue.dequeue.1 with
  | none =>
    rw [hentry] at hmoved
    apply accounts_act hmoved
    simp
  | some entry =>
    rw [hentry] at hmoved
    constructor
    . exact hmoved.totalTokens
    . exact hmoved.tokens
    . simp only [act, Option.toList_some, List.map_cons, List.map_nil, List.filterMap_append,
        List.filterMap_cons,
        Action.accepted, Action.departed, List.filterMap_nil, List.append_nil]
      exact hmoved.custody
    . simp only [act, Option.toList_some, List.map_cons, List.map_nil, List.filterMap_append,
        List.filterMap_cons,
        Action.accepted, List.filterMap_nil, List.append_nil]
      exact hmoved.queued
    . apply inOrder_concat hmoved.inOrder
      exact ⟨isNext_dequeue hentry, h.queued⟩

theorem accounts_processPending (henable : cfg.flowControlEnable = true) (htotal : total < 2^16)
    (tick : Tick) (hpending : m.pending = some entry) (h : m.Accounts total 0 [])
    : (m.processPending cfg tick entry).Accounts total 0 [] := by
  have hentry : (m.processEntry cfg tick entry).Accounts total 0 [] :=
    accounts_processEntry tick hpending h
  unfold processPending
  simp only
  split
  . exact hentry
  . next departure hdeparture =>
    have hreleased := accounts_release hentry rfl
    have hleft := accounts_depart (a := .leave (m.txState.process cfg tick entry m.radio).entry departure)
      hreleased rfl rfl (fun _ => trivial)
    have hnext := accounts_dequeue rfl hleft
    exact accounts_addToken henable htotal hnext

theorem accounts_handle (henable : cfg.flowControlEnable = true) (htotal : total < 2^16) (env : Env)
    (sequenceNumber : Nat)
    (h : m.Accounts total 0 [])
    : (m.handleDownstreamQueueEntry cfg env sequenceNumber).Accounts total 0 [] := by
  unfold handleDownstreamQueueEntry
  split
  . have hnone : ∀ (_ : Nat) (m : MACLayer), m.Accounts total 0 [] → m.pending = none
        → m.Accounts total 0 [] :=
      fun _ _ h _ => h
    apply go_rule cfg env hnone
    . intro k m entry time h hpending _ _
      have hturn := accounts_processPending henable htotal (env.tick k) hpending h
      exact hturn.of_eq rfl rfl rfl rfl
    . intro k m entry h hpending _
      exact accounts_processPending henable htotal (env.tick k) hpending h
    . exact Nat.le_refl _
    . exact h
  . exact h

theorem accounts_startPending (henable : cfg.flowControlEnable = true) (htotal : total < 2^16)
    (env : Env) (hnone : m.pending = none) (h : m.Accounts total 1 [entry])
    : (m.startPending cfg env entry).Accounts total 0 [] := by
  have hpending := accounts_pending h hnone
  unfold startPending
  simp only
  split
  . exact hpending.of_eq rfl rfl rfl rfl
  . apply accounts_handle henable htotal env _ hpending

theorem accounts_processDownstreamPacket (henable : cfg.flowControlEnable = true)
    (htotal : total < 2^16) (env : Env)
    (pkt : DownstreamPacket) (h : m.Accounts total 0 [])
    : (m.processDownstreamPacket cfg env pkt).Accounts total 0 [] := by
  unfold processDownstreamPacket
  simp only
  split
  . next hstatus =>
    have hremove := accounts_removeToken henable hstatus h
    split
    . have henqueue := accounts_enqueue henable htotal hremove (createEntry cfg env.now pkt)
      split
      . apply accounts_handle henable htotal env _ henqueue
      . exact henqueue
    . next hnone =>
      apply accounts_startPending henable htotal env hnone
      apply accounts_accept hremove
  . next hstatus =>
    obtain ⟨flowControl, heq⟩ := m.removeToken_eq cfg
    have hflow := flowControl_removeToken (by simpa using hstatus)
    apply accounts_act
    . refine h.of_eq hflow ?_ ?_ ?_
      . rw [heq]
      . rw [heq]
      . rw [heq]
    . intro a ha
      obtain rfl := List.mem_singleton.mp ha
      apply Action.quiet_flowControlError

theorem accounts_processUpstreamPacket (env : Env) (checks : Nat → Bool) (pkt : UpstreamPacket)
    (h : m.Accounts total owed held)
    : (m.processUpstreamPacket cfg env checks pkt).Accounts total owed held := by
  obtain ⟨radio, duplicateMap, actions, heq, -, hkinds⟩ := m.processUpstreamPacket_eq cfg env checks pkt
  have hact : (m.act actions).Accounts total owed held := by
    apply accounts_act h
    intro a ha
    rcases hkinds a ha with ⟨transmission, rfl⟩ | ⟨pkt', rfl⟩
    . apply Action.quiet_transmit
    . apply Action.quiet_sendUpstreamPacket
  rw [heq]
  exact hact.of_eq rfl rfl rfl rfl

theorem accounts_processFlowControlMessage (tokens : Nat) (h : m.Accounts total owed held)
    : (m.processFlowControlMessage cfg tokens).Accounts total owed held := by
  unfold processFlowControlMessage
  split
  . apply accounts_act
    . constructor
      . exact (FlowControlManager.totalTokensAvailable_processFlowControlMessage m.flowControl
          tokens).trans h.totalTokens
      . have htokens := h.tokens
        rw [← FlowControlManager.tokensAvailable_processFlowControlMessage m.flowControl
          tokens] at htokens
        exact htokens
      . exact h.custody
      . exact h.queued
      . exact h.inOrder
    . intro a ha
      obtain ⟨tokens, -, rfl⟩ := List.mem_map.mp ha
      apply Action.quiet_flowControl
  . exact h

theorem accounts_step (henable : cfg.flowControlEnable = true) (htotal : total < 2^16)
    {m' : MACLayer} {e : Env × Event}
    (h : m.Accounts total 0 []) (hstep : step cfg m e = some m')
    : m'.Accounts total 0 [] := by
  obtain ⟨env, event⟩ := e
  cases event with
  | downstreamPacket pkt =>
    cases hstep
    apply accounts_processDownstreamPacket henable htotal env pkt h
  | timer index =>
    simp only [step] at hstep
    split at hstep
    . split at hstep
      . cases hstep
        apply accounts_handle henable htotal env
        exact h.of_eq rfl rfl rfl rfl
      . cases hstep
    . cases hstep
  | upstreamPacket pkt checks =>
    cases hstep
    apply accounts_processUpstreamPacket env checks pkt h
  | flowControlMessage tokens =>
    cases hstep
    apply accounts_processFlowControlMessage tokens h

end

end MACLayer
end Ieee80211abg
end Emane

import Emane.Dlep.Lemmas.Destinations
import Emane.Dlep.Lemmas.SessionAdvert
import Emane.Dlep.Lemmas.Roster

/-!
This module contains the outcome of every event of a modem for its advertisement.
-/

namespace Emane
namespace Dlep
namespace Session

def validates (ctx : Context) (s : Session) (pm : ProtocolMessage) : Prop :=
  ∃ existing, (pm.name = .sessionInitialization ∧ existing = []
      ∨ pm.name = .sessionUpdate ∧ s.peer.peerPdp.map (fun pdp => pdp.items.ipDataItems) = some existing)
    ∧ validateIpDataItems ctx existing s pm.dataItems = .ok none

inductive Outcome (ctx : Context) (s s' : Session) : Option ProtocolMessage → Prop
  | subsides {signal : Option ProtocolMessage} (h : Subsides s s') : Outcome ctx s s' signal
  | initialized {pm : ProtocolMessage} (hname : pm.name = .sessionInitialization)
    (hpasses : pm.passes ctx.cfg = true)
      (hvalidates : s.validates ctx pm) (h : s'.outline = initialized ctx.env.peerMac s.outline)
    : Outcome ctx s s' (some pm)
  | updated {pm : ProtocolMessage} (hname : pm.name = .sessionUpdate) (hpasses : pm.passes ctx.cfg = true)
      (hvalidates : s.validates ctx pm)
        (h : s'.outline = s.outline.add (updated s.peer.peerId pm.dataItems))
    : Outcome ctx s s' (some pm)

variable (ctx : Context) (s : Session)

section

variable (hadvert : ctx.cfg.destAdvertEnabled = true)

include hadvert

omit hadvert in
theorem name_ne_initializationResponse {cfg : SessionConfig} (hmodem : cfg.modem = true)
    {pm : ProtocolMessage}
    (hallows : cfg.allowsSender pm.name (!cfg.modem) = true)
    : pm.name ≠ .sessionInitializationResponse := by
  intro hname
  rw [hname, hmodem] at hallows
  unfold SessionConfig.allowsSender at hallows
  split at hallows
  . next info hinfo => simp [cfg.initializationResponse_sender info hinfo] at hallows
  . cases hallows

theorem handlePeerSignal_outcome (hmodem : ctx.cfg.modem = true) (signal : Option ProtocolMessage)
    : Ensures (s.handlePeerSignal ctx signal) (fun s' => Outcome ctx s s' signal) (fun _ => True) := by
  by_cases hopens : (Input.receive signal).opens ctx.cfg
  . obtain ⟨pm, hpm, hname⟩ := hopens
    obtain rfl := Input.receive.inj (Input.eq_receive hpm)
    have hallows : ctx.cfg.allowsSender pm.name (!ctx.cfg.modem) = true := by
      by_contra hnot
      simp [Input.handled, handled, hnot] at hpm
    unfold handlePeerSignal
    simp only
    rw [if_pos hallows]
    -- an input that opens nothing, since a status can only terminate the session
    apply ((s.checkStatusCodeFailure_turns (r := False) ctx .startPeer false pm).mono
      (fun _ hs' => hs') (fun _ _ => trivial)).bind
    rintro ⟨failed, s₁⟩ ⟨hs₁, hgoesOn⟩
    cases failed with
    | true =>
      refine .ok (.subsides (hs₁.subsides ctx hadvert ?_))
      rintro ⟨_, hnone, _⟩
      cases hnone
    | false =>
      obtain ⟨rfl, hstatus⟩ := hgoesOn rfl
      have hpasses : pm.name = .sessionInitialization ∨ pm.name = .sessionUpdate
          → pm.passes ctx.cfg = true := by
        intro hname
        unfold ProtocolMessage.passes
        rw [hallows, Bool.true_and, Bool.not_eq_true']
        apply hstatus.resolve_left
        rcases hname with hname | hname
        . simp [hname]
        . simp [hname]
      unfold dispatch
      simp only [List.mem_cons, List.not_mem_nil, or_false] at hname
      rcases hname with hname | hname | hname
      . rw [hname]
        apply (s₁.handlePeerInitialization_outline ctx hadvert pm).mono _ (fun _ htrue => htrue)
        rintro s' (hs' | ⟨hvalidate, hs'⟩)
        . exact .subsides hs'
        . exact .initialized hname (hpasses (Or.inl hname)) ⟨[], Or.inl ⟨hname, rfl⟩, hvalidate⟩ hs'
      . exact absurd hname (name_ne_initializationResponse hmodem hallows)
      . rw [hname]
        apply (s₁.handlePeerUpdate_outline ctx hadvert pm).mono _ (fun _ htrue => htrue)
        rintro s' (hs' | ⟨pdp, hpdp, hvalidate, hs'⟩)
        . exact .subsides hs'
        . refine .updated hname (hpasses (Or.inr hname))
            ⟨pdp.items.ipDataItems, Or.inr ⟨hname, ?_⟩, hvalidate⟩ hs'
          rw [hpdp, Option.map_some]
  . exact (s.handlePeerSignal_turns ctx signal).mono
      (fun _ hs' => .subsides (hs'.subsides ctx hadvert hopens)) (fun _ _ => trivial)

theorem handle_subsides {input : Input} (hinput : ∀ signal, input ≠ .receive signal)
    : Ensures (s.handle ctx input) (Subsides s) (fun _ => True) := by
  apply (s.handle_turns ctx input).mono _ (fun _ _ => trivial)
  intro s' hs'
  apply hs'.subsides ctx hadvert
  rintro ⟨pm, hpm, _⟩
  exact hinput _ (Input.eq_receive hpm)

end
end Session

structure NodeOutline where
  states : List PeerState
  calls : List Call

inductive NodeOutline.Stop : NodeOutline → NodeOutline → Prop
  | stop {o : NodeOutline} {number : Nat} {pstate : PeerState} (h : o.states[number]? = some pstate)
    (hne : pstate ≠ .terminating)
    : Stop o { states := o.states.set number .terminating, calls :=
        o.calls ++ [.advertClearDestinations] }

namespace NodeOutline

def enter (o : NodeOutline) : Node.Event → NodeOutline
  | .connect _ => { o with states := o.states ++ [.connected] }
  | _ => o

def Subsides : NodeOutline → NodeOutline → Prop :=
  Relation.ReflTransGen Stop

theorem Subsides.spec {o o' : NodeOutline} (h : Subsides o o')
    : ∃ cleared, o'.calls = o.calls ++ List.replicate cleared .advertClearDestinations
        ∧ (∀ number : Nat, o'.states[number]? = o.states[number]?
            ∨ (o'.states[number]? = some PeerState.terminating
              ∧ o.states[number]? ≠ some PeerState.terminating ∧ cleared ≠ 0))
        ∧ (cleared ≠ 0 → ∃ number : Nat, o'.states[number]? = some PeerState.terminating
            ∧ o.states[number]? ≠ some PeerState.terminating) := by
  induction h with
  | refl => exact ⟨0, by simp, fun number => Or.inl rfl, fun hne => absurd rfl hne⟩
  | @tail o₁ o₂ _ hstop ih =>
    obtain ⟨cleared, hcalls, hstates, -⟩ := ih
    cases hstop with
    | @stop number pstate hpstate hne =>
      have hlt : number < o₁.states.length := (List.getElem?_eq_some_iff.mp hpstate).1
      have hold : o.states[number]? ≠ some .terminating := by
        intro hterminating
        rcases hstates number with heq | ⟨heq, hne', -⟩
        . rw [hpstate, hterminating, Option.some.injEq] at heq
          exact hne heq
        . exact hne' hterminating
      have hnew : (o₁.states.set number .terminating)[number]? = some .terminating :=
        List.getElem?_set_self hlt
      refine ⟨cleared + 1, ?_, ?_, fun _ => ⟨number, hnew, hold⟩⟩
      . rw [hcalls, List.replicate_succ', List.append_assoc]
      . intro number'
        by_cases heq : number' = number
        . rw [heq]
          exact Or.inr ⟨hnew, hold, Nat.succ_ne_zero cleared⟩
        . rw [List.getElem?_set_ne (Ne.symm heq)]
          exact (hstates number').imp id (fun hended => ⟨hended.1, hended.2.1, Nat.succ_ne_zero cleared⟩)

end NodeOutline

namespace Node

def outline (d : Node) : NodeOutline where
  states := d.objects.map (fun p => p.pstate)
  calls := d.calls.filter Call.concernsAdvert

variable (cfg : SessionConfig) (env : Env)

section

variable {cfg : SessionConfig} (hadvert : cfg.destAdvertEnabled = true)

theorem outline_close (d : Node) (number : Nat) (s : Session)
    : (d.close number s).outline
        = { states := d.outline.states.set number s.outline.pstate, calls := s.outline.calls } := by
  simp [outline, close, Session.outline, List.map_set]

theorem outline_session {d : Node} {number : Nat} {p : Peer} (hp : d.objects[number]? = some p)
    : d.outline.states[number]? = some p.pstate
        ∧ (d.session p).outline = { pstate := p.pstate, calls := d.outline.calls } := by
  refine ⟨?_, rfl⟩
  simp [outline, hp]

theorem subsides_close {d : Node} {number : Nat} {p : Peer} (hp : d.objects[number]? = some p)
    {s : Session}
    (h : Session.Subsides (d.session p) s)
    : d.outline.Subsides (d.close number s).outline := by
  obtain ⟨hstate, hsession⟩ := outline_session hp
  have hself : d.outline.states.set number p.pstate = d.outline.states := by
    obtain ⟨hlt, heq⟩ := List.getElem?_eq_some_iff.mp hstate
    rw [← heq, List.set_getElem_self hlt]
  have hsame : s.outline = (d.session p).outline → d.outline.Subsides (d.close number s).outline := by
    intro heq
    rw [outline_close, heq, hsession, hself]
    exact .refl
  rcases h with h | h
  . exact hsame h
  . by_cases hterminating : p.pstate = .terminating
    . apply hsame
      rw [h, hsession]
      unfold Outline.stop
      rw [if_pos hterminating]
    . have hstop : (d.session p).outline.stop
          = { pstate := .terminating, calls := d.outline.calls ++ [.advertClearDestinations] } := by
        rw [hsession]
        unfold Outline.stop
        rw [if_neg hterminating]
      rw [outline_close, h, hstop]
      exact .single (.stop hstate hterminating)

include hadvert

theorem course_subsides {event : Event} (hreceive : ∀ number signal, event ≠ .receive number signal)
    : Course cfg env event (fun d d' => d.outline.Subsides d'.outline) := by
  constructor
  . exact fun _ => .refl
  . exact fun _ _ _ h h' => h.trans h'
  . intro input d number hcauses
    have hinput : ∀ signal, input ≠ .receive signal := by
      rintro signal rfl
      exact hreceive number signal hcauses
    unfold withSession
    split
    . exact .ok .refl
    . next p hp =>
      apply ((d.session p).handle_subsides (d.context cfg env number) hadvert hinput).map
      exact fun _ hs => subsides_close hp hs
  . exact fun _ _ _ => .refl

end

def accepts (d : Node) (number : Nat) (pm : ProtocolMessage) : Prop :=
  pm.passes cfg = true
    ∧ ∃ p, d.objects[number]? = some p
      ∧ ((d.session p).received env.now).validates (d.context cfg env number) pm

inductive Outcome (d d' : Node) : Event → Prop
  | subsides {event : Event} (h : (d.outline.enter event).Subsides d'.outline) : Outcome d d' event
  | initialized {number : Nat} {pm : ProtocolMessage} (hname : pm.name = .sessionInitialization)
    (haccepts : d.accepts cfg env number pm)
      (h : d'.outline = {
        states := d.outline.states.set number .inSession
        calls := d.outline.calls ++ env.peerMac.toList.map .advertAddDestination })
    : Outcome d d' (.receive number (some pm))
  | updated {number : Nat} {peerId : PeerId} {pm : ProtocolMessage} (hname : pm.name = .sessionUpdate)
      (haccepts : d.accepts cfg env number pm)
      (h : d'.outline
        = { d.outline with calls := d.outline.calls ++ Session.updated peerId pm.dataItems })
    : Outcome d d' (.receive number (some pm))

theorem receive_outcome {cfg : SessionConfig} (hmodem : cfg.modem = true)
    (hadvert : cfg.destAdvertEnabled = true) (d : Node) (number : Nat)
    (signal : Option ProtocolMessage)
    : Ensures (receive cfg env signal d number)
        (fun d' => Outcome cfg env d d' (.receive number signal)) (fun _ => True) := by
  unfold receive withSession
  split
  . exact .ok (.subsides .refl)
  . next p hp =>
    obtain ⟨hstate, hsession⟩ := outline_session hp
    have houtcome := ((d.session p).received env.now).handlePeerSignal_outcome
      (d.context cfg env number) hadvert hmodem signal
    apply houtcome.map
    intro s hs
    cases hs with
    | subsides h => exact .subsides (subsides_close hp h)
    | initialized hname hpasses hvalidates h =>
      refine .initialized hname ⟨hpasses, p, hp, hvalidates⟩ ?_
      rw [outline_close, h]
      rfl
    | updated hname hpasses hvalidates h =>
      have haccepts : d.accepts cfg env number _ := ⟨hpasses, p, hp, hvalidates⟩
      refine @Outcome.updated cfg env d _ number p.peerId _ hname haccepts ?_
      have hself : d.outline.states.set number p.pstate = d.outline.states := by
        obtain ⟨hlt, heq⟩ := List.getElem?_eq_some_iff.mp hstate
        rw [← heq, List.set_getElem_self hlt]
      rw [outline_close, h]
      change NodeOutline.mk (d.outline.states.set number p.pstate) _ = _
      rw [hself]
      rfl

theorem handle_outcome {cfg : SessionConfig} (hmodem : cfg.modem = true) (hadvert : cfg.destAdvertEnabled = true) (d : Node) (event : Event)
    : Ensures (handle cfg d env event) (fun d' => Outcome cfg env d d' event) (fun _ => True) := by
  by_cases hreceive : ∃ number signal, event = .receive number signal
  . obtain ⟨number, signal, rfl⟩ := hreceive
    exact receive_outcome env hmodem hadvert d number signal
  . by_cases hconnect : ∃ peerId, event = .connect peerId
    . obtain ⟨peerId, rfl⟩ := hconnect
      have hcourse : Course cfg env (.connect peerId) (fun d d' => d.outline.Subsides d'.outline) :=
        course_subsides env hadvert (fun _ _ heq => by cases heq)
      have hsession := hcourse.session .startPeer
        { d with objects := d.objects ++ [.create peerId env.now], peers := d.peers.set peerId d.objects.length } d.objects.length trivial
      have henter : (Node.mk (d.objects ++ [.create peerId env.now]) (d.peers.set peerId d.objects.length) d.localPdp d.infoBase
          d.calls).outline = d.outline.enter (.connect peerId) := by
        simp [outline, NodeOutline.enter, Peer.create]
      apply hsession.mono _ (fun _ htrue => htrue)
      intro d' hd'
      apply Outcome.subsides
      rw [← henter]
      exact hd'
    . have henter : d.outline.enter event = d.outline := by
        cases event with
        | connect peerId => exact absurd ⟨peerId, rfl⟩ hconnect
        | _ => rfl
      have hcourse := course_subsides env hadvert (fun number signal heq => hreceive ⟨number, signal, heq⟩)
      have hothers : Ensures (handle cfg d env event) (fun d' => d.outline.Subsides d'.outline) (fun _ => True) := by
        apply hcourse.handle d (fun peerId heq => hconnect ⟨peerId, heq⟩) (fun _ _ => .refl)
        rintro rfl d
        apply (hcourse.forPeers (.terminate .success) (fun _ => trivial) d).bind
        exact fun d' hd' => .ok hd'
      apply hothers.mono _ (fun _ htrue => htrue)
      intro d' hd'
      apply Outcome.subsides
      rw [henter]
      exact hd'

end Node
end Dlep
end Emane

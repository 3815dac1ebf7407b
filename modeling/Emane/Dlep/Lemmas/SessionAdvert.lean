import Emane.Dlep.Lemmas.Turns

/-!
This module contains what a session does to the advertisement of its node: it adds its destination
when it comes up and data items when it is updated, and everything is cleared when it ends.
-/

namespace Emane
namespace Dlep

structure Outline where
  pstate : PeerState
  calls : List Call
  deriving DecidableEq

namespace Outline

def stop (o : Outline) : Outline :=
  if o.pstate = .terminating then o else { pstate := .terminating, calls :=
    o.calls ++ [.advertClearDestinations] }

def add (calls : List Call) (o : Outline) : Outline :=
  { o with calls := o.calls ++ calls }

@[simp]
theorem stop_stop (o : Outline) : o.stop.stop = o.stop := by
  unfold stop
  split
  . rfl
  . rfl

@[simp]
theorem add_nil (o : Outline) : o.add [] = o := by
  unfold add
  rw [List.append_nil]

@[simp]
theorem add_add (calls calls' : List Call) (o : Outline)
    : (o.add calls).add calls' = o.add (calls ++ calls') := by
  unfold add
  rw [List.append_assoc]

end Outline

namespace Session

def outline (s : Session) : Outline where
  pstate := s.peer.pstate
  calls := s.calls.filter Call.concernsAdvert

def Subsides (s s' : Session) : Prop :=
  s'.outline = s.outline ∨ s'.outline = s.outline.stop

namespace Subsides

variable {s s' s'' : Session}

theorem refl (s : Session) : Subsides s s := by
  exact Or.inl rfl

theorem of_eq (h : s'.outline = s.outline) : Subsides s s' := by
  exact Or.inl h

theorem trans (h : Subsides s s') (h' : Subsides s' s'') : Subsides s s'' := by
  unfold Subsides at h h' ⊢
  rcases h with h | h
  . rw [← h]
    exact h'
  . rcases h' with h' | h'
    . exact Or.inr (h'.trans h)
    . rw [h, Outline.stop_stop] at h'
      exact Or.inr h'

end Subsides

section

variable (s : Session)

@[simp]
theorem outline_call (c : Call)
    : (s.call c).outline = if c.concernsAdvert then s.outline.add [c] else s.outline := by
  unfold call outline Outline.add
  simp only [List.filter_append, List.filter_singleton]
  cases c.concernsAdvert with
  | true => simp
  | false => simp

@[simp]
theorem outline_setState (pstate : PeerState)
    : (s.setState pstate).outline = { s.outline with pstate := pstate } := by
  rfl

@[simp]
theorem outline_setPdp (pdp : PeerData) : (s.setPdp pdp).outline = s.outline := by
  rfl

@[simp]
theorem outline_setPending (pending : SortedMap DlepMac (List ResponsePending))
    : (s.setPending pending).outline = s.outline := by
  rfl

@[simp]
theorem outline_notInterested (mac : DlepMac) : (s.notInterested mac).outline = s.outline := by
  rfl

@[simp]
theorem outline_interested (mac : DlepMac) : (s.interested mac).outline = s.outline := by
  rfl

@[simp]
theorem outline_removePeer : s.removePeer.outline = s.outline := by
  rfl

end

variable (ctx : Context) (s : Session)

@[simp]
theorem outline_sendSimpleResponse (responseName : MessageName) (status : Option StatusName)
    (mac : Option DlepMac)
    : (s.sendSimpleResponse ctx responseName status mac).outline = s.outline := by
  unfold sendSimpleResponse
  split
  . simp [Call.concernsAdvert]
  . rfl

@[simp]
theorem outline_sendHead (destination : DlepMac) : (s.sendHead ctx destination).outline = s.outline := by
  unfold sendHead
  split
  . rfl
  . split
    . simp [Call.concernsAdvert]
    . rfl

@[simp]
theorem outline_enqueue (rp : ResponsePending) : (s.enqueue ctx rp).outline = s.outline := by
  unfold enqueue
  simp only
  split
  . simp
  . simp

@[simp]
theorem outline_popPending (destination : DlepMac) (rest : List ResponsePending)
    : (s.popPending ctx destination rest).outline = s.outline := by
  unfold popPending
  split
  . simp
  . simp

theorem outline_sendMessageExpectingResponse (message : Outgoing)
    : Ensures (s.sendMessageExpectingResponse ctx message) (fun s' => s'.outline = s.outline)
        (fun _ => True) := by
  unfold sendMessageExpectingResponse
  split
  . trivial
  . apply Ensures.ok
    split
    . rfl
    . simp

theorem outline_destinationUp (mac : DlepMac) (dataItems : List DataItem)
    : Ensures (s.destinationUp ctx mac dataItems) (fun s' => s'.outline = s.outline) (fun _ => True) := by
  apply ensures_of_any
  intro pdp _
  split
  . apply ensures_of_any
    intro message _
    exact .ok (by simp [Call.concernsAdvert])
  . apply ensures_of_any
    intro message _
    exact s.outline_sendMessageExpectingResponse ctx message

section

variable (hadvert : ctx.cfg.destAdvertEnabled = true)

include hadvert

theorem outline_stopPeer : (s.stopPeer ctx).outline = s.outline.stop := by
  unfold stopPeer setStateTerminating Outline.stop
  by_cases hterminating : s.peer.pstate = .terminating
  . have hpstate : s.outline.pstate = .terminating := hterminating
    rw [if_pos hterminating, if_pos hpstate]
  . have hpstate : s.outline.pstate ≠ .terminating := hterminating
    rw [if_neg hterminating, if_neg hpstate]
    simp [hadvert, Call.concernsAdvert, Outline.add]

theorem subsides_stopPeer : Subsides s (s.stopPeer ctx) := by
  exact Or.inr (s.outline_stopPeer ctx hadvert)

theorem terminate_subsides (status : StatusName)
    : Ensures (s.terminate ctx status) (Subsides s) (fun _ => True) := by
  unfold terminate
  split
  . exact .ok (.refl s)
  . apply (outline_sendMessageExpectingResponse ctx _ _).bind
    intro s' hs'
    apply Ensures.ok
    exact (s.subsides_stopPeer ctx hadvert).trans (.of_eq (s'.outline_removePeer.trans hs'))

omit s in
theorem Turn.subsides {s s' : Session} {input : Input} (hopens : ¬input.opens ctx.cfg)
    {blocked : Bool} (h : Turn ctx input blocked s s')
    : Subsides s s' := by
  cases h with
  | other hstanding _ hcalls _ =>
    apply Subsides.of_eq
    unfold outline
    rw [hcalls, show s'.peer.pstate = s.peer.pstate from congrArg Standing.pstate hstanding]
  | call _ hadvert' => exact .of_eq (by simp [hadvert'])
  | advert _ h => exact absurd h hopens
  | send _ => exact .of_eq (by simp [Call.concernsAdvert])
  | stop _ => exact s.subsides_stopPeer ctx hadvert
  | terminate h => exact (s.terminate_subsides ctx hadvert _).of_ok h
  | bringUp h =>
    obtain ⟨pm, hpm, hname⟩ := h
    refine absurd ⟨pm, hpm, ?_⟩ hopens
    rcases hname with ⟨hname, _⟩ | ⟨hname, _⟩
    . simp [hname]
    . simp [hname]
  | owed _ _ => exact .of_eq (by simp [Call.concernsAdvert])
  | _ => exact .of_eq (by simp)

omit s in
theorem Turns.subsides {s s' : Session} {input : Input} (hopens : ¬input.opens ctx.cfg)
    {blocked : Bool} (h : Turns ctx input blocked s s')
    : Subsides s s' := by
  exact h.all .refl .trans (Turn.subsides ctx hadvert hopens)

end

theorem outline_storePeerInfo (pm : ProtocolMessage)
    : Ensures (s.storePeerInfo ctx pm) (fun s' => s'.outline = s.outline) (fun _ => True) := by
  apply ensures_of_any
  intro peerType _
  apply ensures_of_any
  intro experimentNames _
  apply ensures_of_any
  intro interval _
  exact .ok rfl

theorem outline_sendPeerInitializationResponse
    : Ensures (s.sendPeerInitializationResponse ctx) (fun s' => s'.outline = s.outline)
        (fun _ => True) := by
  apply ensures_of_any
  intro info _
  split
  . exact .ok (by simp [Call.concernsAdvert])
  . exact .ok rfl

theorem outline_sendAllDestinations
    : Ensures (s.sendAllDestinations ctx) (fun s' => s'.outline = s.outline) (fun _ => True) := by
  apply Ensures.foldlM
  . intro s' e _ hs'
    exact (s'.outline_destinationUp ctx _ _).mono (fun _ hs'' => hs''.trans hs') (fun _ htrue => htrue)
  . rfl

theorem outline_bringUp (dataItems : List DataItem → List DataItem)
    : Ensures (s.bringUp ctx dataItems)
        (fun s' => s'.outline = { s.outline with pstate := .inSession }) (fun _ => True) := by
  apply ensures_of_any
  intro info _
  apply (outline_sendAllDestinations ctx _).mono _ (fun _ htrue => htrue)
  intro s' hs'
  rw [hs']
  simp [Call.concernsAdvert]

def initialized (peerMac : Option DlepMac) (o : Outline) : Outline where
  pstate := .inSession
  calls := o.calls ++ peerMac.toList.map .advertAddDestination

theorem outline_advertisePeer (hadvert : ctx.cfg.destAdvertEnabled = true)
    : (s.advertisePeer ctx).outline = s.outline.add
        (ctx.env.peerMac.toList.map .advertAddDestination) := by
  unfold advertisePeer
  rw [hadvert]
  cases ctx.env.peerMac with
  | none => simp
  | some peerMac => simp [Call.concernsAdvert]

theorem acceptInitialization_outline (hadvert : ctx.cfg.destAdvertEnabled = true) (pm : ProtocolMessage)
    : Ensures (s.acceptInitialization ctx pm)
        (fun s' => s'.outline = initialized ctx.env.peerMac s.outline) (fun _ => True) := by
  apply (s.outline_storePeerInfo ctx pm).bind
  intro s₁ hs₁
  apply ensures_of_any
  intro extensions _
  apply (outline_sendPeerInitializationResponse ctx _).bind
  intro s₂ hs₂
  apply (s₂.outline_bringUp ctx id).bind
  intro s₃ hs₃
  apply Ensures.ok
  rw [outline_advertisePeer ctx s₃ hadvert, hs₃, hs₂]
  have hadd : ((s₁.addMutualExtensions ctx (extensions.getD [])).addPeer ctx []).outline
    = s.outline := hs₁
  rw [hadd]
  rfl

theorem handlePeerInitialization_outline (hadvert : ctx.cfg.destAdvertEnabled = true)
    (pm : ProtocolMessage)
    : Ensures (s.handlePeerInitialization ctx pm)
        (fun s' => Subsides s s'
          ∨ (validateIpDataItems ctx [] s pm.dataItems = .ok none
            ∧ s'.outline = initialized ctx.env.peerMac s.outline))
        (fun _ => True) := by
  apply ensures_of_any
  intro conflict hvalidate
  split
  . exact (s.terminate_subsides ctx hadvert .invalidData).mono (fun _ hs' => Or.inl hs')
      (fun _ htrue => htrue)
  . exact (s.acceptInitialization_outline ctx hadvert pm).mono
      (fun _ hs' => Or.inr ⟨hvalidate, hs'⟩) (fun _ htrue => htrue)

def updated (peerId : PeerId) (dataItems : List DataItem) : List Call :=
  .peerUpdate peerId dataItems :: dataItems.map .advertAddDataitem

theorem outline_advertDataItems (dataItems : List DataItem) (s : Session)
    : (dataItems.foldl (fun s di => s.call (.advertAddDataitem di)) s).outline
        =
      s.outline.add (dataItems.map .advertAddDataitem) := by
  induction dataItems generalizing s with
  | nil => exact s.outline.add_nil.symm
  | cons di dataItems ih =>
    rw [List.foldl_cons, ih, outline_call]
    simp [Call.concernsAdvert]

theorem handlePeerUpdate_outline (hadvert : ctx.cfg.destAdvertEnabled = true) (pm : ProtocolMessage)
    : Ensures (s.handlePeerUpdate ctx pm)
        (fun s' => Subsides s s'
          ∨ ∃ pdp, s.peer.peerPdp = some pdp
            ∧ validateIpDataItems ctx pdp.items.ipDataItems s pm.dataItems = .ok none
              ∧ s'.outline = s.outline.add (updated s.peer.peerId pm.dataItems))
        (fun _ => True) := by
  apply (s.peerPdp_ensures.mono (fun _ hpdp => hpdp) (fun _ _ => trivial)).bind
  intro pdp hpdp
  apply ensures_of_any
  intro conflict hvalidate
  split
  . exact (s.terminate_subsides ctx hadvert .invalidData).mono (fun _ hs' => Or.inl hs')
      (fun _ htrue => htrue)
  . apply Ensures.ok
    refine Or.inr ⟨pdp, hpdp, hvalidate, ?_⟩
    simp only [hadvert, if_true]
    rw [outline_sendSimpleResponse, outline_advertDataItems, outline_call]
    simp [Call.concernsAdvert, updated]

end Session
end Dlep
end Emane

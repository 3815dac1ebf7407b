import Emane.Dlep.Lemmas.Service

/-!
This module contains the roster of a node: the standings of its peer objects, its tables and its own
data.
-/

namespace Emane
namespace Dlep

structure Member where
  peerId : PeerId
  pstate : PeerState
  peerPdp : Option PeerData

def Peer.member (p : Peer) : Member where
  peerId := p.peerId
  pstate := p.pstate
  peerPdp := p.peerPdp

structure Roster where
  members : List Member
  peers : SortedMap PeerId Nat
  localPdp : PeerData
  infoBase : SortedMap PeerId Nat

namespace Roster

def standing (r : Roster) (m : Member) : Standing where
  peerId := m.peerId
  pstate := m.pstate
  peerPdp := m.peerPdp
  infoBase := r.infoBase

def put (r : Roster) (number : Nat) (st : Standing) : Roster :=
  { r with
    members := r.members.set number { peerId := st.peerId, pstate := st.pstate, peerPdp := st.peerPdp }
    infoBase := st.infoBase }

def Has (r : Roster) (number : Nat) (m : Member) : Prop :=
  number ∈ r.peers.toList.map (fun e => e.2) ∧ r.members[number]? = some m

structure Around (r : Roster) (cfg : SessionConfig) (env : Env) (number : Nat) (ctx : Context)
    : Prop where
  cfg : ctx.cfg = cfg
  env : ctx.env = env
  self : ctx.self = number
  localPdp : ctx.localPdp = r.localPdp
  peers : ∀ number' m, r.Has number' m → ∃ p, (number', p) ∈ ctx.peers
    ∧ (number' ≠ number → p.peerPdp = m.peerPdp)

end Roster

namespace Node

def roster (d : Node) : Roster where
  members := d.objects.map Peer.member
  peers := d.peers
  localPdp := d.localPdp
  infoBase := d.infoBase

namespace Event

def removesLocal (event : Event) : Prop :=
  ∃ mac advert, event = .destinationDown mac advert

def causes (event : Event) (number : Nat) : Session.Input → Prop
  | .receive signal => event = .receive number signal
  | .endOfFile => event = .endOfFile number
  | .removeDestination _ => event.removesLocal
  | _ => True

def addsLocal (cfg : SessionConfig) (mac : DlepMac) (dataItems : List DataItem) : Event → Prop
  | .destinationUp mac' dataItems' advert =>
    dataItems = dataItems' ∧
      if cfg.destAdvertEnabled then
        match advert with
        | .down destinations => mac ∈ destinations
        | _ => False
      else
        mac = mac'
  | _ => False

def updatesLocal (cfg : SessionConfig) (mac : DlepMac) (dataItems : List DataItem) : Event → Prop
  | .destinationUpdate mac' dataItems' advert =>
    if cfg.destAdvertEnabled then
      match advert with
      | .up destinations entryDataItems => mac ∈ destinations ∧ dataItems = entryDataItems
      | _ => False
    else
      mac = mac' ∧ dataItems = dataItems'
  | .linkcharReply _ mac' dataItems' => mac = mac' ∧ dataItems = dataItems'
  | _ => False

end Event

inductive Event.Changes (cfg : SessionConfig) (event : Event) (pdp : PeerData) : PeerData → Prop
  | addDestination {mac : DlepMac} {dataItems : List DataItem} {pdp' : PeerData}
    (hadds : event.addsLocal cfg mac dataItems)
      (h : pdp.addDestination cfg mac dataItems = some pdp')
    : Changes cfg event pdp pdp'
  | updateDestination {mac : DlepMac} {dataItems : List DataItem} {pdp' : PeerData}
    (hupdates : event.updatesLocal cfg mac dataItems)
      (h : pdp.updateDestination cfg mac dataItems = some pdp')
    : Changes cfg event pdp pdp'
  | removeDestination {mac : DlepMac} {pdp' : PeerData} (hremoves : event.removesLocal)
    (h : pdp.removeDestination mac = some pdp')
    : Changes cfg event pdp pdp'
  | updateDataItems {dataItems : List DataItem} (h : event = .peerUpdate dataItems)
    : Changes cfg event pdp (pdp.updateDataItems cfg dataItems).2

structure Course (cfg : SessionConfig) (env : Env) (event : Event) (R : Node → Node → Prop) : Prop where
  refl : ∀ d, R d d
  trans : ∀ d d' d'', R d d' → R d' d'' → R d d''
  session : ∀ input d number, event.causes number input →
    Ensures (withSession cfg env (fun ctx s => s.handle ctx input) d number) (R d) (fun _ => True)
  localPdp : ∀ d pdp, event.Changes cfg d.localPdp pdp → R d { d with localPdp := pdp }

theorem ensures_of_lookup {α β : Type} {x : Except Fault α} {f : α → Except Fault β} {post : β → Prop}
    (hf : ∀ a, Ensures (f a) post (fun _ => True))
    : Ensures (x >>= f) post (fun _ => True) := by
  exact Ensures.bind_of_fail (fun _ _ => trivial) (fun a _ => hf a)

namespace Course

variable {cfg : SessionConfig} {env : Env} {event : Event} {R : Node → Node → Prop} (mac : DlepMac)
  (dataItems : List DataItem) (d : Node)

section

variable (h : Course cfg env event R)

include h

theorem forPeers (input : Session.Input) (hcauses : ∀ number, event.causes number input) (d : Node)
    : Ensures (forPeers cfg env (fun ctx s => s.handle ctx input) d) (R d) (fun _ => True) := by
  apply Ensures.foldlM
  . intro d₁ number _ hd₁
    exact (h.session input d₁ number (hcauses number)).mono (fun _ hd₂ => h.trans _ _ _ hd₁ hd₂)
      (fun _ htrue => htrue)
  . exact h.refl d

theorem tell (input : Session.Input) (hcauses : ∀ number, event.causes number input) {pdp : PeerData}
    (hchanges : event.Changes cfg d.localPdp pdp)
    : Ensures (Node.forPeers cfg env (fun ctx s => s.handle ctx input) { d with localPdp := pdp })
        (R d) (fun _ => True) := by
  exact (h.forPeers input hcauses { d with localPdp := pdp }).mono
    (fun _ hd' => h.trans _ _ _ (h.localPdp d pdp hchanges) hd')
    (fun _ htrue => htrue)

theorem addDestination (hadds : event.addsLocal cfg mac dataItems)
    : Ensures (addDestination cfg env mac dataItems d) (fun res => R d res.2) (fun _ => True) := by
  unfold Node.addDestination
  split
  . exact .ok (h.refl d)
  . next pdp hadd => exact (h.tell d (.destinationUp mac dataItems) (fun _ => trivial)
      (.addDestination hadds hadd)).map (fun _ hd' => hd')

theorem updateDestination (hupdates : event.updatesLocal cfg mac dataItems)
    : Ensures (updateDestination cfg env mac dataItems d) (fun res => R d res.2) (fun _ => True) := by
  unfold Node.updateDestination
  split
  . exact .ok (h.refl d)
  . next pdp hupdate =>
    exact (h.tell d (.destinationUpdate mac dataItems) (fun _ => trivial)
      (.updateDestination hupdates hupdate)).map (fun _ hd' => hd')

theorem removeDestination (hremoves : event.removesLocal)
    : Ensures (removeDestination cfg env mac d) (fun res => R d res.2) (fun _ => True) := by
  unfold Node.removeDestination
  split
  . exact .ok (h.refl d)
  . next pdp hremove =>
    exact (h.tell d (.destinationDown mac) (fun _ => trivial)
      (.removeDestination hremoves hremove)).map (fun _ hd' => hd')

theorem updateNotOurs
    : Ensures (updateNotOurs cfg env mac dataItems d) (fun res => R d res.2) (fun _ => True) := by
  apply ensures_of_lookup
  intro found
  split
  . exact .ok (h.refl d)
  . exact (h.session (.destinationUpdate mac dataItems) d _ trivial).map (fun _ hd' => hd')

theorem removeNotOurs (hremoves : event.removesLocal)
    : Ensures (removeNotOurs cfg env mac d) (fun res => R d res.2) (fun _ => True) := by
  apply ensures_of_lookup
  intro found
  split
  . exact .ok (h.refl d)
  . apply (h.session (.removeDestination mac) d _ hremoves).bind
    intro d₁ hd₁
    exact (h.forPeers (.destinationDown mac) (fun _ => trivial) d₁).map
      (fun _ hd₂ => h.trans _ _ _ hd₁ hd₂)

theorem removeOurs (hremoves : event.removesLocal)
    : Ensures (removeOurs cfg env mac d) (fun res => R d res.2) (fun _ => True) := by
  apply (h.removeDestination mac d hremoves).bind
  rintro ⟨found, d'⟩ hd'
  simp only
  split
  . exact .ok hd'
  . exact (h.removeNotOurs mac d' hremoves).mono (fun _ hres => h.trans _ _ _ hd' hres)
      (fun _ htrue => htrue)

end

theorem destinationUp {advert : Advert} (h : Course cfg env (.destinationUp mac dataItems advert) R)
    : Ensures (destinationUp cfg env mac dataItems advert d) (fun res => R d res.2) (fun _ => True) := by
  unfold Node.destinationUp
  split
  . next henabled =>
    split
    . exact .ok (h.refl d)
    . exact .ok (h.refl d)
    . next destinations =>
      have hloop : Ensures
          (destinations.foldlM
            (fun d dest => (Node.addDestination cfg env dest dataItems d).map (fun res => res.2)) d)
          (R d) (fun _ => True) := by
        apply Ensures.foldlM
        . intro d₁ dest hdest hd₁
          apply (h.addDestination dest dataItems d₁ ?_).map
          . exact fun _ hd₂ => h.trans _ _ _ hd₁ hd₂
          . exact ⟨rfl, by simp [henabled, hdest]⟩
        . exact h.refl d
      exact hloop.map (fun _ hd' => hd')
  . next henabled =>
    apply (h.addDestination mac dataItems d ?_).map
    . exact fun _ hd' => hd'
    . exact ⟨rfl, by simp [henabled]⟩

theorem destinationUpdate {advert : Advert}
    (h : Course cfg env (.destinationUpdate mac dataItems advert) R)
    : Ensures (destinationUpdate cfg env mac dataItems advert d) (fun res => R d res.2)
        (fun _ => True) := by
  unfold Node.destinationUpdate
  split
  . next henabled =>
    split
    . exact h.updateNotOurs mac dataItems d
    . next destinations entryDataItems =>
      have hloop : Ensures
          (destinations.foldlM
            (fun d dest => (Node.updateDestination cfg env dest entryDataItems d).map
            (fun res => res.2)) d)
          (R d) (fun _ => True) := by
        apply Ensures.foldlM
        . intro d₁ dest hdest hd₁
          apply (h.updateDestination dest entryDataItems d₁ ?_).map
          . exact fun _ hd₂ => h.trans _ _ _ hd₁ hd₂
          . simp [Event.updatesLocal, henabled, hdest]
        . exact h.refl d
      exact hloop.map (fun _ hd' => hd')
    . exact .ok (h.refl d)
  . next henabled =>
    apply (h.updateDestination mac dataItems d ?_).bind
    . rintro ⟨found, d'⟩ hd'
      simp only
      split
      . exact .ok hd'
      . exact (h.updateNotOurs mac dataItems d').mono (fun _ hres => h.trans _ _ _ hd' hres)
          (fun _ htrue => htrue)
    . simp [Event.updatesLocal, henabled]

theorem destinationDown {advert : Advert} (h : Course cfg env (.destinationDown mac advert) R)
    : Ensures (destinationDown cfg env mac advert d) (fun res => R d res.2) (fun _ => True) := by
  have hremoves : (Event.destinationDown mac advert).removesLocal := ⟨mac, _, rfl⟩
  unfold Node.destinationDown
  split
  . split
    . exact h.removeOurs mac d hremoves
    . apply Ensures.foldlM
      . intro res dest _ hres
        exact (h.removeDestination dest res.2 hremoves).map (fun _ hres' => h.trans _ _ _ hres hres')
      . exact h.refl d
    . exact .ok (h.refl d)
  . exact h.removeOurs mac d hremoves

theorem peerUpdate (h : Course cfg env (.peerUpdate dataItems) R)
    : Ensures (peerUpdate cfg env dataItems d) (fun res => R d res.2) (fun _ => True) := by
  unfold Node.peerUpdate
  split
  . next pdp hupdate =>
    have hpdp : pdp = (d.localPdp.updateDataItems cfg dataItems).2 := by rw [hupdate]
    exact (h.tell d (.peerUpdate dataItems) (fun _ => trivial) (hpdp ▸ .updateDataItems rfl)).map
      (fun _ hd' => hd')
  . exact .ok (h.refl d)

theorem linkcharRequest (h : Course cfg env event R)
    : Ensures (linkcharRequest cfg env mac dataItems d) (fun res => R d res.2) (fun _ => True) := by
  apply ensures_of_lookup
  intro found
  split
  . exact .ok (h.refl d)
  . exact (h.session (.linkCharacteristicsRequest mac dataItems) d _ trivial).map (fun _ hd' => hd')

theorem linkcharReply {peerId : PeerId} (h : Course cfg env (.linkcharReply peerId mac dataItems) R)
    : Ensures (linkcharReply cfg env peerId mac dataItems d) (fun res => R d res.2) (fun _ => True) := by
  unfold Node.linkcharReply
  split
  . exact .ok (h.refl d)
  . apply (h.session (.linkCharacteristicsResponse mac dataItems) d _ trivial).bind
    intro d' hd'
    split
    . next pdp hupdate =>
        exact .ok (h.trans _ _ _ hd' (h.localPdp d' _ (.updateDestination ⟨rfl, rfl⟩ hupdate)))
    . exact .ok hd'

theorem handle (h : Course cfg env event R) (hconnect : ∀ peerId, event ≠ .connect peerId)
    (hcleanup : event = .cleanupExPeers → ∀ d, R d d.cleanupExPeers)
    (hterminate : event = .terminate → ∀ d, Ensures (handle cfg d env .terminate) (R d) (fun _ => True))
    : Ensures (handle cfg d env event) (R d) (fun _ => True) := by
  cases event with
  | connect peerId => exact absurd rfl (hconnect peerId)
  | receive number signal => exact h.session (.receive signal) d number rfl
  | endOfFile number => exact h.session .endOfFile d number rfl
  | heartbeatTimeout number => exact h.session .heartbeatTimeout d number trivial
  | acktivityTimeout number => exact h.session .acktivityTimeout d number trivial
  | cleanupExPeers => exact .ok (hcleanup rfl d)
  | destinationUp mac dataItems advert => exact (h.destinationUp mac dataItems d).map (fun _ hd' => hd')
  | destinationUpdate mac dataItems advert =>
    exact (h.destinationUpdate mac dataItems d).map (fun _ hd' => hd')
  | destinationDown mac advert => exact (h.destinationDown mac d).map (fun _ hd' => hd')
  | peerUpdate dataItems => exact (h.peerUpdate dataItems d).map (fun _ hd' => hd')
  | getPeerInfo peerId =>
    have htrivial : Ensures (getPeerInfo peerId d) (fun _ => True) (fun _ => True) :=
      (getPeerInfo_ensures peerId d).mono (fun _ htrue => htrue) (fun _ _ => trivial)
    exact htrivial.map (fun _ _ => h.refl d)
  | getDestinationInfo peerId mac =>
    have htrivial : Ensures (getDestinationInfo peerId mac d) (fun _ => True) (fun _ => True) :=
      (getDestinationInfo_ensures peerId mac d).mono (fun _ htrue => htrue) (fun _ _ => trivial)
    exact htrivial.map (fun _ _ => h.refl d)
  | linkcharRequest mac dataItems => exact (h.linkcharRequest mac dataItems d).map (fun _ hd' => hd')
  | linkcharReply peerId mac dataItems => exact (h.linkcharReply mac dataItems d).map (fun _ hd' => hd')
  | terminate => exact hterminate rfl d

end Course
end Node

inductive Roster.Move (cfg : SessionConfig) (env : Env) (event : Node.Event) : Roster → Roster → Prop
  | session {r : Roster} {number : Nat} {m : Member} {input : Session.Input} {ctx : Context}
    {st : Standing}
      (hcauses : event.causes number input) (hm : r.members[number]? = some m)
        (haround : r.Around cfg env number ctx)
      (h : Standing.Move ctx input (r.standing m) st)
    : Move cfg env event r (r.put number st)
  | addDestination {r : Roster} {mac : DlepMac} {dataItems : List DataItem} {pdp : PeerData}
      (hadds : event.addsLocal cfg mac dataItems)
        (h : r.localPdp.addDestination cfg mac dataItems = some pdp)
    : Move cfg env event r { r with localPdp := pdp }
  | updateDestination {r : Roster} {mac : DlepMac} {dataItems : List DataItem} {pdp : PeerData}
      (hupdates : event.updatesLocal cfg mac dataItems)
        (h : r.localPdp.updateDestination cfg mac dataItems = some pdp)
    : Move cfg env event r { r with localPdp := pdp }
  | removeDestination {r : Roster} {mac : DlepMac} {pdp : PeerData} (hremoves : event.removesLocal)
    (h : r.localPdp.removeDestination mac = some pdp)
    : Move cfg env event r { r with localPdp := pdp }
  | updateDataItems {r : Roster} {dataItems : List DataItem} (h : event = .peerUpdate dataItems)
    : Move cfg env event r { r with localPdp := (r.localPdp.updateDataItems cfg dataItems).2 }
  | cleanup {r : Roster} {peers : SortedMap PeerId Nat} (hevent : event = .cleanupExPeers)
      (h : ∀ peerId number, peers.find? peerId = some number ↔ r.peers.find? peerId = some number ∧
        ∀ number' m, r.Has number' m → m.pstate = .terminating → m.peerId ≠ peerId)
    : Move cfg env event r { r with peers := peers }
  | clear {r : Roster} (hevent : event = .terminate)
    (h : ∀ number m, r.Has number m → m.pstate = .terminating)
    : Move cfg env event r { r with peers := .empty }

namespace Roster

def enter (r : Roster) : Node.Event → Roster
  | .connect peerId =>
    { r with
      members := r.members ++ [{ peerId := peerId, pstate := .connected, peerPdp := none }]
      peers := r.peers.set peerId r.members.length }
  | _ => r

def Reaches (cfg : SessionConfig) (env : Env) (event : Node.Event) : Roster → Roster → Prop :=
  Relation.ReflTransGen (Move cfg env event)

variable (r : Roster) (number : Nat) (st : Standing)

@[simp]
theorem put_peers : (r.put number st).peers = r.peers := by
  rfl

@[simp]
theorem put_infoBase : (r.put number st).infoBase = st.infoBase := by
  rfl

theorem getElem?_put (number' : Nat) (st : Standing)
    : (r.put number st).members[number']?
        =
      if number' = number then
        (r.members[number]?).map
          (fun _ => { peerId := st.peerId, pstate := st.pstate, peerPdp := st.peerPdp })
      else
        r.members[number']? := by
  unfold put
  by_cases heq : number' = number
  . subst heq
    rw [if_pos rfl, List.getElem?_set_self']
    rfl
  . rw [if_neg heq, List.getElem?_set_ne (fun h => heq h.symm)]

theorem put_put (st' : Standing) : (r.put number st).put number st' = r.put number st' := by
  simp [put]

end Roster

namespace Node

variable (cfg : SessionConfig) (env : Env) (event : Event)

variable (d : Node) (number : Nat)

theorem getElem?_roster : d.roster.members[number]? = (d.objects[number]?).map Peer.member := by
  simp [roster]

theorem roster_close (s : Session) : (d.close number s).roster = d.roster.put number s.standing := by
  simp [roster, close, Roster.put, Session.standing, List.map_set, Peer.member]

theorem around_roster (st : Standing)
    : (d.roster.put number st).Around cfg env number (d.context cfg env number) := by
  refine ⟨rfl, rfl, rfl, rfl, ?_⟩
  rintro number' m ⟨hmem, hm⟩
  rw [Roster.getElem?_put] at hm
  split at hm
  . next heq =>
    subst heq
    rw [Option.map_eq_some_iff] at hm
    obtain ⟨m', hm', -⟩ := hm
    rw [getElem?_roster, Option.map_eq_some_iff] at hm'
    obtain ⟨p, hp, -⟩ := hm'
    exact ⟨p, mem_peerList.mpr ⟨hmem, hp⟩, fun hne => absurd rfl hne⟩
  . rw [getElem?_roster, Option.map_eq_some_iff] at hm
    obtain ⟨p, hp, rfl⟩ := hm
    exact ⟨p, mem_peerList.mpr ⟨hmem, hp⟩, fun _ => rfl⟩

theorem withSession_reaches (input : Session.Input) (d : Node) (number : Nat)
    (hcauses : event.causes number input)
    : Ensures (withSession cfg env (fun ctx s => s.handle ctx input) d number)
        (fun d' => Roster.Reaches cfg env event d.roster d'.roster) (fun _ => True) := by
  unfold withSession
  split
  . exact .ok .refl
  . next p hp =>
    have hm : d.roster.members[number]? = some p.member := by
      rw [getElem?_roster, hp, Option.map_some]
    apply ((d.session p).handle_reaches (d.context cfg env number) input).map
    intro s' hs'
    rw [roster_close]
    have hstart : d.roster = d.roster.put number (d.session p).standing := by
      have hself : d.objects.set number p = d.objects := by
        obtain ⟨hlt, rfl⟩ := List.getElem?_eq_some_iff.mp hp
        exact List.set_getElem_self hlt
      rw [← roster_close]
      unfold close session
      rw [hself]
    have hlift : Roster.Reaches cfg env event (d.roster.put number (d.session p).standing)
        (d.roster.put number s'.standing) := by
      refine Relation.ReflTransGen.lift (d.roster.put number) ?_ _ _ hs'
      intro st st' hmove
      simp only [Function.onFun]
      rw [← d.roster.put_put number st st']
      have hmember : (d.roster.put number st).members[number]? = some
          ⟨st.peerId, st.pstate, st.peerPdp⟩ := by
        rw [Roster.getElem?_put, if_pos rfl, hm, Option.map_some]
      exact .session hcauses hmember (around_roster cfg env d number st) hmove
    rwa [← hstart] at hlift

theorem find?_cleanupExPeers (peerId : PeerId) (number : Nat)
    : d.cleanupExPeers.peers.find? peerId = some number ↔ d.peers.find? peerId = some number ∧
        ∀ number' m, d.roster.Has number' m → m.pstate = .terminating → m.peerId ≠ peerId := by
  have hfold : ∀ (entries : List (Nat × Peer)) (peers : SortedMap PeerId Nat),
      (entries.foldl (fun peers e => if e.2.pstate = .terminating then peers.erase e.2.peerId
        else peers) peers).find? peerId
          = some number
        ↔ peers.find? peerId = some number ∧ ∀ e ∈ entries, e.2.pstate = .terminating
            → e.2.peerId ≠ peerId := by
    intro entries
    induction entries with
    | nil => simp
    | cons e entries ih =>
      intro peers
      rw [List.foldl_cons, ih, List.forall_mem_cons]
      by_cases hterminating : e.2.pstate = .terminating
      . rw [if_pos hterminating, SortedMap.find?_erase]
        by_cases hself : peerId = e.2.peerId
        . simp [hself, hterminating]
        . simp [hself, Ne.symm hself]
      . simp [hterminating]
  unfold cleanupExPeers
  rw [hfold]
  apply and_congr_right
  intro _
  constructor
  . rintro h number' m ⟨hmem, hm⟩ hterminating
    rw [getElem?_roster, Option.map_eq_some_iff] at hm
    obtain ⟨p, hp, rfl⟩ := hm
    exact h (number', p) (mem_peerList.mpr ⟨hmem, hp⟩) hterminating
  . rintro h ⟨number', p⟩ hmem hterminating
    obtain ⟨hnumber, hp⟩ := mem_peerList.mp hmem
    exact h number' p.member ⟨hnumber, by rw [getElem?_roster, hp, Option.map_some]⟩ hterminating

theorem withSession_terminate (status : StatusName) (d : Node) (number : Nat)
    : Ensures (withSession cfg env (fun ctx s => s.terminate ctx status) d number)
        (fun d' => d'.peers = d.peers ∧ ∀ number' m, d'.roster.members[number']? = some m →
          m.pstate = .terminating ∨ (number' ≠ number ∧ d.roster.members[number']? = some m))
        (fun _ => True) := by
  unfold withSession
  split
  . next hnone =>
    refine .ok ⟨rfl, fun number' m hm => Or.inr ⟨?_, hm⟩⟩
    rintro rfl
    rw [getElem?_roster, hnone] at hm
    cases hm
  . next p hp =>
    apply ((d.session p).standing_terminate (d.context cfg env number) status).map
    intro s' hs'
    refine ⟨rfl, fun number' m hm => ?_⟩
    have hterminating : s'.standing.pstate = .terminating := by
      rw [hs']
      split
      . next hterminating => exact hterminating
      . rfl
    rw [roster_close, Roster.getElem?_put] at hm
    split at hm
    . rw [Option.map_eq_some_iff] at hm
      obtain ⟨_, _, rfl⟩ := hm
      exact Or.inl hterminating
    . next hne => exact Or.inr ⟨hne, hm⟩

theorem forPeers_terminate (status : StatusName) (d : Node)
    : Ensures (forPeers cfg env (fun ctx s => s.terminate ctx status) d)
        (fun d' => ∀ number m, d'.roster.Has number m → m.pstate = .terminating) (fun _ => True) := by
  have hloop : ∀ (numbers : List Nat) (d₁ : Node),
      Ensures (numbers.foldlM (withSession cfg env (fun ctx s => s.terminate ctx status)) d₁)
        (fun d' => d'.peers = d₁.peers ∧ ∀ number m, d'.roster.members[number]? = some m →
          m.pstate = .terminating ∨ (number ∉ numbers ∧ d₁.roster.members[number]? = some m))
        (fun _ => True) := by
    intro numbers
    induction numbers with
    | nil => exact fun d₁ => .ok ⟨rfl, fun number m hm => Or.inr ⟨List.not_mem_nil, hm⟩⟩
    | cons number numbers ih =>
      intro d₁
      apply (withSession_terminate cfg env status d₁ number).bind
      rintro d₂ ⟨hpeers, hd₂⟩
      apply (ih d₂).mono _ (fun _ htrue => htrue)
      rintro d₃ ⟨hpeers', hd₃⟩
      refine ⟨hpeers'.trans hpeers, fun number' m hm => ?_⟩
      rcases hd₃ number' m hm with hterminating | ⟨hnotin, hm'⟩
      . exact Or.inl hterminating
      . rcases hd₂ number' m hm' with hterminating | ⟨hne, hm''⟩
        . exact Or.inl hterminating
        . exact Or.inr ⟨by simp [hne, hnotin], hm''⟩
  apply (hloop _ d).mono _ (fun _ htrue => htrue)
  rintro d' ⟨hpeers, hd'⟩ number m ⟨hmem, hm⟩
  rcases hd' number m hm with hterminating | ⟨hnotin, -⟩
  . exact hterminating
  . have hsame : d'.roster.peers = d.peers := hpeers
    rw [hsame] at hmem
    exact absurd hmem hnotin

theorem course_reaches
    : Course cfg env event (fun d d' => Roster.Reaches cfg env event d.roster d'.roster) := by
  constructor
  . exact fun _ => .refl
  . exact fun _ _ _ h h' => h.trans h'
  . exact fun input d number hcauses => withSession_reaches cfg env event input d number hcauses
  . intro d pdp hchanges
    apply Relation.ReflTransGen.single
    cases hchanges with
    | addDestination hadds h => exact .addDestination hadds h
    | updateDestination hupdates h => exact .updateDestination hupdates h
    | removeDestination hremoves h => exact .removeDestination hremoves h
    | updateDataItems h => exact .updateDataItems h

theorem handle_reaches
    : Ensures (handle cfg d env event)
        (fun d' => Roster.Reaches cfg env event (d.roster.enter event) d'.roster)
        (fun _ => True) := by
  by_cases hconnect : ∃ peerId, event = .connect peerId
  . obtain ⟨peerId, rfl⟩ := hconnect
    have henter : (Node.mk (d.objects ++ [.create peerId env.now])
      (d.peers.set peerId d.objects.length) d.localPdp
        d.infoBase d.calls).roster = d.roster.enter (.connect peerId) := by
      simp [roster, Roster.enter, Peer.member, Peer.create]
    rw [← henter]
    exact withSession_reaches cfg env (.connect peerId) .startPeer _ _ trivial
  . have henter : d.roster.enter event = d.roster := by
      cases event with
      | connect peerId => exact absurd ⟨peerId, rfl⟩ hconnect
      | _ => rfl
    rw [henter]
    have hcourse := course_reaches cfg env event
    apply hcourse.handle d (fun peerId heq => hconnect ⟨peerId, heq⟩)
    . rintro rfl d
      exact .single (.cleanup rfl d.find?_cleanupExPeers)
    . rintro rfl d
      have hall := (hcourse.forPeers (.terminate .success) (fun _ => trivial) d).and
        (forPeers_terminate cfg env .success d)
      apply hall.bind
      rintro d' ⟨hd', hterminating⟩
      exact .ok (hd'.tail (.clear rfl hterminating))

theorem step_reaches {d d' : Node} {e : Env × Event} (h : step cfg d e = some d')
    : Roster.Reaches cfg e.1 e.2 (d.roster.enter e.2) d'.roster := by
  exact (handle_reaches cfg e.1 e.2 d).of_toOption h

end Node
end Dlep
end Emane

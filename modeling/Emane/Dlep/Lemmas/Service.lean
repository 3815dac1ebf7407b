import Emane.Dlep.Lemmas.InfoBase
import Emane.Dlep.Lemmas.Turns

/-!
This module contains what holds in every run of a node: which states a session goes through, and
when the data of all peers that are asked for is there.
-/

namespace Emane
namespace Dlep

namespace Node

def Moves (news up add : Nat → Prop) (d d' : Node) : Prop :=
  ∀ number p, d.objects[number]? = some p →
    ∃ p', d'.objects[number]? = some p'
      ∧ Evolves news (up number) (add number) (d.session p) (d'.session p')

def Unready (d : Node) : Prop :=
  ∃ e ∈ d.peerList, e.2.peerPdp = none

section

variable {news up add : Nat → Prop} {d d' d'' : Node}

theorem Moves.refl (news up add : Nat → Prop) (d : Node) : Moves news up add d d := by
  intro number p hp
  exact ⟨p, hp, .refl _ _ _ _⟩

theorem Moves.trans (h : Moves news up add d d') (h' : Moves news up add d' d'')
    : Moves news up add d d'' := by
  intro number p hp
  obtain ⟨p', hp', hevolves⟩ := h number p hp
  obtain ⟨p'', hp'', hevolves'⟩ := h' number p' hp'
  exact ⟨p'', hp'', hevolves.trans hevolves'⟩

theorem Moves.of_eq (hobjects : d'.objects = d.objects) (hinfoBase : d'.infoBase = d.infoBase)
    : Moves news up add d d' := by
  intro number p hp
  refine ⟨p, hobjects ▸ hp, ?_⟩
  exact .of_eq rfl rfl rfl hinfoBase

theorem mem_peerList {number : Nat} {p : Peer}
    : (number, p) ∈ d.peerList ↔ number ∈ d.peers.toList.map (fun e => e.2)
        ∧ d.objects[number]? = some p := by
  unfold peerList
  rw [List.mem_filterMap]
  constructor
  . rintro ⟨e, he, hfind⟩
    rw [Option.map_eq_some_iff] at hfind
    obtain ⟨q, hq, heq⟩ := hfind
    cases heq
    exact ⟨List.mem_map_of_mem he, hq⟩
  . rintro ⟨hmem, hfind⟩
    obtain ⟨e, he, rfl⟩ := List.mem_map.mp hmem
    exact ⟨e, he, by rw [hfind, Option.map_some]⟩

theorem Moves.not_initialized (h : Moves news up add d d') {number : Nat} {p p' : Peer}
    (hp : d.objects[number]? = some p)
    (hp' : d'.objects[number]? = some p') (hnone : p'.peerPdp = none)
    : p.peerPdp = none := by
  obtain ⟨q, hq, hevolves⟩ := h number p hp
  obtain rfl := Option.some.inj (hq.symm.trans hp')
  by_contra hsome
  exact hevolves.peerPdp hsome hnone

end

structure Acts (news up add : Nat → Prop) (d d' : Node) : Prop where
  moves : Moves news up add d d'
  peers : d'.peers = d.peers
  length : d'.objects.length = d.objects.length

theorem Acts.refl (news up add : Nat → Prop) (d : Node) : Acts news up add d d := by
  exact ⟨.refl news up add d, rfl, rfl⟩

theorem Acts.trans {news up add : Nat → Prop} {d d' d'' : Node} (h : Acts news up add d d')
    (h' : Acts news up add d' d'')
    : Acts news up add d d'' := by
  exact ⟨h.moves.trans h'.moves, h'.peers.trans h.peers, h'.length.trans h.length⟩

def Stays (d d' : Node) : Prop :=
  Acts (fun _ => False) (fun _ => False) (fun _ => False) d d'

theorem Acts.unready {news up add : Nat → Prop} {d d' : Node} (h : Acts news up add d d')
    (hunready : d'.Unready)
    : d.Unready := by
  obtain ⟨⟨number, p'⟩, hmem, hnone⟩ := hunready
  rw [mem_peerList, h.peers] at hmem
  have hlt := (List.getElem?_eq_some_iff.mp hmem.2).1
  rw [h.length] at hlt
  have hp := List.getElem?_eq_getElem hlt
  exact ⟨(number, d.objects[number]), mem_peerList.mpr ⟨hmem.1, hp⟩,
    h.moves.not_initialized hp hmem.2 hnone⟩

theorem Acts.of_localPdp (news up add : Nat → Prop) (d : Node) (pdp : PeerData)
    : Acts news up add d { d with localPdp := pdp } := by
  exact ⟨.of_eq rfl rfl, rfl, rfl⟩

def bringsNew (cfg : SessionConfig) (mac : DlepMac) (advert : Advert) (d : Node) : Bool :=
  if cfg.destAdvertEnabled then
    match advert with
    | .down destinations => destinations.any (fun dest => !d.localPdp.validDestination dest)
    | _ => false
  else
    !d.localPdp.validDestination mac

def looksUp (cfg : SessionConfig) (mac : DlepMac) (advert : Advert) (d : Node) : Bool :=
  if cfg.destAdvertEnabled then
    match advert with
    | .notFound => true
    | _ => false
  else
    !d.localPdp.validDestination mac

section

variable (cfg : SessionConfig) (env : Env)

variable {f : Context → Session → Except Fault Session} {d : Node}

theorem withSession_ensures (news up add : Nat → Prop) {number : Nat}
    {fail : Fault → Prop}
    (hf : ∀ p, d.objects[number]? = some p →
      Ensures (f (d.context cfg env number) (d.session p))
        (Evolves news (up number) (add number) (d.session p)) fail)
    : Ensures (withSession cfg env f d number) (Acts news up add d) fail := by
  unfold withSession
  split
  . exact .ok (.refl news up add d)
  . next p hp =>
    apply (hf p hp).map
    intro s hs
    refine ⟨?_, rfl, by simp [close]⟩
    intro number' p' hp'
    by_cases heq : number = number'
    . subst heq
      obtain rfl := Option.some.inj (hp.symm.trans hp')
      refine ⟨s.peer, ?_, hs⟩
      have hlt := (List.getElem?_eq_some_iff.mp hp).1
      simp [close, hlt]
    . refine ⟨p', ?_, ?_⟩
      . simp [close, List.getElem?_set_ne heq, hp']
      . constructor
        . rfl
        . exact Or.inl rfl
        . exact id
        . exact Or.inr (.refl _)
        . exact hs.infoBase

theorem withSession_stays {r : Prop}
    (hf : ∀ ctx s, Ensures (f ctx s) (Evolves (fun _ => False) False False s)
      (NullIf (r ∧ s.peer.peerPdp = none)))
    (d : Node) (number : Nat)
    : Ensures (withSession cfg env f d number) (Stays d)
        (NullIf (r ∧ ∃ p, d.objects[number]? = some p ∧ p.peerPdp = none)) := by
  apply withSession_ensures
  intro p hp
  apply (hf _ _).mono (fun _ hs' => hs')
  apply NullIf.mono
  rintro ⟨hr, hnone⟩
  exact ⟨hr, p, hp, hnone⟩

theorem forPeers_stays {r : Prop}
    (hf : ∀ ctx s, Ensures (f ctx s) (Evolves (fun _ => False) False False s)
      (NullIf (r ∧ s.peer.peerPdp = none)))
    (d : Node)
    : Ensures (forPeers cfg env f d) (Stays d) (NullIf (r ∧ d.Unready)) := by
  apply Ensures.foldlM
  . intro d₁ number hmem hd₁
    apply (withSession_stays cfg env hf d₁ number).mono
    . exact fun d₂ hd₂ => Acts.trans hd₁ hd₂
    . apply NullIf.mono
      rintro ⟨hr, p₁, hp₁, hnone⟩
      rw [← hd₁.peers] at hmem
      exact ⟨hr, hd₁.unready ⟨(number, p₁), mem_peerList.mpr ⟨hmem, hp₁⟩, hnone⟩⟩
  . exact .refl _ _ _ d

theorem ensures_of_never
    (hf : ∀ ctx s, Ensures (f ctx s) (Evolves (fun _ => False) False False s) (NullIf False))
    (ctx : Context) (s : Session)
    : Ensures (f ctx s) (Evolves (fun _ => False) False False s)
        (NullIf (False ∧ s.peer.peerPdp = none)) := by
  exact (hf ctx s).mono (fun _ hs' => hs') (NullIf.mono False.elim)

variable (peerId : PeerId) (mac : DlepMac)

theorem findPeer_ensures (d : Node)
    : Ensures (findPeer mac d) (fun res => ∀ number, res = some number
        → ∃ p, (number, p) ∈ d.peerList) (NullIf d.Unready) := by
  have hgo : ∀ peers : List (Nat × Peer),
      Ensures (findPeer.go mac peers) (fun res => ∀ number, res = some number → ∃ p, (number, p) ∈ peers)
        (NullIf (∃ e ∈ peers, e.2.peerPdp = none)) := by
    intro peers
    induction peers with
    | nil => exact .ok (fun _ h => by cases h)
    | cons e peers ih =>
      unfold findPeer.go
      split
      . next heq => exact .error (fun _ => ⟨e, List.mem_cons_self, heq⟩)
      . split
        . apply Ensures.ok
          intro number hnumber
          cases hnumber
          exact ⟨e.2, List.mem_cons_self⟩
        . apply ih.mono
          . intro res hres number hnumber
            obtain ⟨p, hp⟩ := hres number hnumber
            exact ⟨p, List.mem_cons_of_mem _ hp⟩
          . apply NullIf.mono
            rintro ⟨e', he', hnone⟩
            exact ⟨e', List.mem_cons_of_mem _ he', hnone⟩
  exact hgo d.peerList

theorem withSession_localPdp (f : Context → Session → Except Fault Session) (d : Node) (number : Nat)
    : Ensures (withSession cfg env f d number) (fun d' => d'.localPdp = d.localPdp) (fun _ => True) := by
  unfold withSession
  split
  . exact .ok rfl
  . next p hp =>
    cases f (d.context cfg env number) (d.session p) with
    | ok s => exact .ok rfl
    | error fault => trivial

theorem forPeers_localPdp (f : Context → Session → Except Fault Session) (d : Node)
    : Ensures (forPeers cfg env f d) (fun d' => d'.localPdp = d.localPdp) (fun _ => True) := by
  apply Ensures.foldlM
  . intro d₁ number _ hd₁
    exact (withSession_localPdp cfg env f d₁ number).mono (fun _ hd₂ => hd₂.trans hd₁)
      (fun _ htrue => htrue)
  . rfl

def KeepsDestinations (d d' : Node) : Prop :=
  ∀ mac, d.localPdp.validDestination mac = true → d'.localPdp.validDestination mac = true

variable (dataItems : List DataItem)

theorem addDestination_ensures (d : Node)
    : Ensures (addDestination cfg env mac dataItems d)
        (fun res => Stays d res.2 ∧ KeepsDestinations d res.2)
        (NullIf (d.localPdp.validDestination mac = false ∧ d.Unready)) := by
  unfold addDestination
  split
  . exact .ok ⟨.refl _ _ _ d, fun _ hvalid => hvalid⟩
  . next pdp hadd =>
    have hnew : d.localPdp.validDestination mac = false := by
      rw [← Bool.not_eq_true', ← d.localPdp.addDestination_isSome cfg mac dataItems, hadd,
        Option.isSome_some]
    have hone : ∀ ctx (s : Session), Ensures (s.destinationUp ctx mac dataItems)
      (Evolves (fun _ => False) False False s)
        (NullIf (True ∧ s.peer.peerPdp = none)) := by
      intro ctx s
      exact (s.handle_stays ctx (.destinationUp mac dataItems) (fun _ => rfl)).mono
        (fun _ hs' => hs') (NullIf.mono (fun h => ⟨trivial, h⟩))
    have hall := forPeers_stays cfg env hone { d with localPdp := pdp }
    have hlocal := forPeers_localPdp cfg env (fun ctx s => s.destinationUp ctx mac dataItems)
      { d with localPdp := pdp }
    have hboth : Ensures
      (forPeers cfg env (fun ctx s => s.destinationUp ctx mac dataItems) { d with localPdp := pdp })
        (fun d' => Stays d d' ∧ KeepsDestinations d d')
            (NullIf (d.localPdp.validDestination mac = false ∧ d.Unready)) := by
      apply (hall.and hlocal).mono
      . rintro d' ⟨hd', hpdp⟩
        refine ⟨Acts.trans (.of_localPdp _ _ _ d pdp) hd', ?_⟩
        intro mac' hvalid
        rw [hpdp]
        exact d.localPdp.validDestination_of_addDestination cfg mac dataItems hadd hvalid
      . exact NullIf.mono (fun h => ⟨hnew, h.2⟩)
    exact hboth.map (fun _ hd' => hd')

theorem tell_ensures
    (hf : ∀ ctx s, Ensures (f ctx s) (Evolves (fun _ => False) False False s) (NullIf False))
    (d : Node) (pdp : PeerData)
    : Ensures (forPeers cfg env f { d with localPdp := pdp }) (Stays d) (NullIf False) := by
  apply (forPeers_stays cfg env (ensures_of_never hf) { d with localPdp := pdp }).mono
  . exact fun d' hd' => Acts.trans (.of_localPdp _ _ _ d pdp) hd'
  . exact NullIf.mono (fun h => h.1)

def Finds (mac : DlepMac) (d : Node) (res : Bool × Node) : Prop :=
  (d.localPdp.validDestination mac = true ∧ res.1 = true)
    ∨ (d.localPdp.validDestination mac = false ∧ res = (false, d))

theorem updateDestination_ensures (updates : List DataItem) (d : Node)
    : Ensures (updateDestination cfg env mac updates d) (fun res => Stays d res.2 ∧ d.Finds mac res)
        (NullIf False) := by
  unfold updateDestination
  split
  . next hupdate =>
    refine .ok ⟨.refl _ _ _ d, Or.inr ⟨?_, rfl⟩⟩
    rw [← d.localPdp.updateDestination_isSome cfg mac updates, hupdate, Option.isSome_none]
  . next pdp hupdate =>
    have hold : d.localPdp.validDestination mac = true := by
      rw [← d.localPdp.updateDestination_isSome cfg mac updates, hupdate, Option.isSome_some]
    exact (tell_ensures cfg env
      (fun ctx s => s.handle_stays ctx (.destinationUpdate mac updates) (fun _ => rfl)) d pdp).map
      (fun _ hd' => ⟨hd', Or.inl ⟨hold, rfl⟩⟩)

theorem removeDestination_ensures (d : Node)
    : Ensures (removeDestination cfg env mac d) (fun res => Stays d res.2 ∧ d.Finds mac res)
        (NullIf False) := by
  unfold removeDestination
  split
  . next hremove =>
    refine .ok ⟨.refl _ _ _ d, Or.inr ⟨?_, rfl⟩⟩
    rw [← d.localPdp.removeDestination_isSome mac, hremove, Option.isSome_none]
  . next pdp hremove =>
    have hold : d.localPdp.validDestination mac = true := by
      rw [← d.localPdp.removeDestination_isSome mac, hremove, Option.isSome_some]
    exact (tell_ensures cfg env
      (fun ctx s => s.handle_stays ctx (.destinationDown mac) (fun _ => rfl)) d pdp).map
      (fun _ hd' => ⟨hd', Or.inl ⟨hold, rfl⟩⟩)

theorem updateNotOurs_ensures (d : Node)
    : Ensures (updateNotOurs cfg env mac dataItems d) (fun res => Stays d res.2) (NullIf d.Unready) := by
  apply (findPeer_ensures mac d).bind
  intro found _
  split
  . exact .ok (.refl _ _ _ d)
  . next number _ =>
    have hone := withSession_stays cfg env
      (ensures_of_never (fun ctx s => s.handle_stays ctx (.destinationUpdate mac dataItems)
        (fun _ => rfl))) d number
    exact (hone.mono (fun _ hd' => hd') (NullIf.mono (fun h => h.1.elim))).map (fun _ hd' => hd')

theorem removeNotOurs_ensures (d : Node)
    : Ensures (removeNotOurs cfg env mac d) (fun res => Stays d res.2) (NullIf d.Unready) := by
  apply (findPeer_ensures mac d).bind
  intro found hfound
  split
  . exact .ok (.refl _ _ _ d)
  . next number =>
    obtain ⟨p, hp⟩ := hfound number rfl
    have hremove : ∀ (ctx : Context) (s : Session), Ensures (removeFromPeer mac s)
      (Evolves (fun _ => False) False False s)
        (NullIf (True ∧ s.peer.peerPdp = none)) := by
      intro ctx s
      exact (s.handle_stays ctx (.removeDestination mac) (fun _ => rfl)).mono (fun _ hs' => hs')
        (NullIf.mono (fun h => ⟨trivial, h⟩))
    have hone := withSession_stays cfg env hremove d number
    apply (hone.mono (fun _ hd' => hd') ?_).bind
    . intro d₁ hd₁
      have hall := forPeers_stays cfg env (ensures_of_never
        (fun ctx s => s.handle_stays ctx (.destinationDown mac) (fun _ => rfl))) d₁
      exact (hall.mono (fun d₂ hd₂ => Acts.trans hd₁ hd₂) (NullIf.mono (fun h => h.1.elim))).map
        (fun _ hd' => hd')
    . apply NullIf.mono
      rintro ⟨-, p', hp', hnone⟩
      exact ⟨(number, p'), mem_peerList.mpr ⟨(mem_peerList.mp hp).1, hp'⟩, hnone⟩

theorem removeOurs_ensures (d : Node)
    : Ensures (removeOurs cfg env mac d) (fun res => Stays d res.2)
        (NullIf (d.localPdp.validDestination mac = false ∧ d.Unready)) := by
  apply ((removeDestination_ensures cfg env mac d).mono (fun _ hres => hres)
    (NullIf.mono False.elim)).bind
  rintro ⟨found, d'⟩ ⟨hd', hfinds⟩
  rcases hfinds with ⟨-, hfound⟩ | ⟨hnot, heq⟩
  . subst hfound
    exact .ok hd'
  . obtain ⟨rfl, rfl⟩ := Prod.mk.inj heq
    exact (removeNotOurs_ensures cfg env mac d').mono (fun _ hres => hres)
      (NullIf.mono (fun h => ⟨hnot, h⟩))

theorem addDestinations_ensures (destinations : List DlepMac) (dataItems : List DataItem) (d : Node)
    : Ensures (destinations.foldlM
        (fun d dest => (addDestination cfg env dest dataItems d).map (fun res => res.2)) d)
        (fun d' => Stays d d' ∧ KeepsDestinations d d')
        (NullIf (destinations.any (fun dest => !d.localPdp.validDestination dest) = true
            ∧ d.Unready)) := by
  apply Ensures.foldlM
  . rintro d₁ dest hmem ⟨hd₁, hkeeps⟩
    apply ((addDestination_ensures cfg env dest dataItems d₁).mono (fun _ hres => hres) ?_).map
    . rintro res ⟨hres, hkeeps'⟩
      exact ⟨Acts.trans hd₁ hres, fun mac' hvalid => hkeeps' mac' (hkeeps mac' hvalid)⟩
    . apply NullIf.mono
      rintro ⟨hnew, hunready⟩
      refine ⟨?_, hd₁.unready hunready⟩
      rw [List.any_eq_true]
      refine ⟨dest, hmem, ?_⟩
      by_contra hvalid
      rw [hkeeps dest (by simpa using hvalid)] at hnew
      cases hnew
  . exact ⟨.refl _ _ _ d, fun _ hvalid => hvalid⟩

variable (advert : Advert)

theorem destinationUp_ensures (d : Node)
    : Ensures (destinationUp cfg env mac dataItems advert d) (fun res => Stays d res.2)
        (NullIf (d.bringsNew cfg mac advert = true ∧ d.Unready)) := by
  unfold destinationUp bringsNew
  split
  . split
    . exact .ok (.refl _ _ _ d)
    . exact .ok (.refl _ _ _ d)
    . next destinations =>
      exact (addDestinations_ensures cfg env destinations dataItems d).map (fun _ hd' => hd'.1)
  . have hone : Ensures (addDestination cfg env mac dataItems d) (fun res => Stays d res.2)
        (NullIf ((!d.localPdp.validDestination mac) = true ∧ d.Unready)) := by
      apply (addDestination_ensures cfg env mac dataItems d).mono (fun _ hres => hres.1)
      exact NullIf.mono (fun h => ⟨by rw [h.1]; rfl, h.2⟩)
    exact hone.map (fun _ hres => hres)

theorem destinationUpdate_ensures (d : Node)
    : Ensures (destinationUpdate cfg env mac dataItems advert d) (fun res => Stays d res.2)
        (NullIf (d.looksUp cfg mac advert = true ∧ d.Unready)) := by
  unfold destinationUpdate looksUp
  split
  . split
    . exact (updateNotOurs_ensures cfg env mac dataItems d).mono (fun _ hres => hres)
        (NullIf.mono (fun h => ⟨rfl, h⟩))
    . next destinations entryDataItems =>
      have hloop : Ensures
          (destinations.foldlM (fun d dest => (updateDestination cfg env dest entryDataItems d).map
            (fun res => res.2)) d)
          (Stays d) (NullIf False) := by
        apply Ensures.foldlM
        . intro d₁ dest _ hd₁
          exact (updateDestination_ensures cfg env dest entryDataItems d₁).map
            (fun _ hres => Acts.trans hd₁ hres.1)
        . exact .refl _ _ _ d
      exact (hloop.mono (fun _ hd' => hd') (NullIf.mono False.elim)).map (fun _ hd' => hd')
    . exact .ok (.refl _ _ _ d)
  . apply ((updateDestination_ensures cfg env mac dataItems d).mono (fun _ hres => hres)
      (NullIf.mono False.elim)).bind
    rintro ⟨found, d'⟩ ⟨hd', hfinds⟩
    rcases hfinds with ⟨-, hfound⟩ | ⟨hnot, heq⟩
    . subst hfound
      exact .ok hd'
    . obtain ⟨rfl, rfl⟩ := Prod.mk.inj heq
      apply (updateNotOurs_ensures cfg env mac dataItems d').mono (fun _ hres => hres)
      exact NullIf.mono (fun h => ⟨by rw [hnot]; rfl, h⟩)

theorem destinationDown_ensures (d : Node)
    : Ensures (destinationDown cfg env mac advert d) (fun res => Stays d res.2)
        (NullIf (d.localPdp.validDestination mac = false ∧ d.looksUp cfg mac advert = true
            ∧ d.Unready)) := by
  unfold destinationDown looksUp
  split
  . split
    . apply (removeOurs_ensures cfg env mac d).mono (fun _ hres => hres)
      exact NullIf.mono (fun h => ⟨h.1, rfl, h.2⟩)
    . next destinations _ =>
      have hloop : Ensures
          (destinations.foldlM
            (fun res dest =>
              (removeDestination cfg env dest res.2).map
                (fun res' => (if res'.1 then res.1 else .destinationDoesNotExist, res'.2)))
            (ReturnStatus.ok, d))
          (fun res => Stays d res.2) (NullIf False) := by
        apply Ensures.foldlM
        . intro res dest _ hres
          exact (removeDestination_ensures cfg env dest res.2).map
            (fun _ hres' => Acts.trans hres hres'.1)
        . exact .refl _ _ _ d
      exact hloop.mono (fun _ hd' => hd') (NullIf.mono False.elim)
    . exact .ok (.refl _ _ _ d)
  . apply (removeOurs_ensures cfg env mac d).mono (fun _ hres => hres)
    exact NullIf.mono (fun h => ⟨h.1, by rw [h.1]; rfl, h.2⟩)

theorem peerUpdate_ensures (d : Node)
    : Ensures (peerUpdate cfg env dataItems d) (fun res => Stays d res.2) (NullIf False) := by
  unfold peerUpdate
  split
  . next pdp _ =>
      exact (tell_ensures cfg env (fun ctx s => s.handle_stays ctx (.peerUpdate dataItems)
      (fun _ => rfl)) d pdp).map (fun _ hd' => hd')
  . exact .ok (.refl _ _ _ d)

theorem linkcharRequest_ensures (d : Node)
    : Ensures (linkcharRequest cfg env mac dataItems d) (fun res => Stays d res.2)
        (NullIf d.Unready) := by
  apply (findPeer_ensures mac d).bind
  intro found _
  split
  . exact .ok (.refl _ _ _ d)
  . next number _ =>
    have hone := withSession_stays cfg env
      (ensures_of_never (fun ctx s => s.handle_stays ctx (.linkCharacteristicsRequest mac dataItems)
        (fun _ => rfl))) d number
    exact (hone.mono (fun _ hd' => hd') (NullIf.mono (fun h => h.1.elim))).map (fun _ hd' => hd')

theorem linkcharReply_ensures (d : Node)
    : Ensures (linkcharReply cfg env peerId mac dataItems d) (fun res => Stays d res.2)
        (NullIf False) := by
  unfold linkcharReply
  split
  . exact .ok (.refl _ _ _ d)
  . next number _ =>
    have hone := withSession_stays cfg env
      (ensures_of_never (fun ctx s => s.handle_stays ctx
        (.linkCharacteristicsResponse mac dataItems) (fun _ => rfl))) d number
    apply (hone.mono (fun _ hd' => hd') (NullIf.mono (fun h => h.1))).bind
    intro d' hd'
    split
    . next pdp _ => exact .ok (Acts.trans hd' (.of_localPdp _ _ _ d' pdp))
    . exact .ok hd'

theorem getPeerInfo_ensures (d : Node)
    : Ensures (getPeerInfo peerId d) (fun _ => True)
        (NullIf (∃ p, (d.peers.find? peerId).bind (fun number => d.objects[number]?) = some p
            ∧ p.peerPdp = none)) := by
  unfold getPeerInfo
  split
  . trivial
  . next p hp =>
    apply ((d.session p).getInfo_ensures.mono (fun _ htrue => htrue) ?_).map (fun _ htrue => htrue)
    exact NullIf.mono (fun hnone => ⟨p, hp, hnone⟩)

theorem getDestinationInfo_ensures (d : Node)
    : Ensures (getDestinationInfo peerId mac d) (fun _ => True)
        (NullIf (∃ p, (d.peers.find? peerId).bind (fun number => d.objects[number]?) = some p
            ∧ p.peerPdp = none)) := by
  unfold getDestinationInfo
  split
  . trivial
  . next p hp =>
    apply ((d.session p).peerPdp_ensures.mono (fun _ hpdp => hpdp) ?_).bind
    . intro pdp _
      split
      . trivial
      . trivial
    . exact NullIf.mono (fun hnone => ⟨p, hp, hnone⟩)

def Event.handled (number : Nat) : Event → Option ProtocolMessage
  | .receive number' signal => if number' = number then Session.handled cfg signal else none
  | _ => none

def Event.bringsUp (event : Event) (number : Nat) : Prop :=
  ∃ pm, event.handled cfg number = some pm ∧ pm.name.bringsUp

def Event.addsData (event : Event) (number : Nat) : Prop :=
  ∃ pm, event.handled cfg number = some pm ∧ pm.name.addsData cfg.modem

theorem receive_ensures (number : Nat) (signal : Option ProtocolMessage) (d : Node)
    : Ensures (receive cfg env signal d number)
        (Acts ((Event.receive number signal).bringsUp cfg) ((Event.receive number signal).bringsUp cfg)
          ((Event.receive number signal).addsData cfg) d)
        (NullIf (∃ pm, Session.handled cfg signal = some pm ∧
          ((pm.name.usesPeerData cfg.modem ∧ ∃ p, d.objects[number]? = some p ∧ p.peerPdp = none)
            ∨ (pm.name.validatesAddresses cfg.modem ∧ AsksPeers cfg d.localPdp pm.dataItems
                ∧ d.Unready)))) := by
  apply withSession_ensures
  intro p hp
  have hsignal := (d.session p).handle_evolves (d.context cfg env number) (.receive signal)
  have hself : (Event.receive number signal).handled cfg number = Session.handled cfg signal := by
    simp [Event.handled]
  apply hsignal.mono
  . intro s' hs'
    apply hs'.mono
    . rintro number' ⟨⟨pm, hpm, hup⟩, rfl⟩
      exact ⟨pm, hself.trans hpm, hup⟩
    . rintro ⟨pm, hpm, hup⟩
      exact ⟨pm, hself.trans hpm, hup⟩
    . rintro ⟨pm, hpm, hadd⟩
      exact ⟨pm, hself.trans hpm, hadd⟩
  . apply NullIf.mono
    rintro ⟨pm, hpm, hunhandled⟩
    refine ⟨pm, hpm, hunhandled.imp ?_ ?_⟩
    . exact fun h => ⟨h.1, p, hp, h.2⟩
    . rintro ⟨hvalidates, hasks, e, he, hnone⟩
      refine ⟨hvalidates, hasks, e, he, ?_⟩
      split at hnone
      . next heq =>
        -- the entry is that of the peer itself
        have hobject := (mem_peerList.mp he).2
        have hp' : d.objects[e.1]? = some p := by rw [heq]; exact hp
        obtain rfl := Option.some.inj (hobject.symm.trans hp')
        exact hnone
      . exact hnone

structure Steps (event : Event) (d d' : Node) : Prop where
  moves : Moves (event.bringsUp cfg) (event.bringsUp cfg) (event.addsData cfg) d d'
  fresh : ∀ (number : Nat) (p' : Peer), d'.objects[number]? = some p' → d.objects[number]? = none
    → p'.pstate ≠ .inSession

variable {event : Event} {d' : Node}

theorem Acts.steps
    (h : Acts (event.bringsUp cfg) (event.bringsUp cfg) (event.addsData cfg) d d')
    : Steps cfg event d d' := by
  refine ⟨h.moves, ?_⟩
  intro number p' hp' hnone
  have hlt := (List.getElem?_eq_some_iff.mp hp').1
  have hle := List.getElem?_eq_none_iff.mp hnone
  have hlength := h.length
  omega

theorem Acts.mono {news up add news' up' add' : Nat → Prop} (hnews : ∀ number, news number → news' number)
    (hup : ∀ number, up number → up' number) (hadd : ∀ number, add number → add' number)
    (h : Acts news up add d d')
    : Acts news' up' add' d d' := by
  refine ⟨?_, h.peers, h.length⟩
  intro number p hp
  obtain ⟨p', hp', hevolves⟩ := h.moves number p hp
  exact ⟨p', hp', hevolves.mono hnews (hup number) (hadd number)⟩

theorem Stays.steps (h : Stays d d') : Steps cfg event d d' := by
  exact Acts.steps cfg (Acts.mono (fun _ => False.elim) (fun _ => False.elim) (fun _ => False.elim) h)

theorem Steps.of_peers (h : Steps cfg event d d') (peers : SortedMap PeerId Nat)
    : Steps cfg event d { d' with peers := peers } := by
  exact ⟨h.moves.trans (.of_eq rfl rfl), h.fresh⟩

theorem connect_ensures (d : Node)
    : Ensures (connect cfg env peerId d) (Steps cfg (.connect peerId) d) (NullIf False) := by
  have hstart := withSession_stays cfg env (ensures_of_never (fun ctx s => s.handle_stays ctx .startPeer (fun _ => rfl)))
    { d with objects := d.objects ++ [.create peerId env.now], peers := d.peers.set peerId d.objects.length } d.objects.length
  apply (hstart.mono (fun _ hd' => hd') (NullIf.mono (fun h => h.1))).mono _ (fun _ hfault => hfault)
  intro d' hd'
  constructor
  . intro number p hp
    have hlt := (List.getElem?_eq_some_iff.mp hp).1
    obtain ⟨p', hp', hevolves⟩ := hd'.moves number p (by simp [List.getElem?_append_left hlt, hp])
    exact ⟨p', hp', hevolves.mono (fun _ => False.elim) False.elim False.elim⟩
  . intro number p' hp' hnone hin
    -- the only object that is new is the one that is connected
    have hge := List.getElem?_eq_none_iff.mp hnone
    have hlt := (List.getElem?_eq_some_iff.mp hp').1
    have hlength := hd'.length
    simp only [List.length_append, List.length_singleton] at hlength
    obtain rfl : number = d.objects.length := by omega
    obtain ⟨q, hq, hevolves⟩ := hd'.moves d.objects.length (.create peerId env.now) (by simp)
    obtain rfl := Option.some.inj (hq.symm.trans hp')
    rcases hevolves.pstate with hsame | hterminating | hup
    . rw [show (d'.session q).peer.pstate = q.pstate from rfl, hin] at hsame
      cases hsame
    . rw [show (d'.session q).peer.pstate = q.pstate from rfl, hin] at hterminating
      cases hterminating
    . exact hup.1

def Event.usesData (d : Node) : Event → Option Peer
  | .receive number signal =>
    match Session.handled cfg signal with
    | some pm => if pm.name.usesPeerData cfg.modem then d.objects[number]? else none
    | none => none
  | .getPeerInfo peerId | .getDestinationInfo peerId _ =>
    (d.peers.find? peerId).bind (fun number => d.objects[number]?)
  | _ => none

def Event.usesAll (d : Node) : Event → Bool
  | .receive _ signal =>
    match Session.handled cfg signal with
    | some pm => pm.name.validatesAddresses cfg.modem && decide (AsksPeers cfg d.localPdp pm.dataItems)
    | none => false
  | .destinationUp mac _ advert => d.bringsNew cfg mac advert
  | .destinationUpdate mac _ advert => d.looksUp cfg mac advert
  | .destinationDown mac advert => !d.localPdp.validDestination mac && d.looksUp cfg mac advert
  | .linkcharRequest _ _ => true
  | _ => false

def ready (d : Node) (event : Event) : Bool :=
  (event.usesData cfg d).all (fun p => p.peerPdp.isSome)
    &&
  (!event.usesAll cfg d || d.peerList.all (fun e => e.2.peerPdp.isSome))

theorem not_ready_of_usesData {p : Peer} (h : event.usesData cfg d = some p)
    (hnone : p.peerPdp = none)
    : d.ready cfg event = false := by
  simp [ready, h, hnone]

theorem not_ready_of_usesAll (h : event.usesAll cfg d = true) (hunready : d.Unready)
    : d.ready cfg event = false := by
  obtain ⟨e, he, hnone⟩ := hunready
  have hall : d.peerList.all (fun e => e.2.peerPdp.isSome) = false := by
    rw [List.all_eq_false]
    exact ⟨e, he, by simp [hnone]⟩
  simp [ready, h, hall]

end

end Node
end Dlep
end Emane

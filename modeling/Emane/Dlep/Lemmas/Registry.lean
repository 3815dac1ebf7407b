import Emane.Dlep.Lemmas.Roster
import Emane.Dlep.Lemmas.Run

/-!
This module contains the consistency of the two tables of peers, over every order of discoveries,
connects, sessions and their ends.
-/

namespace Emane
namespace Dlep

namespace Roster

structure Sound (r : Roster) : Prop where
  keyed : ∀ peerId number, r.peers.find? peerId = some number → ∃ m, r.members[number]? = some m
    ∧ m.peerId = peerId
  listed : ∀ number m, r.members[number]? = some m → m.pstate ≠ .terminating
    → r.peers.find? m.peerId = some number
  infoBase : ∀ peerId number, r.infoBase.find? peerId = some number ↔
    ∃ m, r.members[number]? = some m ∧ m.peerId = peerId ∧ m.pstate = .inSession

variable {cfg : SessionConfig} {env : Env} {event : Node.Event} {r r' : Roster}

variable {peerId : PeerId} {number : Nat} {m : Member}

theorem Has.of_find? (h : r.peers.find? peerId = some number)
    (hm : r.members[number]? = some m)
    : r.Has number m := by
  rw [SortedMap.find?_eq_some_iff] at h
  exact ⟨List.mem_map_of_mem h, hm⟩

theorem Sound.find?_of_has (h : r.Sound) (hhas : r.Has number m)
    : r.peers.find? m.peerId = some number := by
  obtain ⟨hmem, hm⟩ := hhas
  obtain ⟨⟨peerId, number'⟩, he, rfl⟩ := List.mem_map.mp hmem
  rw [← SortedMap.find?_eq_some_iff] at he
  obtain ⟨m', hm', hpeerId⟩ := h.keyed peerId number' he
  obtain rfl := Option.some.inj (hm.symm.trans hm')
  rw [hpeerId]
  exact he

theorem Sound.unique (h : r.Sound) {number' : Nat} {m' : Member}
    (hlisted : r.peers.find? m.peerId = some number)
    (hm' : r.members[number']? = some m') (hpeerId : m'.peerId = m.peerId)
    (hpstate : m'.pstate ≠ .terminating)
    : number' = number := by
  have hlisted' := h.listed number' m' hm' hpstate
  rw [hpeerId, hlisted] at hlisted'
  exact (Option.some.inj hlisted').symm

theorem getElem?_put_of_getElem? (hm : r.members[number]? = some m) (st : Standing)
    (number' : Nat)
    : (r.put number st).members[number']?
        =
      if number' = number then
        some { peerId := st.peerId, pstate := st.pstate, peerPdp := st.peerPdp }
      else
        r.members[number']? := by
  rw [getElem?_put, hm, Option.map_some]

variable {st : Standing}

theorem Sound.keyed_put (h : r.Sound) (hm : r.members[number]? = some m)
    (hpeerId : st.peerId = m.peerId) (peerId : PeerId) (number' : Nat)
    (hfind : (r.put number st).peers.find? peerId = some number')
    : ∃ m', (r.put number st).members[number']? = some m' ∧ m'.peerId = peerId := by
  obtain ⟨m', hm', rfl⟩ := h.keyed peerId number' hfind
  rw [getElem?_put_of_getElem? hm]
  split
  . next heq =>
    subst heq
    obtain rfl := Option.some.inj (hm.symm.trans hm')
    exact ⟨_, rfl, hpeerId⟩
  . exact ⟨m', hm', rfl⟩

theorem Sound.listed_put (h : r.Sound) (hm : r.members[number]? = some m)
    (hlisted : st.pstate ≠ .terminating → r.peers.find? st.peerId = some number) (number' : Nat)
    (m' : Member)
    (hm' : (r.put number st).members[number']? = some m') (hterminating : m'.pstate ≠ .terminating)
    : (r.put number st).peers.find? m'.peerId = some number' := by
  rw [getElem?_put_of_getElem? hm] at hm'
  split at hm'
  . next heq =>
    subst heq
    cases hm'
    exact hlisted hterminating
  . exact h.listed number' m' hm' hterminating

theorem Sound.put_same (h : r.Sound) (hm : r.members[number]? = some m)
    (hpeerId : st.peerId = m.peerId) (hpstate : st.pstate = m.pstate)
    (hinfoBase : st.infoBase = r.infoBase)
    : (r.put number st).Sound := by
  constructor
  . exact h.keyed_put hm hpeerId
  . apply h.listed_put hm
    rw [hpeerId, hpstate]
    exact h.listed number m hm
  . intro peerId number'
    rw [put_infoBase, hinfoBase, h.infoBase, getElem?_put_of_getElem? hm]
    split
    . next heq =>
      subst heq
      simp [hm, hpeerId, hpstate]
    . rfl

theorem Sound.stop (h : r.Sound) {number : Nat} {m : Member} (hm : r.members[number]? = some m)
    (hpstate : m.pstate ≠ .inSession)
    : (r.put number (r.standing m).stop).Sound := by
  constructor
  . exact h.keyed_put hm rfl
  . exact h.listed_put hm (fun hterminating => absurd rfl hterminating)
  . intro peerId number'
    have hinfoBase : (r.put number (r.standing m).stop).infoBase = r.infoBase := rfl
    rw [hinfoBase, h.infoBase, getElem?_put_of_getElem? hm]
    split
    . next heq =>
      subst heq
      simp [hm, hpstate, Standing.stop]
    . rfl

theorem Sound.infoBase_others (h : r.Sound) (hm : r.members[number]? = some m)
    (hpeerId : st.peerId = m.peerId) (hother : peerId ≠ m.peerId) (number' : Nat)
    : r.infoBase.find? peerId = some number'
        ↔
      ∃ m', (r.put number st).members[number']? = some m' ∧ m'.peerId = peerId
          ∧ m'.pstate = .inSession := by
  rw [h.infoBase, getElem?_put_of_getElem? hm]
  split
  . next heq =>
    subst heq
    constructor
    . rintro ⟨m', hm', rfl, -⟩
      obtain rfl := Option.some.inj (hm.symm.trans hm')
      exact absurd rfl hother
    . rintro ⟨m', hm', rfl, -⟩
      cases hm'
      exact absurd hpeerId hother
  . rfl

theorem Sound.eq_of_inSession (h : r.Sound) {number' : Nat} {m' : Member}
    (hm : r.members[number]? = some m) (hlisted : r.peers.find? m.peerId = some number)
    (hm' : (r.put number st).members[number']? = some m')
    (hpeerId : m'.peerId = m.peerId) (hin : m'.pstate = .inSession)
    : number' = number := by
  rw [getElem?_put_of_getElem? hm] at hm'
  split at hm'
  . assumption
  . exact h.unique hlisted hm' hpeerId (by simp [hin])

theorem Sound.terminate (h : r.Sound) (hm : r.members[number]? = some m)
    (hpstate : m.pstate ≠ .terminating)
    : (r.put number (r.standing m).terminate).Sound := by
  have hlisted := h.listed number m hm hpstate
  constructor
  . exact h.keyed_put hm rfl
  . exact h.listed_put hm (fun hterminating => absurd rfl hterminating)
  . intro peerId number'
    have hinfoBase : (r.put number (r.standing m).terminate).infoBase = r.infoBase.erase m.peerId := rfl
    rw [hinfoBase, SortedMap.find?_erase]
    split
    . next heq =>
      subst heq
      constructor
      . intro hnone
        cases hnone
      . rintro ⟨m', hm', hpeerId, hin⟩
        obtain rfl := h.eq_of_inSession hm hlisted hm' hpeerId hin
        rw [getElem?_put_of_getElem? hm, if_pos rfl] at hm'
        cases hm'
        cases hin
    . next hother => exact h.infoBase_others hm rfl hother number'

theorem Sound.bringUp (h : r.Sound) (hm : r.members[number]? = some m)
    (hlisted : r.peers.find? m.peerId = some number) (pdp : PeerData)
    : (r.put number ((r.standing m).bringUp number pdp)).Sound := by
  constructor
  . exact h.keyed_put hm rfl
  . exact h.listed_put hm (fun _ => hlisted)
  . intro peerId number'
    have hinfoBase : (r.put number ((r.standing m).bringUp number pdp)).infoBase
      = r.infoBase.set m.peerId number := rfl
    rw [hinfoBase, SortedMap.find?_set]
    split
    . next heq =>
      subst heq
      constructor
      . intro hself
        cases hself
        rw [getElem?_put_of_getElem? hm, if_pos rfl]
        exact ⟨_, rfl, rfl, rfl⟩
      . rintro ⟨m', hm', hpeerId, hin⟩
        rw [h.eq_of_inSession hm hlisted hm' hpeerId hin]
    . next hother => exact h.infoBase_others hm rfl hother number'

theorem Sound.connect (h : r.Sound)
    (hfree : ∀ number m, r.peers.find? peerId = some number → r.members[number]? = some m
      → m.pstate = .terminating)
    : (r.enter (.connect peerId)).Sound := by
  have hnew : ∀ number,
    (r.members ++ [{ peerId := peerId, pstate := PeerState.connected, peerPdp := none }])[number]?
      = if number = r.members.length then
          some { peerId := peerId, pstate := PeerState.connected, peerPdp := none }
        else
          r.members[number]? := by
    intro number
    rw [List.getElem?_append]
    split
    . next hlt => rw [if_neg (by omega)]
    . next hge =>
      split
      . next heq => simp [heq]
      . next hne =>
        rw [List.getElem?_eq_none (by simp; omega), List.getElem?_eq_none (by omega)]
  unfold enter
  constructor
  . intro peerId' number hfind
    simp only [SortedMap.find?_set] at hfind
    simp only [hnew]
    split at hfind
    . next heq =>
      cases hfind
      exact ⟨_, by rw [if_pos rfl], heq.symm⟩
    . obtain ⟨m, hm, hpeerId⟩ := h.keyed peerId' number hfind
      have hlt := (List.getElem?_eq_some_iff.mp hm).1
      exact ⟨m, by rw [if_neg (by omega), hm], hpeerId⟩
  . intro number m hm hterminating
    simp only [hnew] at hm
    simp only [SortedMap.find?_set]
    split at hm
    . next heq =>
      cases hm
      rw [if_pos rfl, heq]
    . have hlisted := h.listed number m hm hterminating
      rw [if_neg]
      . exact hlisted
      . rintro rfl
        exact hterminating (hfree number m hlisted hm)
  . intro peerId' number
    simp only [hnew, h.infoBase]
    split
    . next heq =>
      have hnone : r.members[number]? = none := List.getElem?_eq_none (by omega)
      simp [hnone]
    . rfl

theorem Sound.cleanup (h : r.Sound) {peers : SortedMap PeerId Nat}
    (hpeers : ∀ peerId number, peers.find? peerId = some number ↔ r.peers.find? peerId = some number ∧
      ∀ number' m, r.Has number' m → m.pstate = .terminating → m.peerId ≠ peerId)
    : Sound { r with peers := peers } := by
  constructor
  . exact fun peerId number hfind => h.keyed peerId number ((hpeers peerId number).mp hfind).1
  . intro number m hm hterminating
    have hlisted := h.listed number m hm hterminating
    refine (hpeers m.peerId number).mpr ⟨hlisted, ?_⟩
    intro number' m' hhas hterminating' hpeerId
    have hlisted' := h.find?_of_has hhas
    rw [hpeerId, hlisted] at hlisted'
    cases hlisted'
    obtain rfl := Option.some.inj (hm.symm.trans hhas.2)
    exact hterminating hterminating'
  . exact h.infoBase

theorem Sound.clear (h : r.Sound) (hterminating : ∀ number m, r.Has number m → m.pstate = .terminating)
    : Sound { r with peers := .empty } := by
  constructor
  . intro peerId number hfind
    cases hfind
  . intro number m hm hpstate
    exact absurd (hterminating number m (.of_find? (h.listed number m hm hpstate) hm)) hpstate
  . exact h.infoBase

end Roster

namespace Node.Event

variable {cfg : SessionConfig} {event : Node.Event} {number : Nat} {input : Session.Input} {ctx : Context}

def stops (cfg : SessionConfig) (event : Node.Event) (number : Nat) : Prop :=
  event = .endOfFile number ∨ ∃ pm, event.handled cfg number = some pm ∧ pm.name = .sessionTermination

theorem causes.handled {pm : ProtocolMessage} (h : event.causes number input)
    (hpm : input.handled cfg = some pm)
    : event.handled cfg number = some pm := by
  cases input with
  | receive signal =>
    have hevent : event = .receive number signal := h
    rw [hevent, Event.handled, if_pos rfl]
    exact hpm
  | _ => cases hpm

theorem causes.stops (h : event.causes number input) (hstops : input.stops ctx)
    : event.stops ctx.cfg number := by
  rcases hstops with rfl | ⟨pm, hpm, hname⟩
  . exact Or.inl h
  . exact Or.inr ⟨pm, h.handled hpm, hname⟩

theorem causes.bringsUp {peerPdp : Option PeerData} {dataItems : List DataItem}
    (h : event.causes number input)
    (hup : input.bringsUp ctx peerPdp dataItems)
    : event.bringsUp ctx.cfg number := by
  obtain ⟨pm, hpm, ⟨hname, -⟩ | ⟨hname, -⟩⟩ := hup
  . exact ⟨pm, h.handled hpm, by rw [hname]; rfl⟩
  . exact ⟨pm, h.handled hpm, by rw [hname]; rfl⟩

theorem not_bringsUp_of_stops (h : event.stops cfg number) : ¬event.bringsUp cfg number := by
  rintro ⟨pm, hpm, hup⟩
  rcases h with rfl | ⟨pm', hpm', hname⟩
  . cases hpm
  . obtain rfl := Option.some.inj (hpm.symm.trans hpm')
    rw [hname] at hup
    cases hup

end Node.Event

namespace Roster

variable {cfg : SessionConfig} {env : Env} {event : Node.Event} {r r' : Roster}

structure Orderly (cfg : SessionConfig) (event : Node.Event) (r : Roster) : Prop where
  stops : ∀ number m, event.stops cfg number → r.members[number]? = some m → m.pstate ≠ .inSession
  bringsUp : ∀ number m, event.bringsUp cfg number → r.members[number]? = some m
    → r.peers.find? m.peerId = some number

theorem Sound.session (h : r.Sound) (horderly : r.Orderly cfg event) {number : Nat} {m : Member}
    {input : Session.Input}
    {ctx : Context} {st : Standing} (hcauses : event.causes number input)
    (hm : r.members[number]? = some m)
    (haround : r.Around cfg env number ctx) (hmove : Standing.Move ctx input (r.standing m) st)
    : (r.put number st).Sound ∧ st.peerId = m.peerId
        ∧ (st.pstate = m.pstate ∨ st.pstate = .terminating ∨ event.bringsUp cfg number) := by
  have hself : ∀ pdp, (r.put number ((r.standing m).setPdp pdp)).Sound
    ∧ ((r.standing m).setPdp pdp).peerId = m.peerId
      ∧ (((r.standing m).setPdp pdp).pstate = m.pstate ∨ ((r.standing m).setPdp pdp).pstate = .terminating
        ∨ event.bringsUp cfg number) := by
    exact fun pdp => ⟨h.put_same hm rfl rfl rfl, rfl, Or.inl rfl⟩
  cases hmove with
  | stop hstops =>
    have hevent := hcauses.stops hstops
    rw [haround.cfg] at hevent
    exact ⟨h.stop hm (horderly.stops number m hevent hm), rfl, Or.inr (Or.inl rfl)⟩
  | terminate hpstate => exact ⟨h.terminate hm hpstate, rfl, Or.inr (Or.inl rfl)⟩
  | bringUp hup =>
    have hevent := hcauses.bringsUp hup
    rw [haround.cfg] at hevent
    refine ⟨?_, rfl, Or.inr (Or.inr hevent)⟩
    rw [haround.self]
    exact h.bringUp hm (horderly.bringsUp number m hevent hm) _
  | setNeedsResponse _ _ _ => exact hself _
  | addDestination _ _ _ => exact hself _
  | updateDestination _ _ _ => exact hself _
  | removeDestination _ _ _ => exact hself _
  | updateDataItems _ _ _ => exact hself _

theorem Sound.move (h : r.Sound) (horderly : r.Orderly cfg event) (hmove : Move cfg env event r r')
    : r'.Sound ∧ r'.Orderly cfg event := by
  cases hmove with
  | session hcauses hm haround hmove =>
    next number m input ctx st =>
    obtain ⟨hsound, hpeerId, hpstate⟩ := h.session horderly hcauses hm haround hmove
    refine ⟨hsound, ?_, ?_⟩
    . intro number' m' hstops hm'
      rw [getElem?_put_of_getElem? hm] at hm'
      split at hm'
      . next heq =>
        subst heq
        cases hm'
        rcases hpstate with hsame | hterminating | hup
        . rw [hsame]
          exact horderly.stops _ m hstops hm
        . rw [hterminating]
          simp
        . exact absurd hup (Node.Event.not_bringsUp_of_stops hstops)
      . exact horderly.stops number' m' hstops hm'
    . intro number' m' hup hm'
      rw [getElem?_put_of_getElem? hm] at hm'
      split at hm'
      . next heq =>
        subst heq
        cases hm'
        rw [hpeerId]
        exact horderly.bringsUp _ m hup hm
      . exact horderly.bringsUp number' m' hup hm'
  | addDestination _ _ => exact ⟨⟨h.keyed, h.listed, h.infoBase⟩, horderly.stops, horderly.bringsUp⟩
  | updateDestination _ _ => exact ⟨⟨h.keyed, h.listed, h.infoBase⟩, horderly.stops, horderly.bringsUp⟩
  | removeDestination _ _ => exact ⟨⟨h.keyed, h.listed, h.infoBase⟩, horderly.stops, horderly.bringsUp⟩
  | updateDataItems _ => exact ⟨⟨h.keyed, h.listed, h.infoBase⟩, horderly.stops, horderly.bringsUp⟩
  | cleanup hevent hpeers =>
    refine ⟨h.cleanup hpeers, horderly.stops, ?_⟩
    rintro number m ⟨pm, hpm, -⟩
    rw [hevent] at hpm
    cases hpm
  | clear hevent hterminating =>
    refine ⟨h.clear hterminating, horderly.stops, ?_⟩
    rintro number m ⟨pm, hpm, -⟩
    rw [hevent] at hpm
    cases hpm

theorem Sound.reaches (h : r.Sound) (horderly : r.Orderly cfg event)
    (hreaches : Reaches cfg env event r r')
    : r'.Sound := by
  have hboth : r'.Sound ∧ r'.Orderly cfg event := by
    induction hreaches with
    | refl => exact ⟨h, horderly⟩
    | tail _ hmove ih => exact ih.1.move ih.2 hmove
  exact hboth.1

end Roster

namespace Node

def Registered (d : Node) : Prop :=
  ∀ peerId, (∃ number, d.infoBase.find? peerId = some number) ↔
    ∃ number p, d.peers.find? peerId = some number ∧ d.objects[number]? = some p ∧ p.pstate = .inSession

def KeepsPeers (d d' : Node) : Prop :=
  ∀ peerId number p', d.peers.find? peerId = some number → d'.objects[number]? = some p'
    → p'.pstate ≠ .terminating →
    d'.peers.find? peerId = some number

def orderly (cfg : SessionConfig) (d : Node) : Event → Bool
  | .connect peerId =>
    ((d.peers.find? peerId).bind (fun number => d.objects[number]?)).all
      (fun p => decide (p.pstate = .terminating))
  | .endOfFile number => (d.objects[number]?).all (fun p => decide (p.pstate ≠ .inSession))
  | .receive number signal =>
    match d.objects[number]?, Session.handled cfg signal with
    | some p, some pm =>
      !(decide (pm.name = .sessionTermination) && decide (p.pstate = .inSession))
        && (!pm.name.bringsUp || decide (d.peers.find? p.peerId = some number))
    | _, _ => true
  | _ => true

variable {cfg : SessionConfig}

variable {d : Node}

theorem registered_of_sound (h : d.roster.Sound) : d.Registered := by
  intro peerId
  constructor
  . rintro ⟨number, hfind⟩
    obtain ⟨m, hm, rfl, hin⟩ := (h.infoBase peerId number).mp hfind
    have hlisted := h.listed number m hm (by simp [hin])
    rw [getElem?_roster, Option.map_eq_some_iff] at hm
    obtain ⟨p, hp, rfl⟩ := hm
    exact ⟨number, p, hlisted, hp, hin⟩
  . rintro ⟨number, p, hfind, hp, hin⟩
    obtain ⟨m, hm, hpeerId⟩ := h.keyed peerId number hfind
    have hself : m = p.member := by
      rw [getElem?_roster, hp, Option.map_some] at hm
      exact (Option.some.inj hm).symm
    subst hself
    exact ⟨number, (h.infoBase peerId number).mpr ⟨p.member, hm, hpeerId, hin⟩⟩

variable {event : Event}

theorem enter_of_not_connect (h : ∀ peerId, event ≠ .connect peerId) (r : Roster)
    : r.enter event = r := by
  cases event with
  | connect peerId => exact absurd rfl (h peerId)
  | _ => rfl

theorem sound_enter (h : d.roster.Sound) (horderly : d.orderly cfg event = true)
    : (d.roster.enter event).Sound := by
  cases event with
  | connect peerId =>
    apply h.connect
    intro number m hfind hm
    rw [getElem?_roster, Option.map_eq_some_iff] at hm
    obtain ⟨p, hp, rfl⟩ := hm
    have hfind' : d.peers.find? peerId = some number := hfind
    have hterminating : p.pstate = .terminating := by
      simpa [orderly, hfind', hp] using horderly
    exact hterminating
  | _ => exact h

theorem orderly_enter (horderly : d.orderly cfg event = true)
    : (d.roster.enter event).Orderly cfg event := by
  constructor
  . intro number m hstops hm
    rcases hstops with rfl | ⟨pm, hpm, hname⟩
    . rw [enter_of_not_connect (by simp), getElem?_roster, Option.map_eq_some_iff] at hm
      obtain ⟨p, hp, rfl⟩ := hm
      simpa [orderly, hp, Peer.member] using horderly
    . cases event with
      | receive number' signal =>
        rw [enter_of_not_connect (by simp), getElem?_roster, Option.map_eq_some_iff] at hm
        obtain ⟨p, hp, rfl⟩ := hm
        simp only [Event.handled] at hpm
        split at hpm
        . next heq =>
          subst heq
          simp only [orderly, hp, hpm, hname, decide_true, Bool.true_and, Bool.and_eq_true,
            Bool.not_eq_true',
            decide_eq_false_iff_not] at horderly
          exact horderly.1
        . cases hpm
      | _ => cases hpm
  . rintro number m ⟨pm, hpm, hup⟩ hm
    cases event with
    | receive number' signal =>
      rw [enter_of_not_connect (by simp)] at hm ⊢
      rw [getElem?_roster, Option.map_eq_some_iff] at hm
      obtain ⟨p, hp, rfl⟩ := hm
      simp only [Event.handled] at hpm
      split at hpm
      . next heq =>
        subst heq
        simp only [orderly, hp, hpm, hup, Bool.not_true, Bool.false_or, Bool.and_eq_true,
          decide_eq_true_eq] at horderly
        exact horderly.2
      . cases hpm
    | _ => cases hpm

theorem sound_step {d' : Node} {e : Env × Event} (h : d.roster.Sound)
    (horderly : d.orderly cfg e.2 = true)
    (hstep : step cfg d e = some d')
    : d'.roster.Sound := by
  exact (sound_enter h horderly).reaches (orderly_enter horderly) (step_reaches cfg hstep)

theorem keepsPeers_of_sound {d' : Node} {e : Env × Event} (h : d.roster.Sound) (h' : d'.roster.Sound)
    (hstep : step cfg d e = some d')
    : d.KeepsPeers d' := by
  intro peerId number p' hfind hp' hterminating
  obtain ⟨m, hm, hpeerId⟩ := h.keyed peerId number hfind
  rw [getElem?_roster, Option.map_eq_some_iff] at hm
  obtain ⟨p, hp, rfl⟩ := hm
  -- the peer is still known by its id
  obtain ⟨q, hq, hevolves⟩ := (step_steps cfg hstep).moves number p hp
  obtain rfl := Option.some.inj (hq.symm.trans hp')
  have hlisted := h'.listed number q.member (by rw [getElem?_roster, hp', Option.map_some]) hterminating
  have hsame : q.member.peerId = peerId := hevolves.peerId.trans hpeerId
  rw [hsame] at hlisted
  exact hlisted

theorem sound_init (localPdp : PeerData) : (init localPdp).roster.Sound := by
  constructor
  . intro peerId number hfind
    cases hfind
  . intro number m hm
    simp [roster, init] at hm
  . intro peerId number
    simp [roster, init]

end Node

namespace Registry

def orderly (cfg : SessionConfig) (r : Registry) : Event → Bool
  | .asyncMakePeer peerId error => error || r.node.orderly cfg (.connect peerId)
  | .node event => r.node.orderly cfg event
  | _ => true

variable {cfg : SessionConfig}

variable {r r' : Registry}

theorem step_node {e : Env × Event} (hstep : step cfg r e = some r')
    : r'.node = r.node ∨ ∃ event, r.node.step cfg (e.1, event) = some r'.node ∧
        (r.orderly cfg e.2 = true → r.node.orderly cfg event = true) := by
  obtain ⟨env, event⟩ := e
  unfold step at hstep
  split at hstep
  . cases hstep
    unfold handleDiscovery
    split
    . exact Or.inl rfl
    . split
      . exact Or.inl rfl
      . exact Or.inl rfl
  . cases hstep
    unfold handlePeerOffer
    split
    . exact Or.inl rfl
    . split
      . exact Or.inl rfl
      . exact Or.inl rfl
  . next peerId error heq =>
    have hevent : event = .asyncMakePeer peerId error := heq
    subst hevent
    split at hstep
    . cases hmake : r.handleAsyncMakePeer cfg env peerId error with
      | error fault =>
        simp only [hmake] at hstep
        cases hstep
      | ok r₁ =>
        simp only [hmake] at hstep
        cases hstep
        unfold handleAsyncMakePeer at hmake
        simp only at hmake
        split at hmake
        . cases hmake
          exact Or.inl rfl
        . next herror =>
          cases hconnect : r.node.connect cfg env peerId with
          | error fault =>
            rw [hconnect] at hmake
            cases hmake
          | ok d =>
            rw [hconnect] at hmake
            cases hmake
            refine Or.inr ⟨.connect peerId, ?_, ?_⟩
            . simp [Node.step, Node.handle, hconnect, Except.toOption]
            . intro horderly
              simpa [orderly, herror] using horderly
    . cases hstep
  . cases hstep
  . next event' _ heq =>
    have hevent : event = .node event' := heq
    subst hevent
    rw [Option.map_eq_some_iff] at hstep
    obtain ⟨d, hd, rfl⟩ := hstep
    exact Or.inr ⟨event', hd, fun horderly => horderly⟩

theorem sound_step {e : Env × Event} (h : r.node.roster.Sound) (horderly : r.orderly cfg e.2 = true)
    (hstep : step cfg r e = some r')
    : r'.node.roster.Sound := by
  rcases step_node hstep with hsame | ⟨event, hnode, hok⟩
  . rw [hsame]
    exact h
  . exact Node.sound_step h (hok horderly) hnode

/--
In every run in which no peer takes the place of one that is not terminating, peers that are not
terminating stay in the table, and the information base has exactly those in session.
-/
theorem peers_registered {localPdp : PeerData} {connecting : List PeerId} {es : List (Env × Event)}
    {e : Env × Event}
    {r r' : Registry}
    (hguarded : Guarded (step cfg) (fun r e => r.orderly cfg e.2 = true) (.init localPdp connecting)
      (es ++ [e]))
    (hrun : run (step cfg) (.init localPdp connecting) es = some r) (hstep : step cfg r e = some r')
    : r.node.KeepsPeers r'.node ∧ r'.node.Registered := by
  have hsound : r.node.roster.Sound := by
    exact run_inv (fun _ _ _ hr horderly hstep => sound_step hr horderly hstep) (Node.sound_init localPdp)
      hguarded.of_append hrun
  have hsound' := sound_step hsound (hguarded.last hrun) hstep
  refine ⟨?_, Node.registered_of_sound hsound'⟩
  rcases step_node hstep with hsame | ⟨event, hnode, -⟩
  . rw [hsame]
    exact fun peerId number p' hfind _ _ => hfind
  . exact Node.keepsPeers_of_sound hsound hsound' hnode

def orderlyOffers : List (Env × Event) :=
  [(Node.quietEnv, .peerOffer 1), (Node.quietEnv, .asyncMakePeer 1 false),
    (Node.quietEnv,
      .node (.receive 0
      (some ⟨.sessionInitializationResponse, [⟨1, .div_u8_string 0 []⟩, ⟨5, .div_u32 60000⟩]⟩))),
    (Node.quietEnv, .node .terminate), (Node.quietEnv, .peerOffer 1)]

def routerRegistry : Registry :=
  .init (.create (Node.rfc8175 false) none []) []

theorem peers_registered_offers
    : ∃ r r', run (step (Node.rfc8175 false)) routerRegistry (orderlyOffers.take 4) = some r
        ∧ step (Node.rfc8175 false) r (Node.quietEnv, .peerOffer 1) = some r'
        ∧ r.node.KeepsPeers r'.node ∧ r'.node.Registered := by
  have hdefined : (run (step (Node.rfc8175 false)) routerRegistry orderlyOffers).isSome = true := by
    decide +kernel
  obtain ⟨r', hall⟩ := Option.isSome_iff_exists.mp hdefined
  have hsplit : orderlyOffers = orderlyOffers.take 4 ++ [(Node.quietEnv, .peerOffer 1)] := rfl
  have hguarded : Guarded (step (Node.rfc8175 false))
    (fun r e => r.orderly (Node.rfc8175 false) e.2 = true) routerRegistry
      (orderlyOffers.take 4 ++ [(Node.quietEnv, .peerOffer 1)]) := by
    decide +kernel
  rw [hsplit, run_append, Option.bind_eq_some_iff] at hall
  obtain ⟨r, hrun, hlast⟩ := hall
  rw [run_cons, Option.bind_eq_some_iff] at hlast
  obtain ⟨r'', hstep, hnil⟩ := hlast
  obtain rfl := Option.some.inj hnil
  exact ⟨r, r'', hrun, hstep, peers_registered hguarded hrun hstep⟩

def overview (r : Registry) : List (PeerId × Nat) × List (PeerId × Nat) × List PeerState :=
  (r.node.peers.toList, r.node.infoBase.toList, r.node.objects.map (fun p => p.pstate))

theorem not_registered {peers infoBase : List (PeerId × Nat)} {states : List PeerState}
    (hoverview : r.overview = (peers, infoBase, states)) {peerId : PeerId} {number : Nat}
    (h : (peerId, number) ∈ infoBase)
    (hstates : .inSession ∉ states)
    : ¬r.node.Registered := by
  obtain ⟨-, rest⟩ := Prod.mk.inj hoverview
  obtain ⟨rfl, rfl⟩ := Prod.mk.inj rest
  intro hregistered
  obtain ⟨number', p, -, hp, hin⟩ := (hregistered peerId).mp
    ⟨number, (SortedMap.find?_eq_some_iff _ _ _).mpr h⟩
  exact hstates (List.mem_map.mpr ⟨p, List.mem_of_getElem? hp, hin⟩)

theorem not_keepsPeers {peers peers' infoBase infoBase' : List (PeerId × Nat)}
    {states states' : List PeerState} (hoverview : r.overview = (peers, infoBase, states))
    (hoverview' : r'.overview = (peers', infoBase', states')) {peerId : PeerId} {number number' : Nat}
    (h : (peerId, number) ∈ peers) (h' : (peerId, number') ∈ peers') (hne : number' ≠ number)
    (hstate : states'[number]? = some .connected)
    : ¬r.node.KeepsPeers r'.node := by
  cases hoverview
  obtain ⟨rfl, rest⟩ := Prod.mk.inj hoverview'
  obtain ⟨-, rfl⟩ := Prod.mk.inj rest
  intro hkeeps
  rw [List.getElem?_map, Option.map_eq_some_iff] at hstate
  obtain ⟨p', hp', hconnected⟩ := hstate
  have hfind := hkeeps peerId number p' ((SortedMap.find?_eq_some_iff _ _ _).mpr h) hp'
    (by simp [hconnected])
  rw [(SortedMap.find?_eq_some_iff _ _ _).mpr h'] at hfind
  exact hne (Option.some.inj hfind)

def twiceOffered : List (Env × Event) :=
  [(Node.quietEnv, .peerOffer 1), (Node.quietEnv, .peerOffer 1), (Node.quietEnv, .asyncMakePeer 1 false)]

def inSessionEvents : List (Env × Event) :=
  [(Node.quietEnv, .asyncMakePeer 1 false),
    (Node.quietEnv, .node (.receive 0 (some Node.initializationMessage)))]

def modemRegistry : Registry :=
  .init (.create (Node.rfc8175 true) none []) []

theorem peers_not_registered
    : (∃ r r', run (step (Node.rfc8175 false)) routerRegistry twiceOffered = some r
          ∧ step (Node.rfc8175 false) r (Node.quietEnv, .asyncMakePeer 1 false) = some r'
          ∧ r'.overview = ([(1, 1)], [], [.connected, .connected]) ∧ ¬r.node.KeepsPeers r'.node)
      ∧ (∃ r', run (step (Node.rfc8175 true)) modemRegistry
        (inSessionEvents ++ [(Node.quietEnv, .node (.endOfFile 0))])
            = some r'
          ∧ r'.overview = ([(1, 0)], [(1, 0)], [.terminating]) ∧ ¬r'.node.Registered)
      ∧ (∃ r', run (step (Node.rfc8175 true)) modemRegistry
            (inSessionEvents ++ [(Node.quietEnv, .node (.receive 0 (some Node.terminationMessage))),
              (Node.quietEnv, .node .cleanupExPeers)])
            = some r'
          ∧ r'.overview = ([], [(1, 0)], [.terminating]) ∧ ¬r'.node.Registered) := by
  refine ⟨?_, ?_, ?_⟩
  . have hbefore : (run (step (Node.rfc8175 false)) routerRegistry twiceOffered).map overview
        = some ([(1, 0)], [], [.connected]) := by
      decide +kernel
    have hafter : (run (step (Node.rfc8175 false)) routerRegistry
        (twiceOffered ++ [(Node.quietEnv, .asyncMakePeer 1 false)])).map overview
          = some ([(1, 1)], [], [.connected, .connected]) := by
      decide +kernel
    obtain ⟨r, hrun, hoverview⟩ := Option.map_eq_some_iff.mp hbefore
    rw [run_append, hrun, Option.bind_some] at hafter
    obtain ⟨r', hlast, hoverview'⟩ := Option.map_eq_some_iff.mp hafter
    rw [run_cons, Option.bind_eq_some_iff] at hlast
    obtain ⟨r'', hstep, hnil⟩ := hlast
    obtain rfl := Option.some.inj hnil
    exact ⟨r, r'', hrun, hstep, hoverview',
      not_keepsPeers hoverview hoverview' List.mem_cons_self List.mem_cons_self (by decide) rfl⟩
  . have hmap : (run (step (Node.rfc8175 true)) modemRegistry
        (inSessionEvents ++ [(Node.quietEnv, .node (.endOfFile 0))])).map overview
          = some ([(1, 0)], [(1, 0)], [.terminating]) := by
      decide +kernel
    obtain ⟨r', hrun, hoverview⟩ := Option.map_eq_some_iff.mp hmap
    exact ⟨r', hrun, hoverview, not_registered hoverview List.mem_cons_self (by decide)⟩
  . have hmap : (run (step (Node.rfc8175 true)) modemRegistry
        (inSessionEvents ++ [(Node.quietEnv, .node (.receive 0 (some Node.terminationMessage))),
          (Node.quietEnv, .node .cleanupExPeers)])).map overview
          = some ([], [(1, 0)], [.terminating]) := by
      decide +kernel
    obtain ⟨r', hrun, hoverview⟩ := Option.map_eq_some_iff.mp hmap
    exact ⟨r', hrun, hoverview, not_registered hoverview List.mem_cons_self (by decide)⟩

end Registry
end Dlep
end Emane

import Emane.Dlep.Lemmas.Address
import Emane.Dlep.Lemmas.Registry

/-!
This module contains the uniqueness of addresses over every run of a node.
-/

namespace Emane
namespace Dlep

open Holdings

structure Owner where
  peer : Option Nat
  destination : Option DlepMac
  deriving DecidableEq

namespace Roster

def pdp (r : Roster) : Option Nat → Option PeerData
  | none => some r.localPdp
  | some number =>
    if number ∈ r.peers.toList.map (fun e => e.2)
      then (r.members[number]?).bind (fun m => m.peerPdp) else none

def addresses (r : Roster) (o : Owner) : List DataItem :=
  ((r.pdp o.peer).map (fun pdp => pdp.addresses o.destination)).getD []

end Roster

def ProtocolMessage.unvalidated (cfg : SessionConfig) (env : Env) (pm : ProtocolMessage)
    : Option (Option DlepMac) :=
  if pm.name = .sessionInitializationResponse then
    some none
  else if pm.name.addsDestination cfg.modem env.clientStatus || pm.name.updatesDestination then
    (pm.getMac cfg).toOption.map some
  else
    none

def MessageName.validated : MessageName → Bool
  | sessionInitialization | sessionUpdate => true
  | _ => false

namespace Node.Event

variable (cfg : SessionConfig) (env : Env)

def brings (r : Roster) : Event → List (Owner × DataItem)
  | .receive number signal =>
    match (Session.handled cfg signal).bind (fun pm => (pm.unvalidated cfg env).map (fun destination => (pm, destination))) with
    | some (pm, destination) =>
      if number ∈ r.peers.toList.map (fun e => e.2) then
        (added cfg pm.dataItems).map (fun a => (⟨some number, destination⟩, a))
      else
        []
    | none => []
  | .destinationUp mac dataItems advert =>
    let macs :=
      if cfg.destAdvertEnabled then
        match advert with
        | .down destinations => destinations
        | _ => []
      else
        [mac]
    macs.flatMap (fun mac => (added cfg dataItems).map (fun a => (⟨none, some mac⟩, a)))
  | .destinationUpdate mac dataItems advert =>
    if cfg.destAdvertEnabled then
      match advert with
      | .up destinations entryDataItems =>
        destinations.flatMap (fun mac => (added cfg entryDataItems).map (fun a => (⟨none, some mac⟩, a)))
      | _ => []
    else
      (added cfg dataItems).map (fun a => (⟨none, some mac⟩, a))
  | .linkcharReply _ mac dataItems => (added cfg dataItems).map (fun a => (⟨none, some mac⟩, a))
  | .peerUpdate dataItems => (added cfg dataItems).map (fun a => (⟨none, none⟩, a))
  | _ => []

def validates : Event → List DataItem
  | .receive _ signal =>
    match Session.handled cfg signal with
    | some pm => if pm.name.validated then added cfg pm.dataItems else []
    | none => []
  | _ => []

theorem mem_brings_local {r : Roster} {event : Event} {mac : DlepMac} {dataItems : List DataItem}
    (h : event.addsLocal cfg mac dataItems ∨ event.updatesLocal cfg mac dataItems) {a : DataItem}
    (ha : a ∈ added cfg dataItems)
    : (⟨none, some mac⟩, a) ∈ event.brings cfg env r := by
  rcases h with h | h
  . cases event with
    | destinationUp mac' dataItems' advert =>
      obtain ⟨rfl, h⟩ := h
      unfold brings
      split at h
      . next henabled =>
        split at h
        . simp [henabled, h, ha]
        . cases h
      . next henabled => simp [henabled, h, ha]
    | _ => cases h
  . cases event with
    | destinationUpdate mac' dataItems' advert =>
      simp only [updatesLocal] at h
      unfold brings
      split at h
      . next henabled =>
        split at h
        . simp [henabled, h.1, ← h.2, ha]
        . cases h
      . next henabled => simp [henabled, h.1, ← h.2, ha]
    | linkcharReply peerId mac' dataItems' =>
      obtain ⟨rfl, rfl⟩ := h
      simp [brings, ha]
    | _ => cases h

theorem mem_brings_receive {r : Roster} {number : Nat} {event : Event} {pm : ProtocolMessage}
    (hpm : event.handled cfg number = some pm) {destination : Option DlepMac}
    (hdestination : pm.unvalidated cfg env = some destination)
    (hmem : number ∈ r.peers.toList.map (fun e => e.2))
    {a : DataItem} (ha : a ∈ added cfg pm.dataItems)
    : (⟨some number, destination⟩, a) ∈ event.brings cfg env r := by
  cases event with
  | receive number' signal =>
    simp only [handled] at hpm
    split at hpm
    . next heq =>
      subst heq
      simp [brings, hpm, hdestination, hmem, ha]
    . cases hpm
  | _ => cases hpm

end Node.Event

def addressesOf (peerPdp : Option PeerData) (destination : Option DlepMac) : List DataItem :=
  (peerPdp.map (fun pdp => pdp.addresses destination)).getD []

theorem added_subset {cfg : SessionConfig} {dataItems dataItems' : List DataItem}
    (h : ∀ di ∈ dataItems, di ∈ dataItems')
    {a : DataItem} (ha : a ∈ added cfg dataItems)
    : a ∈ added cfg dataItems' := by
  obtain ⟨hmem, hrest⟩ := mem_added.mp ha
  exact mem_added.mpr ⟨h a hmem, hrest⟩

theorem unvalidated_of_mac {cfg : SessionConfig} {env : Env} {pm : ProtocolMessage} {mac : DlepMac}
    (hmac : pm.getMac cfg = .ok mac)
    (h : pm.name.addsDestination cfg.modem env.clientStatus = true ∨ pm.name.updatesDestination = true)
    : pm.unvalidated cfg env = some (some mac) := by
  unfold ProtocolMessage.unvalidated
  rw [if_neg, if_pos (by simpa using h), hmac]
  . rfl
  . intro hname
    rw [hname] at h
    rcases h with h | h
    . cases h
    . cases h

def Standing.Gains (ctx : Context) (input : Session.Input) (st : Standing)
    (destination : Option DlepMac) (a : DataItem)
    : Prop :=
  ∃ pm, input.handled ctx.cfg = some pm ∧ a ∈ added ctx.cfg pm.dataItems ∧
    (pm.unvalidated ctx.cfg ctx.env = some destination
      ∨ (pm.name = .sessionUpdate ∧ destination = none ∧ ctx.Free st.peerPdp a))

theorem Standing.Move.grows {ctx : Context} {input : Session.Input} {st st' : Standing}
    (h : Move ctx input st st')
    (destination : Option DlepMac)
    : Grows DataItem.ipEqual (st.Gains ctx input destination) (addressesOf st.peerPdp destination)
        (addressesOf st'.peerPdp destination) := by
  cases h with
  | stop _ => exact .refl _ _
  | terminate _ => exact .refl _ _
  | bringUp hup =>
    next dataItems =>
    apply (PeerData.create_grows ctx.cfg (some st.peerId) dataItems _ destination).mono
    rintro a ⟨rfl, ha⟩
    obtain ⟨pm, hpm, ⟨-, rfl, -⟩ | ⟨hname, rfl⟩⟩ := hup
    . cases ha
    . refine ⟨pm, hpm, added_subset (fun di hdi => (List.mem_filter.mp hdi).1) ha, Or.inl ?_⟩
      simp [ProtocolMessage.unvalidated, hname]
  | setNeedsResponse hpdp mac responseName =>
    simp only [hpdp, addressesOf, Standing.setPdp, Option.map_some, Option.getD_some,
      PeerData.addresses_setNeedsResponse]
    exact .refl _ _
  | addDestination hpdp hadds hadd =>
    simp only [hpdp, addressesOf, Standing.setPdp, Option.map_some, Option.getD_some]
    apply (PeerData.addDestination_grows hadd destination).mono
    rintro a ⟨rfl, ha⟩
    obtain ⟨pm, hpm, hname, hmac, rfl⟩ := hadds
    exact ⟨pm, hpm, ha, Or.inl (unvalidated_of_mac hmac (Or.inl hname))⟩
  | updateDestination hpdp hupdates hupdate =>
    simp only [hpdp, addressesOf, Standing.setPdp, Option.map_some, Option.getD_some]
    apply (PeerData.updateDestination_grows hupdate destination).mono
    rintro a ⟨rfl, ha⟩
    obtain ⟨pm, hpm, hname, hmac, hdataItems⟩ := hupdates
    refine ⟨pm, hpm, ?_, Or.inl (unvalidated_of_mac hmac (Or.inr hname))⟩
    exact added_subset (fun di hdi => Session.mem_of_mem_getDataItemsNoMac ctx hdataItems hdi) ha
  | removeDestination hpdp _ hremove =>
    simp only [hpdp, addressesOf, Standing.setPdp, Option.map_some, Option.getD_some]
    exact PeerData.removeDestination_grows hremove _ destination
  | updateDataItems hpdp hrevises hadmits =>
    simp only [hpdp, addressesOf, Standing.setPdp, Option.map_some, Option.getD_some]
    apply (PeerData.updateDataItems_grows ctx.cfg _ _ destination).mono
    rintro a ⟨rfl, ha⟩
    obtain ⟨pm, hpm, hname, rfl⟩ := hrevises
    obtain ⟨hmem, haddress, hadd⟩ := mem_added.mp ha
    refine ⟨pm, hpm, ha, Or.inr ⟨hname, rfl, ?_⟩⟩
    exact (hadmits a hmem haddress).1 hadd

namespace Roster

variable {cfg : SessionConfig} {env : Env} {event : Node.Event} {r r' : Roster}

variable {number : Nat} {m : Member}

theorem addresses_put (hm : r.members[number]? = some m) (st : Standing) (o : Owner)
    : (r.put number st).addresses o
        =
      if o.peer = some number ∧ number ∈ r.peers.toList.map (fun e => e.2) then
        addressesOf st.peerPdp o.destination
      else
        r.addresses o := by
  obtain ⟨peer, destination⟩ := o
  unfold addresses pdp
  cases peer with
  | none => rfl
  | some number' =>
    simp only [put_peers, Option.some.injEq, getElem?_put, hm, Option.map_some]
    by_cases heq : number' = number
    . subst heq
      by_cases hmem : number' ∈ r.peers.toList.map (fun e => e.2)
      . simp [hmem, addressesOf]
      . simp [hmem]
    . simp [heq]

theorem addresses_of_has (h : r.Has number m) (destination : Option DlepMac)
    : r.addresses ⟨some number, destination⟩ = addressesOf m.peerPdp destination := by
  unfold addresses pdp
  simp only
  rw [if_pos h.1, h.2]
  rfl

theorem apart_of_free {ctx : Context} (hm : r.members[number]? = some m)
    (haround : r.Around cfg env number ctx) {a : DataItem} (h : ctx.Free m.peerPdp a) (o : Owner)
    : ∀ b ∈ r.addresses o, a.ipEqual b = false := by
  obtain ⟨peer, destination⟩ := o
  intro b hb
  cases peer with
  | none =>
    have hlocal := h.1
    rw [haround.localPdp] at hlocal
    exact PeerData.ipEqual_of_findIpDataItem hlocal destination b hb
  | some number' =>
    unfold addresses pdp at hb
    simp only at hb
    split at hb
    . next hmem =>
      cases hm' : r.members[number']? with
      | none => simp [hm'] at hb
      | some m' =>
        obtain ⟨p, hp, hsame⟩ := haround.peers number' m' ⟨hmem, hm'⟩
        have hpdp : (if number' = ctx.self then m.peerPdp else p.peerPdp) = m'.peerPdp := by
          rw [haround.self]
          split
          . next heq =>
            subst heq
            rw [Option.some.inj (hm.symm.trans hm')]
          . next hne => exact hsame hne
        cases hsome : m'.peerPdp with
        | none => simp [hm', hsome] at hb
        | some pdp =>
          simp only [hm', Option.bind_some, hsome, Option.map_some, Option.getD_some] at hb
          exact PeerData.ipEqual_of_findIpDataItem (h.2 (number', p) hp pdp (hpdp.trans hsome))
            destination b hb
    . simp at hb

def Gains (cfg : SessionConfig) (env : Env) (event : Node.Event) (r : Roster) (o : Owner)
    (a : DataItem) : Prop :=
  (o, a) ∈ event.brings cfg env r
    ∨ ∃ number pm, event.handled cfg number = some pm ∧ pm.name = .sessionUpdate ∧ o = ⟨some number, none⟩
        ∧ ∀ o', ∀ b ∈ r.addresses o', a.ipEqual b = false

theorem mem_peers_iff {number : Nat}
    : number ∈ r.peers.toList.map (fun e => e.2) ↔ ∃ peerId, r.peers.find? peerId = some number := by
  simp [SortedMap.find?_eq_some_iff]

theorem addresses_setLocal (r : Roster) (pdp : PeerData) (o : Owner)
    : ({ r with localPdp := pdp } : Roster).addresses o
        =
      if o.peer = none then pdp.addresses o.destination else r.addresses o := by
  obtain ⟨_ | number, destination⟩ := o
  . rfl
  . rfl

theorem addresses_sublist (r : Roster) {peers : SortedMap PeerId Nat}
    (h : ∀ peerId number, peers.find? peerId = some number → r.peers.find? peerId = some number)
    (o : Owner)
    : (({ r with peers := peers } : Roster).addresses o).Sublist (r.addresses o) := by
  obtain ⟨_ | number, destination⟩ := o
  . exact List.Sublist.refl _
  . unfold addresses pdp
    simp only
    split
    . next hmem =>
      obtain ⟨peerId, hfind⟩ := (@mem_peers_iff { r with peers := peers } number).mp hmem
      rw [if_pos (mem_peers_iff.mpr ⟨peerId, h peerId number hfind⟩)]
    . exact List.nil_sublist _

theorem grows_setLocal {pdp : PeerData} {new : Owner → DataItem → Prop}
    (h : ∀ destination, Grows DataItem.ipEqual (new ⟨none, destination⟩)
      (r.localPdp.addresses destination)
      (pdp.addresses destination))
    (o : Owner)
    : Grows DataItem.ipEqual (new o) (r.addresses o)
        (({ r with localPdp := pdp } : Roster).addresses o) := by
  obtain ⟨peer, destination⟩ := o
  rw [addresses_setLocal r pdp]
  split
  . next hlocal =>
    subst hlocal
    exact h destination
  . exact .refl _ _

theorem Move.grows (h : Move cfg env event r r') (o : Owner)
    : Grows DataItem.ipEqual (r.Gains cfg env event o) (r.addresses o) (r'.addresses o) := by
  cases h with
  | session hcauses hm haround hmove =>
    next number m input ctx st =>
    rw [addresses_put hm]
    split
    . next howner =>
      obtain ⟨peer, destination⟩ := o
      obtain ⟨rfl, hmem⟩ := howner
      rw [addresses_of_has ⟨hmem, hm⟩]
      apply (hmove.grows destination).mono
      rintro a ⟨pm, hpm, ha, hgains⟩
      rw [haround.cfg] at hpm ha
      have hevent := hcauses.handled hpm
      rcases hgains with hunvalidated | ⟨hname, rfl, hfree⟩
      . rw [haround.cfg, haround.env] at hunvalidated
        exact Or.inl (Node.Event.mem_brings_receive cfg env hevent hunvalidated hmem ha)
      . exact Or.inr ⟨number, pm, hevent, hname, rfl, apart_of_free hm haround hfree⟩
    . exact .refl _ _
  | addDestination hadds hadd =>
    apply grows_setLocal
    intro destination
    apply (PeerData.addDestination_grows hadd destination).mono
    rintro a ⟨rfl, ha⟩
    exact Or.inl (Node.Event.mem_brings_local cfg env (Or.inl hadds) ha)
  | updateDestination hupdates hupdate =>
    apply grows_setLocal
    intro destination
    apply (PeerData.updateDestination_grows hupdate destination).mono
    rintro a ⟨rfl, ha⟩
    exact Or.inl (Node.Event.mem_brings_local cfg env (Or.inr hupdates) ha)
  | removeDestination _ hremove => exact grows_setLocal (fun destination => PeerData.removeDestination_grows hremove _ destination) o
  | updateDataItems hevent =>
    apply grows_setLocal
    intro destination
    apply (PeerData.updateDataItems_grows cfg r.localPdp _ destination).mono
    rintro a ⟨rfl, ha⟩
    subst hevent
    exact Or.inl (by simp [Node.Event.brings, ha])
  | cleanup _ hpeers => exact .of_sublist (r.addresses_sublist (fun peerId number hfind => ((hpeers peerId number).mp hfind).1) o)
  | clear _ _ => exact .of_sublist (r.addresses_sublist (fun peerId number hfind => by cases hfind) o)

theorem Move.brings_eq (h : Move cfg env event r r')
    : event.brings cfg env r' = event.brings cfg env r := by
  cases h with
  | cleanup hevent _ =>
    subst hevent
    rfl
  | clear hevent _ =>
    subst hevent
    rfl
  | _ =>
    cases event with
    | _ => rfl

theorem brings_of_validated {pm : ProtocolMessage} (hpm : event.handled cfg number = some pm)
    (hname : pm.name.validated = true)
    : event.brings cfg env r = [] := by
  have hnone : pm.unvalidated cfg env = none := by
    unfold ProtocolMessage.unvalidated
    cases hcase : pm.name with
    | sessionInitialization => rfl
    | sessionUpdate => rfl
    | _ => simp [hcase, MessageName.validated] at hname
  cases event with
  | receive number' signal =>
    simp only [Node.Event.handled] at hpm
    split at hpm
    . simp [Node.Event.brings, hpm, hnone]
    . cases hpm
  | _ => cases hpm

theorem handled_unique {number' : Nat} {pm pm' : ProtocolMessage}
    (hpm : event.handled cfg number = some pm)
    (hpm' : event.handled cfg number' = some pm')
    : number = number' ∧ pm = pm' := by
  cases event with
  | receive number'' signal =>
    simp only [Node.Event.handled] at hpm hpm'
    split at hpm
    . next heq =>
      split at hpm'
      . next heq' => exact ⟨heq.symm.trans heq', Option.some.inj (hpm.symm.trans hpm')⟩
      . cases hpm'
    . cases hpm
  | _ => cases hpm

structure Fits (cfg : SessionConfig) (env : Env) (event : Node.Event) (r : Roster) : Prop where
  held : ∀ x ∈ event.brings cfg env r, ∀ o, x.1 ≠ o → ∀ b ∈ r.addresses o, x.2.ipEqual b = false
  brought : ∀ x ∈ event.brings cfg env r, ∀ y ∈ event.brings cfg env r, x.1 ≠ y.1
    → x.2.ipEqual y.2 = false

theorem Fits.move (hfits : r.Fits cfg env event) (hunique : Unique DataItem.ipEqual r.addresses)
    (hmove : Move cfg env event r r')
    : r'.Fits cfg env event ∧ Unique DataItem.ipEqual r'.addresses := by
  constructor
  . refine ⟨?_, ?_⟩
    . intro x hx o hne b hb
      rw [hmove.brings_eq] at hx
      rcases (hmove.grows o).mem b hb with hold | hbrought | ⟨number, pm, hpm, hname, -⟩
      . exact hfits.held x hx o hne b hold
      . exact hfits.brought x hx (o, b) hbrought hne
      . rw [brings_of_validated hpm (by rw [hname]; rfl)] at hx
        cases hx
    . rw [hmove.brings_eq]
      exact hfits.brought
  . apply hunique.grow DataItem.ipEqual_comm hmove.grows
    . rintro o o' a (hbrought | ⟨number, pm, hpm, hname, rfl, hfree⟩) hne b hb
      . exact hfits.held (o, a) hbrought o' hne b hb
      . exact hfree o' b hb
    . rintro o o' a b (ha | ⟨number, pm, hpm, hname, rfl, -⟩)
        (hb | ⟨number', pm', hpm', hname', rfl, -⟩) hne
      . exact hfits.brought (o, a) ha (o', b) hb hne
      . rw [brings_of_validated hpm' (by rw [hname']; rfl)] at ha
        cases ha
      . rw [brings_of_validated hpm (by rw [hname]; rfl)] at hb
        cases hb
      . rw [(handled_unique hpm hpm').1] at hne
        exact absurd rfl hne

theorem Fits.reaches (hfits : r.Fits cfg env event) (hunique : Unique DataItem.ipEqual r.addresses)
    (hreaches : Reaches cfg env event r r')
    : Unique DataItem.ipEqual r'.addresses := by
  have hboth : r'.Fits cfg env event ∧ Unique DataItem.ipEqual r'.addresses := by
    induction hreaches with
    | refl => exact ⟨hfits, hunique⟩
    | tail _ hmove ih => exact ih.1.move ih.2 hmove
  exact hboth.2

structure Conflict (cfg : SessionConfig) (event : Node.Event) (pm : ProtocolMessage) (di : DataItem)
    (r : Roster) : Prop where
  handled : ∃ number, event.handled cfg number = some pm
  validated : pm.name.validated = true
  mem : di ∈ pm.dataItems
  isIpaddr : cfg.isIpaddr di.id = true
  isAdd : di.isAdd = true
  held : ∃ o, ∃ b ∈ r.addresses o, di.ipEqual b = true

namespace Conflict

variable {pm : ProtocolMessage} {di : DataItem}

variable {number : Nat}

theorem eq_of_causes (h : r.Conflict cfg event pm di) {input : Session.Input} {pm' : ProtocolMessage}
    (hcauses : event.causes number input) (hpm' : input.handled cfg = some pm')
    : pm' = pm := by
  obtain ⟨number', hpm⟩ := h.handled
  exact (handled_unique (hcauses.handled hpm') hpm).2

theorem not_admits (h : r.Conflict cfg event pm di) {m : Member} {ctx : Context}
    (hm : r.members[number]? = some m) (haround : r.Around cfg env number ctx) (existing : List DataItem)
    : ¬ctx.Admits m.peerPdp existing pm.dataItems := by
  intro hadmits
  obtain ⟨o, b, hb, hequal⟩ := h.held
  have hfree := (hadmits di h.mem (by rw [haround.cfg]; exact h.isIpaddr)).1 h.isAdd
  rw [apart_of_free hm haround hfree o b hb] at hequal
  cases hequal

theorem session (h : r.Conflict cfg event pm di) {m : Member} {input : Session.Input} {ctx : Context}
    {st : Standing} (hcauses : event.causes number input) (hm : r.members[number]? = some m)
    (haround : r.Around cfg env number ctx) (hmove : Standing.Move ctx input (r.standing m) st)
    (destination : Option DlepMac)
    : addressesOf st.peerPdp destination = addressesOf m.peerPdp destination := by
  have hvalidated := h.validated
  cases hmove with
  | stop _ => rfl
  | terminate _ => rfl
  | bringUp hup =>
    obtain ⟨pm', hpm', ⟨-, -, hadmits⟩ | ⟨hname, -⟩⟩ := hup
    . rw [haround.cfg] at hpm'
      obtain rfl := h.eq_of_causes hcauses hpm'
      exact absurd hadmits (h.not_admits hm haround [])
    . rw [haround.cfg] at hpm'
      obtain rfl := h.eq_of_causes hcauses hpm'
      rw [hname] at hvalidated
      cases hvalidated
  | setNeedsResponse hpdp mac responseName =>
    have hpdp' : m.peerPdp = some _ := hpdp
    simp only [hpdp', addressesOf, Standing.setPdp, Option.map_some, Option.getD_some,
      PeerData.addresses_setNeedsResponse]
  | addDestination _ hadds _ =>
    obtain ⟨pm', hpm', hname, -⟩ := hadds
    rw [haround.cfg] at hpm'
    obtain rfl := h.eq_of_causes hcauses hpm'
    cases hcase : pm'.name with
    | sessionInitialization => simp [hcase, MessageName.addsDestination] at hname
    | sessionUpdate => simp [hcase, MessageName.addsDestination] at hname
    | _ => simp [hcase, MessageName.validated] at hvalidated
  | updateDestination _ hupdates _ =>
    obtain ⟨pm', hpm', hname, -⟩ := hupdates
    rw [haround.cfg] at hpm'
    obtain rfl := h.eq_of_causes hcauses hpm'
    cases hcase : pm'.name with
    | sessionInitialization => simp [hcase, MessageName.updatesDestination] at hname
    | sessionUpdate => simp [hcase, MessageName.updatesDestination] at hname
    | _ => simp [hcase, MessageName.validated] at hvalidated
  | removeDestination _ hremoves _ =>
    rcases hremoves with ⟨mac, rfl⟩ | ⟨pm', hpm', hname⟩
    . obtain ⟨mac', advert, rfl⟩ : event.removesLocal := hcauses
      obtain ⟨number', hpm⟩ := h.handled
      cases hpm
    . rw [haround.cfg] at hpm'
      obtain rfl := h.eq_of_causes hcauses hpm'
      rw [hname] at hvalidated
      cases hvalidated
  | updateDataItems _ hrevises hadmits =>
    obtain ⟨pm', hpm', -, rfl⟩ := hrevises
    rw [haround.cfg] at hpm'
    obtain rfl := h.eq_of_causes hcauses hpm'
    exact absurd hadmits (h.not_admits hm haround _)

theorem move (h : r.Conflict cfg event pm di) (hmove : Move cfg env event r r') (o : Owner)
    : r'.addresses o = r.addresses o := by
  obtain ⟨number', hpm⟩ := h.handled
  cases hmove with
  | session hcauses hm haround hmove =>
    rw [addresses_put hm]
    split
    . next howner =>
      obtain ⟨peer, destination⟩ := o
      obtain ⟨rfl, hmem⟩ := howner
      rw [addresses_of_has ⟨hmem, hm⟩]
      exact h.session hcauses hm haround hmove destination
    . rfl
  | addDestination hadds _ =>
    cases event with
    | receive number signal => cases hadds
    | _ => cases hpm
  | updateDestination hupdates _ =>
    cases event with
    | receive number signal => cases hupdates
    | _ => cases hpm
  | removeDestination hremoves _ =>
    obtain ⟨mac, advert, rfl⟩ := hremoves
    cases hpm
  | updateDataItems hevent =>
    subst hevent
    cases hpm
  | cleanup hevent _ =>
    subst hevent
    cases hpm
  | clear hevent _ =>
    subst hevent
    cases hpm

theorem reaches (h : r.Conflict cfg event pm di) (hreaches : Reaches cfg env event r r') (o : Owner)
    : r'.addresses o = r.addresses o := by
  have hboth : r'.Conflict cfg event pm di ∧ ∀ o, r'.addresses o = r.addresses o := by
    induction hreaches with
    | refl => exact ⟨h, fun o => rfl⟩
    | tail _ hmove ih =>
      obtain ⟨hconflict, hsame⟩ := ih
      have hsame' := hconflict.move hmove
      refine ⟨⟨hconflict.handled, hconflict.validated, hconflict.mem, hconflict.isIpaddr,
        hconflict.isAdd, ?_⟩, ?_⟩
      . obtain ⟨o', b, hb, hequal⟩ := hconflict.held
        exact ⟨o', b, by rw [hsame' o']; exact hb, hequal⟩
      . exact fun o => (hsame' o).trans (hsame o)
  exact hboth.2 o

end Conflict

theorem addresses_enter (r : Roster) (event : Node.Event) (o : Owner)
    : ((r.enter event).addresses o).Sublist (r.addresses o) := by
  cases event with
  | connect peerId =>
    obtain ⟨_ | number, destination⟩ := o
    . exact List.Sublist.refl _
    . unfold enter addresses pdp
      simp only
      by_cases hnew : number = r.members.length
      . subst hnew
        simp
      . have hmember : (r.members
          ++ [{ peerId := peerId, pstate := PeerState.connected, peerPdp := none }])[number]?
            = r.members[number]? := by
          rcases Nat.lt_or_ge number r.members.length with hlt | hge
          . exact List.getElem?_append_left hlt
          . rw [List.getElem?_eq_none (by simp; omega), List.getElem?_eq_none hge]
        rw [hmember]
        split
        . next hmem =>
          obtain ⟨peerId', hfind⟩ :=
            (@mem_peers_iff { r with peers := r.peers.set peerId r.members.length } number).mp hmem
          simp only [SortedMap.find?_set] at hfind
          split at hfind
          . exact absurd (Option.some.inj hfind).symm hnew
          . rw [if_pos (mem_peers_iff.mpr ⟨peerId', hfind⟩)]
        . exact List.nil_sublist _
  | _ => exact List.Sublist.refl _

theorem unique_of_sublist (h : Unique DataItem.ipEqual r.addresses)
    (hsub : ∀ o, (r'.addresses o).Sublist (r.addresses o))
    : Unique DataItem.ipEqual r'.addresses := by
  exact ⟨fun o o' hne a ha b hb => h.apart o o' hne a ((hsub o).subset ha) b ((hsub o').subset hb),
    fun o => (h.once o).sublist (hsub o)⟩

end Roster

def PeerData.holdings (peer : Option Nat) (pdp : PeerData) : List (Owner × DataItem) :=
  pdp.items.ipDataItems.map (fun a => (⟨peer, none⟩, a)) ++
    pdp.destinationData.toList.flatMap
      (fun e => e.2.items.ipDataItems.map (fun a => (⟨peer, some e.1⟩, a)))

theorem PeerData.mem_holdings {peer : Option Nat} {pdp : PeerData} {o : Owner} {a : DataItem}
    : (o, a) ∈ pdp.holdings peer ↔ o.peer = peer ∧ a ∈ pdp.addresses o.destination := by
  obtain ⟨peer', _ | mac⟩ := o
  . simp only [holdings, addresses, List.mem_append, List.mem_map, List.mem_flatMap, Prod.mk.injEq,
      Owner.mk.injEq]
    constructor
    . rintro (⟨a', ha', ⟨rfl, -⟩, rfl⟩ | ⟨e, -, a', -, ⟨-, hnone⟩, -⟩)
      . exact ⟨rfl, ha'⟩
      . cases hnone
    . rintro ⟨rfl, ha⟩
      exact Or.inl ⟨a, ha, ⟨rfl, trivial⟩, rfl⟩
  . simp only [holdings, addresses, List.mem_append, List.mem_map, List.mem_flatMap, Prod.mk.injEq,
      Owner.mk.injEq]
    constructor
    . rintro (⟨a', -, ⟨-, hnone⟩, -⟩ | ⟨⟨mac', ddp⟩, he, a', ha', ⟨rfl, hmac⟩, rfl⟩)
      . cases hnone
      . cases hmac
        rw [← SortedMap.find?_eq_some_iff] at he
        exact ⟨rfl, by simpa [he] using ha'⟩
    . rintro ⟨rfl, ha⟩
      cases hddp : pdp.destinationData.find? mac with
      | none => simp [hddp] at ha
      | some ddp =>
        simp only [hddp, Option.map_some, Option.getD_some] at ha
        exact Or.inr ⟨(mac, ddp), (SortedMap.find?_eq_some_iff _ _ _).mp hddp, a, ha, ⟨rfl, rfl⟩, rfl⟩

namespace Roster

variable {cfg : SessionConfig} {env : Env} {event : Node.Event} {r r' : Roster}

def holdings (r : Roster) : List (Owner × DataItem) :=
  (none :: r.peers.toList.map (fun e => some e.2)).flatMap
    (fun peer => ((r.pdp peer).map (fun pdp => pdp.holdings peer)).getD [])

theorem mem_holdings {o : Owner} {a : DataItem} : (o, a) ∈ r.holdings ↔ a ∈ r.addresses o := by
  unfold holdings addresses
  rw [List.mem_flatMap]
  constructor
  . rintro ⟨peer, -, hmem⟩
    cases hpdp : r.pdp peer with
    | none => simp [hpdp] at hmem
    | some pdp =>
      rw [hpdp, Option.map_some, Option.getD_some, PeerData.mem_holdings] at hmem
      obtain ⟨rfl, ha⟩ := hmem
      simpa [hpdp] using ha
  . intro ha
    cases hpdp : r.pdp o.peer with
    | none => simp [hpdp] at ha
    | some pdp =>
      simp only [hpdp, Option.map_some, Option.getD_some] at ha
      refine ⟨o.peer, ?_, ?_⟩
      . obtain ⟨_ | number, destination⟩ := o
        . exact List.mem_cons_self
        . unfold Roster.pdp at hpdp
          simp only at hpdp
          split at hpdp
          . next hmem => simpa using hmem
          . cases hpdp
      . rw [hpdp, Option.map_some, Option.getD_some, PeerData.mem_holdings]
        exact ⟨rfl, ha⟩

def fits (cfg : SessionConfig) (env : Env) (event : Node.Event) (r : Roster) : Bool :=
  (event.brings cfg env r).all (fun x =>
    (r.holdings ++ event.brings cfg env r).all (fun y => decide (x.1 = y.1) || !x.2.ipEqual y.2))

def refuses (cfg : SessionConfig) (event : Node.Event) (r : Roster) : Bool :=
  (event.validates cfg).any (fun a => r.holdings.any (fun y => a.ipEqual y.2))

theorem fits_of (h : r.fits cfg env event = true) : r.Fits cfg env event := by
  simp only [fits, List.all_eq_true, List.mem_append, Bool.or_eq_true, decide_eq_true_eq,
    Bool.not_eq_true'] at h
  constructor
  . intro x hx o hne b hb
    exact (h x hx (o, b) (Or.inl (mem_holdings.mpr hb))).resolve_left hne
  . intro x hx y hy hne
    exact (h x hx y (Or.inr hy)).resolve_left hne

theorem conflict_of_refuses (h : r.refuses cfg event = true) : ∃ pm di, r.Conflict cfg event pm di := by
  simp only [refuses, List.any_eq_true] at h
  obtain ⟨di, hdi, ⟨o, b⟩, hb, hequal⟩ := h
  cases event with
  | receive number signal =>
    simp only [Node.Event.validates] at hdi
    split at hdi
    . next pm hpm =>
      split at hdi
      . next hname =>
        obtain ⟨hmem, haddress, hadd⟩ := mem_added.mp hdi
        exact ⟨pm, di, ⟨number, by simp [Node.Event.handled, hpm]⟩, hname, hmem, haddress, hadd, o, b,
          mem_holdings.mp hb, hequal⟩
      . cases hdi
    . cases hdi
  | _ => cases hdi

end Roster

namespace Node

variable {cfg : SessionConfig}

theorem fits_enter {env : Env} {event : Event} {r : Roster} (h : r.Fits cfg env event)
    : (r.enter event).Fits cfg env event := by
  cases event with
  | connect peerId =>
    constructor
    . intro x hx
      cases hx
    . intro x hx
      cases hx
  | _ => exact h

variable {d d' : Node} {e : Env × Event}

theorem once_step
    (honce : ∀ o, (d.roster.addresses o).Pairwise (fun a b => a.ipEqual b = false))
    (hstep : step cfg d e = some d')
    : ∀ o, (d'.roster.addresses o).Pairwise (fun a b => a.ipEqual b = false) := by
  have henter : ∀ o, ((d.roster.enter e.2).addresses o).Pairwise (fun a b => a.ipEqual b = false) := by
    exact fun o => (honce o).sublist (Roster.addresses_enter d.roster e.2 o)
  have hreaches := step_reaches cfg hstep
  generalize d'.roster = r at hreaches ⊢
  induction hreaches with
  | refl => exact henter
  | tail _ hmove ih => exact fun o => (hmove.grows o).once (ih o)

theorem unique_step (hunique : Unique DataItem.ipEqual d.roster.addresses)
    (hfits : d.roster.fits cfg e.1 e.2 = true) (hstep : step cfg d e = some d')
    : Unique DataItem.ipEqual d'.roster.addresses := by
  have henter : Unique DataItem.ipEqual (d.roster.enter e.2).addresses := by
    exact Roster.unique_of_sublist hunique (fun o => Roster.addresses_enter d.roster e.2 o)
  exact (fits_enter (Roster.fits_of hfits)).reaches henter (step_reaches cfg hstep)

theorem addresses_of_refuses (hrefuses : d.roster.refuses cfg e.2 = true)
    (hstep : step cfg d e = some d') (o : Owner)
    : d'.roster.addresses o = d.roster.addresses o := by
  obtain ⟨pm, di, hconflict⟩ := Roster.conflict_of_refuses hrefuses
  have hreaches := step_reaches cfg hstep
  rw [enter_of_not_connect] at hreaches
  . exact hconflict.reaches hreaches o
  . rintro peerId heq
    obtain ⟨number, hpm⟩ := hconflict.handled
    rw [heq] at hpm
    cases hpm

theorem addresses_init (cfg : SessionConfig) (dataItems : List DataItem)
    : Unique DataItem.ipEqual (init (.create cfg none dataItems)).roster.addresses := by
  have hgrows : ∀ o, Grows DataItem.ipEqual (fun a => o = ⟨none, none⟩ ∧ a ∈ added cfg dataItems) []
      ((init (.create cfg none dataItems)).roster.addresses o) := by
    rintro ⟨_ | number, destination⟩
    . apply (PeerData.create_grows cfg none dataItems [] destination).mono
      rintro a ⟨rfl, ha⟩
      exact ⟨rfl, ha⟩
    . exact .refl _ _
  have hempty : Unique DataItem.ipEqual (fun _ : Owner => ([] : List DataItem)) := by
    exact ⟨fun o o' _ a ha => by simp at ha, fun o => List.Pairwise.nil⟩
  apply hempty.grow DataItem.ipEqual_comm hgrows
  . intro o o' a _ _ b hb
    cases hb
  . rintro o o' a b ⟨rfl, -⟩ ⟨rfl, -⟩ hne
    exact absurd rfl hne

/--
In every run nobody holds an address twice, and no two hold the same one if no message or call
whose conflicts are at most logged brings one that another one has.
-/
theorem addresses_unique {dataItems : List DataItem} {es : List (Env × Event)} {d : Node}
    (hrun : run (step cfg) (init (.create cfg none dataItems)) es = some d)
    : (∀ o, (d.roster.addresses o).Pairwise (fun a b => a.ipEqual b = false))
        ∧ (∀ e d', d.roster.refuses cfg e.2 = true → step cfg d e = some d' →
        ∀ o, d'.roster.addresses o = d.roster.addresses o)
        ∧ (Guarded (step cfg) (fun d e => d.roster.fits cfg e.1 e.2 = true)
          (init (.create cfg none dataItems)) es →
        ∀ o o', o ≠ o' → ∀ a ∈ d.roster.addresses o, ∀ b ∈ d.roster.addresses o',
            a.ipEqual b = false) := by
  have hinit := addresses_init cfg dataItems
  refine ⟨?_, ?_, ?_⟩
  . have hguarded : Guarded (step cfg) (fun _ _ => True) (init (.create cfg none dataItems)) es := by
      exact guarded_of_forall (fun _ _ => trivial)
    exact run_inv (fun _ _ _ honce _ hstep => once_step honce hstep) hinit.once hguarded hrun
  . exact fun e d' hrefuses hstep o => addresses_of_refuses hrefuses hstep o
  . intro hguarded
    exact (run_inv (fun _ _ _ hunique hfits hstep => unique_step hunique hfits hstep) hinit
      hguarded hrun).apart

def addressItem : DataItem :=
  ⟨8, .div_u8_ipv4 1 ⟨[10, 0, 0, 1], rfl⟩⟩

def addressUpdate : ProtocolMessage where
  name := .sessionUpdate
  dataItems := [addressItem]

def acceptMessage : ProtocolMessage where
  name := .sessionInitializationResponse
  dataItems := [⟨1, .div_u8_string 0 []⟩, ⟨5, .div_u32 60000⟩]

def routerNode : Node :=
  .init (.create (rfc8175 false) none [])

def twoModems : List (Env × Event) :=
  [(quietEnv, .connect 1), (quietEnv, .receive 0 (some acceptMessage)), (quietEnv, .connect 2),
    (quietEnv, .receive 1 (some acceptMessage)), (quietEnv, .receive 0 (some addressUpdate))]

theorem addresses_unique_update
    : ∃ d d', run (step (rfc8175 false)) routerNode twoModems = some d
        ∧ step (rfc8175 false) d (quietEnv, .receive 1 (some addressUpdate)) = some d'
        ∧ d.roster.holdings = [(⟨some 0, none⟩, addressItem)]
        ∧ d.roster.refuses (rfc8175 false) (.receive 1 (some addressUpdate)) = true
        ∧ (∀ o, d'.roster.addresses o = d.roster.addresses o)
        ∧ ∀ o o', o ≠ o' → ∀ a ∈ d.roster.addresses o, ∀ b ∈ d.roster.addresses o',
            a.ipEqual b = false := by
  have hguarded : Guarded (step (rfc8175 false))
    (fun d e => d.roster.fits (rfc8175 false) e.1 e.2 = true) routerNode twoModems := by
    decide +kernel
  have hmap : (run (step (rfc8175 false)) routerNode twoModems).map (fun d =>
      (d.roster.holdings, d.roster.refuses (rfc8175 false) (.receive 1 (some addressUpdate)),
        (step (rfc8175 false) d (quietEnv, .receive 1 (some addressUpdate))).isSome))
        = some ([(⟨some 0, none⟩, addressItem)], true, true) := by
    decide +kernel
  obtain ⟨d, hrun, hd⟩ := Option.map_eq_some_iff.mp hmap
  simp only [Prod.mk.injEq] at hd
  obtain ⟨hholdings, hrefuses, hdefined⟩ := hd
  obtain ⟨d', hstep⟩ := Option.isSome_iff_exists.mp hdefined
  obtain ⟨-, hsame, hapart⟩ := addresses_unique hrun
  exact ⟨d, d', hrun, hstep, hholdings, hrefuses, hsame _ d' hrefuses hstep, hapart hguarded⟩

def addressUp : ProtocolMessage where
  name := .destinationUp
  dataItems := [⟨7, .div_dlepmac [2, 0, 0, 0, 0, 1]⟩, addressItem]

theorem addresses_not_unique
    : ∃ d d', run (step (rfc8175 false)) routerNode twoModems = some d
        ∧ step (rfc8175 false) d (quietEnv, .receive 1 (some addressUp)) = some d'
        ∧ d.roster.holdings = [(⟨some 0, none⟩, addressItem)]
        ∧ d'.roster.holdings
          = [(⟨some 0, none⟩, addressItem), (⟨some 1, some [2, 0, 0, 0, 0, 1]⟩, addressItem)]
        ∧ ¬Unique DataItem.ipEqual d'.roster.addresses := by
  have hmap : (run (step (rfc8175 false)) routerNode twoModems).map (fun d =>
      (d.roster.holdings,
        (step (rfc8175 false) d (quietEnv, .receive 1 (some addressUp))).map
          (fun d' => d'.roster.holdings)))
        = some ([(⟨some 0, none⟩, addressItem)],
          some [(⟨some 0, none⟩, addressItem), (⟨some 1, some [2, 0, 0, 0, 0, 1]⟩, addressItem)]) := by
    decide +kernel
  obtain ⟨d, hrun, hd⟩ := Option.map_eq_some_iff.mp hmap
  simp only [Prod.mk.injEq] at hd
  obtain ⟨hbefore, hlast⟩ := hd
  obtain ⟨d', hstep, hafter⟩ := Option.map_eq_some_iff.mp hlast
  refine ⟨d, d', hrun, hstep, hbefore, hafter, ?_⟩
  intro hunique
  have hfirst : addressItem ∈ d'.roster.addresses ⟨some 0, none⟩ := by
    rw [← Roster.mem_holdings, hafter]
    exact List.mem_cons_self
  have hsecond : addressItem ∈ d'.roster.addresses ⟨some 1, some [2, 0, 0, 0, 0, 1]⟩ := by
    rw [← Roster.mem_holdings, hafter]
    exact List.mem_cons_of_mem _ List.mem_cons_self
  have hdiffer := hunique.apart ⟨some 0, none⟩ ⟨some 1, some [2, 0, 0, 0, 0, 1]⟩
    (by decide) addressItem hfirst
    addressItem hsecond
  cases hdiffer

end Node
end Dlep
end Emane

import Emane.Lib.SortedFold
import Emane.Dlep.Impl.DestAdvert
import Emane.Dlep.Lemmas.Roster

/-!
This module contains what the operations of the destination advertisement do to the destinations
of the node.
-/

namespace Emane
namespace Dlep

namespace Node

def localDestinations (d : Node) : Set DlepMac :=
  {mac | d.localPdp.validDestination mac = true}

section

variable (cfg : SessionConfig) (env : Env)

theorem localDestinations_of_eq {d d' : Node} (h : d'.localPdp = d.localPdp)
    : d'.localDestinations = d.localDestinations := by
  unfold localDestinations
  rw [h]

variable (mac : DlepMac)

theorem addDestination_local (dataItems : List DataItem) (d : Node)
    : Ensures (addDestination cfg env mac dataItems d)
        (fun res => res.2.localDestinations = d.localDestinations ∪ {mac})
        (fun _ => True) := by
  unfold addDestination
  split
  . next hadd =>
    apply Ensures.ok
    have hvalid : d.localPdp.validDestination mac = true := by
      have hsome := d.localPdp.addDestination_isSome cfg mac dataItems
      rw [hadd] at hsome
      simpa using hsome.symm
    ext mac'
    constructor
    . exact Or.inl
    . rintro (hmem | rfl)
      . exact hmem
      . exact hvalid
  . next pdp hadd =>
    apply (forPeers_localPdp cfg env _ { d with localPdp := pdp }).map
    intro d' hd'
    ext mac'
    simp only [localDestinations, hd', Set.mem_ofPred_eq,
      (PeerData.validDestination_addDestination hadd).2, Bool.or_eq_true,
      decide_eq_true_eq, Set.mem_union, Set.mem_singleton_iff]
    exact Or.comm

variable (d : Node)

theorem removeDestination_local
    : Ensures (removeDestination cfg env mac d)
        (fun res => res.2.localDestinations = d.localDestinations \ {mac}
          ∧ (res.1 = false → mac ∉ d.localDestinations))
        (fun _ => True) := by
  unfold removeDestination
  split
  . next hremove =>
    apply Ensures.ok
    have hvalid : mac ∉ d.localDestinations := by
      have hsome := d.localPdp.removeDestination_isSome mac
      rw [hremove] at hsome
      simp [localDestinations, ← hsome]
    refine ⟨?_, fun _ => hvalid⟩
    exact (Set.sdiff_singleton_eq_self hvalid).symm
  . next pdp hremove =>
    apply (forPeers_localPdp cfg env _ { d with localPdp := pdp }).map
    intro d' hd'
    refine ⟨?_, fun h => by cases h⟩
    ext mac'
    simp only [localDestinations, hd', Set.mem_ofPred_eq,
      (PeerData.validDestination_removeDestination hremove).2,
      Bool.and_eq_true, decide_eq_true_eq, Set.mem_sdiff, Set.mem_singleton_iff]
    exact and_comm

theorem updateDestination_local (updates : List DataItem) (d : Node)
    : Ensures (updateDestination cfg env mac updates d)
        (fun res => res.2.localDestinations = d.localDestinations)
        (fun _ => True) := by
  unfold updateDestination
  split
  . exact .ok rfl
  . next pdp hupdate =>
    apply (forPeers_localPdp cfg env _ { d with localPdp := pdp }).map
    intro d' hd'
    ext mac'
    simp only [localDestinations, hd', Set.mem_ofPred_eq,
      (PeerData.validDestination_updateDestination hupdate).2]

theorem updateNotOurs_local (dataItems : List DataItem) (d : Node)
    : Ensures (updateNotOurs cfg env mac dataItems d)
        (fun res => res.2.localDestinations = d.localDestinations)
        (fun _ => True) := by
  apply ensures_of_lookup
  intro found
  split
  . exact .ok rfl
  . exact (withSession_localPdp cfg env _ d _).map (fun _ hd' => localDestinations_of_eq hd')

theorem removeNotOurs_local
    : Ensures (removeNotOurs cfg env mac d)
        (fun res => res.2.localDestinations = d.localDestinations) (fun _ => True) := by
  apply ensures_of_lookup
  intro found
  split
  . exact .ok rfl
  . apply (withSession_localPdp cfg env _ d _).bind
    intro d₁ hd₁
    exact (forPeers_localPdp cfg env _ d₁).map (fun _ hd₂ => localDestinations_of_eq (hd₂.trans hd₁))

theorem removeOurs_local
    : Ensures (removeOurs cfg env mac d)
        (fun res => res.2.localDestinations = d.localDestinations \ {mac})
        (fun _ => True) := by
  apply (removeDestination_local cfg env mac d).bind
  rintro ⟨found, d'⟩ ⟨hd', -⟩
  simp only
  split
  . exact .ok hd'
  . exact (removeNotOurs_local cfg env mac d').mono (fun _ hres => hres.trans hd') (fun _ htrue => htrue)

end

theorem step_local {cfg : SessionConfig} {d d' : Node} {e : Env × Event}
    (hevent : DestAdvert.Event.ofNode e.2 = true)
    (hstep : step cfg d e = some d')
    : d'.localDestinations = d.localDestinations := by
  have hmove : ∀ {r r' : Roster}, Roster.Move cfg e.1 e.2 r r' →
      ∀ mac, r'.localPdp.validDestination mac = r.localPdp.validDestination mac := by
    intro r r' hmove mac
    cases hmove with
    | session _ _ _ _ => rfl
    | addDestination hadds _ =>
      cases hcase : e.2 with
      | destinationUp mac dataItems advert => simp [hcase, DestAdvert.Event.ofNode] at hevent
      | _ => simp [hcase, Event.addsLocal] at hadds
    | updateDestination _ hupdate => exact (PeerData.validDestination_updateDestination hupdate).2 mac
    | removeDestination hremoves _ =>
      obtain ⟨mac', advert, hcase⟩ := hremoves
      simp [hcase, DestAdvert.Event.ofNode] at hevent
    | updateDataItems _ => exact PeerData.validDestination_updateDataItems cfg _ _ mac
    | cleanup _ _ => rfl
    | clear _ _ => rfl
  have henter : (d.roster.enter e.2).localPdp = d.localPdp := by
    cases e.2 with
    | _ => rfl
  have hall : ∀ mac, d'.roster.localPdp.validDestination mac = d.localPdp.validDestination mac := by
    intro mac
    rw [← henter]
    have hreaches := step_reaches cfg hstep
    generalize d'.roster = r at hreaches ⊢
    induction hreaches with
    | refl => rfl
    | tail _ h ih => exact (hmove h mac).trans ih
  ext mac
  exact Bool.eq_iff_iff.mp (hall mac)

end Node
def DestAdvertDBEntry.listed (entry : DestAdvertDBEntry) : Set DlepMac :=
  {mac | entry.estate = .up ∧ mac ∈ entry.info.destinations.toMacs}

namespace DestAdvertDBEntry

variable {entry : DestAdvertDBEntry}

theorem listed_of_up (h : entry.estate = .up)
    : entry.listed = {mac | mac ∈ entry.info.destinations.toMacs} := by
  simp [listed, h]

theorem listed_of_not_up (h : entry.estate ≠ .up) : entry.listed = ∅ := by
  simp [listed, h]

end DestAdvertDBEntry

theorem DlepMacAddrs.mem_getDifference {a b : DlepMacAddrs} {mac : DlepMac}
    : mac ∈ a.getDifference b ↔ mac ∈ a.toMacs ∧ mac ∉ b.toMacs := by
  have hcontains : b.contains mac = true ↔ mac ∈ b.toMacs := by
    unfold SortedMap.contains toMacs
    rw [Option.isSome_iff_exists]
    simp [SortedMap.find?_eq_some_iff]
  simp [getDifference, ← hcontains]

namespace DestAdvert

variable (cfg : AdvertConfig) (env : Env)

theorem addDestinations_local (macs : List DlepMac) (dataItems : List DataItem) (dlep : Node)
    : Ensures (addDestinations cfg env macs dataItems dlep)
        (fun dlep' => dlep'.localDestinations = dlep.localDestinations ∪ {mac | mac ∈ macs})
            (fun _ => True) := by
  induction macs generalizing dlep with
  | nil => exact .ok (by simp)
  | cons mac macs ih =>
    have hone : Ensures
      ((dlep.addDestination cfg.toSessionConfig env mac dataItems).map (fun res => res.2))
        (fun dlep' => dlep'.localDestinations = dlep.localDestinations ∪ {mac}) (fun _ => True) := by
      exact (dlep.addDestination_local cfg.toSessionConfig env mac dataItems).map (fun _ hd => hd)
    apply hone.bind
    intro dlep' hdlep'
    apply (ih dlep').mono _ (fun _ htrue => htrue)
    intro dlep'' hdlep''
    rw [hdlep'', hdlep']
    ext mac'
    simp only [Set.mem_union, Set.mem_singleton_iff, Set.mem_ofPred_eq, List.mem_cons]
    tauto

theorem removes_local {σ : Type} {node : σ → Node} {f : σ → DlepMac → Except Fault σ}
    (hf : ∀ s mac, Ensures (f s mac)
      (fun s' => (node s').localDestinations = (node s).localDestinations \ {mac}) (fun _ => True))
    (macs : List DlepMac) (s : σ)
    : Ensures (macs.foldlM f s)
        (fun s' => (node s').localDestinations = (node s).localDestinations \ {mac | mac ∈ macs})
            (fun _ => True) := by
  induction macs generalizing s with
  | nil => exact .ok (by simp)
  | cons mac macs ih =>
    apply (hf s mac).bind
    intro s' hs'
    apply (ih s').mono _ (fun _ htrue => htrue)
    intro s'' hs''
    rw [hs'', hs']
    ext mac'
    simp only [Set.mem_sdiff, Set.mem_singleton_iff, Set.mem_ofPred_eq, List.mem_cons]
    tauto

theorem removeDestinations_local (macs : List DlepMac) (dlep : Node)
    : Ensures (removeDestinations cfg env macs dlep)
        (fun dlep' => dlep'.localDestinations = dlep.localDestinations \ {mac | mac ∈ macs})
            (fun _ => True) := by
  apply @removes_local Node id
  intro dlep mac
  exact (dlep.removeDestination_local cfg.toSessionConfig env mac).map (fun _ hd => hd.1)

theorem handleAdvert_ensures (info : DestAdvertInfo) (d : DestAdvert)
    : Ensures (handleAdvert cfg env info d)
        (fun d' =>
          (d.destAdvertDb.find? info.rfId = none ∧ d'.dlep = d.dlep
            ∧ d.destAdvertDb.Updated d'.destAdvertDb info.rfId (newEntry env info))
            ∨ ∃ entry, d.destAdvertDb.find? info.rfId = some entry
            ∧ d.destAdvertDb.Updated d'.destAdvertDb info.rfId (updateEntry env info entry)
            ∧ d'.dlep.localDestinations =
              if entry.estate = .up then
                (d.dlep.localDestinations
                  ∪ {mac | mac ∈ info.destinations.getDifference entry.info.destinations})
                  \ {mac | mac ∈ entry.info.destinations.getDifference info.destinations}
              else
                d.dlep.localDestinations)
        (fun _ => True) := by
  unfold handleAdvert
  split
  . next hfind => exact .ok (Or.inl ⟨hfind, rfl, SortedMap.updated_set _ _ _⟩)
  . next entry hfind =>
    split
    . next hup =>
      apply (addDestinations_local cfg env _ entry.dataItems d.dlep).bind
      intro dlep hdlep
      apply (removeDestinations_local cfg env _ dlep).bind
      intro dlep' hdlep'
      refine .ok (Or.inr ⟨entry, hfind, SortedMap.updated_set _ _ _, ?_⟩)
      rw [if_pos hup, ← hdlep]
      exact hdlep'
    . next hdown => exact .ok (Or.inr ⟨entry, hfind, SortedMap.updated_set _ _ _, by rw [if_neg hdown]⟩)

structure Keeps (entry entry' : DestAdvertDBEntry) : Prop where
  placeholder : entry'.placeholder = entry.placeholder
  info : entry'.info = entry.info

section

variable {mac : DlepMac} {d : DestAdvert} {entry : DestAdvertDBEntry}

theorem modifyEntry_none {f : DestAdvertDBEntry → DestAdvertDBEntry} (h : d.destAdvertDb.find? mac = none)
    : d.modifyEntry mac f = d := by
  unfold modifyEntry
  rw [h]

theorem modifyEntry_some {f : DestAdvertDBEntry → DestAdvertDBEntry}
    (h : d.destAdvertDb.find? mac = some entry)
    : d.destAdvertDb.Updated (d.modifyEntry mac f).destAdvertDb mac (f entry)
        ∧ (d.modifyEntry mac f).dlep = d.dlep := by
  unfold modifyEntry
  rw [h]
  exact ⟨SortedMap.updated_set _ _ _, rfl⟩

theorem updateAdvertEntryDataItems_some (h : d.destAdvertDb.find? mac = some entry)
    (dataItems : List DataItem)
    : ∃ entry₁, Keeps entry entry₁ ∧ entry₁.estate = entry.estate
        ∧ d.destAdvertDb.Updated (d.updateAdvertEntryDataItems cfg mac dataItems).destAdvertDb mac entry₁
        ∧ (d.updateAdvertEntryDataItems cfg mac dataItems).dlep = d.dlep := by
  obtain ⟨hupdated, hdlep⟩ := @modifyEntry_some mac d entry
    (fun entry =>
      { entry with
        dataItems := dataItems.filter (fun di => !isIpDataItem cfg di) ++ entry.dataItems.filter
          (fun di => isIpDataItem cfg di) })
    h
  refine ⟨_, ?_, ?_, hupdated, hdlep⟩
  . exact ⟨rfl, rfl⟩
  . rfl

theorem updateAdvertEntryState_some (h : d.destAdvertDb.find? mac = some entry)
    (newstate : EntryState) (dlep : Node)
    : d.destAdvertDb.Updated
        (updateAdvertEntryState mac newstate { d with dlep := dlep }).destAdvertDb mac
          { entry with estate := newstate }
        ∧ (updateAdvertEntryState mac newstate { d with dlep := dlep }).dlep = dlep := by
  exact @modifyEntry_some mac { d with dlep := dlep } entry
    (fun entry => { entry with estate := newstate }) h

theorem findAdvert_none (h : d.destAdvertDb.find? mac = none) : d.findAdvert mac = .notFound := by
  unfold findAdvert
  rw [h]

theorem findAdvert_up (h : d.destAdvertDb.find? mac = some entry) (hup : entry.estate = .up)
    : d.findAdvert mac = .up entry.info.destinations.toMacs entry.dataItems := by
  unfold findAdvert
  simp only [h, hup]

theorem findAdvert_not_up (h : d.destAdvertDb.find? mac = some entry) (hdown : entry.estate ≠ .up)
    : d.findAdvert mac = .down entry.info.destinations.toMacs := by
  unfold findAdvert
  cases hestate : entry.estate with
  | up => exact absurd hestate hdown
  | down => simp only [h, hestate]

end

section

variable (mac : DlepMac) (dataItems : List DataItem) (d : DestAdvert)

theorem destinationUp_ensures
    : Ensures (d.destinationUp cfg env mac dataItems)
        (fun res =>
          (d.destAdvertDb.find? mac = none ∧ res.2.dlep.localDestinations = d.dlep.localDestinations
            ∧ d.destAdvertDb.Updated res.2.destAdvertDb mac (placeholderEntry env dataItems))
            ∨ ∃ entry entry', d.destAdvertDb.find? mac = some entry ∧ Keeps entry entry'
              ∧ entry'.estate = .up
            ∧ d.destAdvertDb.Updated res.2.destAdvertDb mac entry'
            ∧ res.2.dlep.localDestinations =
              if entry.estate = .up then
                d.dlep.localDestinations
              else
                d.dlep.localDestinations ∪ {mac | mac ∈ entry.info.destinations.toMacs})
        (fun _ => True) := by
  unfold destinationUp
  simp only
  cases hfind : d.destAdvertDb.find? mac with
  | none =>
    have hup : d.dlep.destinationUp cfg.toSessionConfig env mac dataItems .notFound
        = .ok (.ok, d.dlep) := by
      simp [Node.destinationUp, cfg.enabled]
    rw [updateAdvertEntryDataItems, modifyEntry_none hfind, findAdvert_none hfind, hup]
    apply Ensures.bind_of_eq rfl
    simp only [hfind]
    exact .ok (Or.inl ⟨trivial, rfl, SortedMap.updated_set _ _ _⟩)
  | some entry =>
    obtain ⟨entry₁, hkeeps, hestate, hupdated, hdlep⟩ :=
      updateAdvertEntryDataItems_some cfg hfind dataItems
    generalize d.updateAdvertEntryDataItems cfg mac dataItems = d₁ at hupdated hdlep ⊢
    have hfind₁ := hupdated.find?_self
    have hnode : Ensures (d₁.dlep.destinationUp cfg.toSessionConfig env mac dataItems (d₁.findAdvert mac))
        (fun res => res.2.localDestinations =
          if entry.estate = .up then
            d.dlep.localDestinations
          else
            d.dlep.localDestinations ∪ {mac | mac ∈ entry.info.destinations.toMacs})
        (fun _ => True) := by
      unfold Node.destinationUp
      rw [if_pos cfg.enabled]
      by_cases hup : entry.estate = .up
      . rw [findAdvert_up hfind₁ (hestate.trans hup), if_pos hup, hdlep]
        exact .ok rfl
      . rw [findAdvert_not_up hfind₁ (hestate ▸ hup), if_neg hup, hdlep, hkeeps.info]
        exact (addDestinations_local cfg env _ dataItems d.dlep).map (fun _ hd => hd)
    apply hnode.bind
    rintro ⟨rs, dlep⟩ hres
    simp only [hfind₁]
    obtain ⟨hstate, hdlep'⟩ := updateAdvertEntryState_some hfind₁ .up dlep
    refine .ok (Or.inr ⟨entry, { entry₁ with estate := .up }, rfl, ⟨hkeeps.placeholder, hkeeps.info⟩, rfl,
      hupdated.trans hstate, ?_⟩)
    rw [hdlep']
    exact hres

theorem updateDestinations_local (macs : List DlepMac) (dlep : Node)
    : Ensures (macs.foldlM
        (fun d dest => (d.updateDestination cfg.toSessionConfig env dest dataItems).map
        (fun res => res.2)) dlep)
        (fun dlep' => dlep'.localDestinations = dlep.localDestinations) (fun _ => True) := by
  apply Ensures.foldlM
  . intro dlep₁ dest _ hdlep₁
    exact (dlep₁.updateDestination_local cfg.toSessionConfig env dest dataItems).map
      (fun _ hd => hd.trans hdlep₁)
  . rfl

theorem destinationUpdate_ensures
    : Ensures (d.destinationUpdate cfg env mac dataItems)
        (fun res => res.2.dlep.localDestinations = d.dlep.localDestinations
          ∧ ((d.destAdvertDb.find? mac = none ∧ res.2.destAdvertDb = d.destAdvertDb)
            ∨ ∃ entry entry', d.destAdvertDb.find? mac = some entry ∧ Keeps entry entry'
              ∧ entry'.estate = entry.estate
            ∧ d.destAdvertDb.Updated res.2.destAdvertDb mac entry'))
        (fun _ => True) := by
  have hnode : ∀ (dlep : Node) advert,
    Ensures (dlep.destinationUpdate cfg.toSessionConfig env mac dataItems advert)
      (fun res => res.2.localDestinations = dlep.localDestinations) (fun _ => True) := by
    intro dlep advert
    unfold Node.destinationUpdate
    rw [if_pos cfg.enabled]
    cases advert with
    | notFound => exact dlep.updateNotOurs_local cfg.toSessionConfig env mac dataItems
    | up destinations entryDataItems =>
      exact (updateDestinations_local cfg env entryDataItems destinations dlep).map (fun _ hd => hd)
    | down destinations => exact .ok rfl
  apply (hnode _ _).bind
  rintro ⟨rs, dlep⟩ hres
  apply Ensures.ok
  cases hfind : d.destAdvertDb.find? mac with
  | none =>
    rw [updateAdvertEntryDataItems, modifyEntry_none hfind] at hres ⊢
    exact ⟨hres, Or.inl ⟨rfl, rfl⟩⟩
  | some entry =>
    obtain ⟨entry₁, hkeeps, hestate, hupdated, hdlep⟩ :=
      updateAdvertEntryDataItems_some cfg hfind dataItems
    rw [hdlep] at hres
    exact ⟨hres, Or.inr ⟨entry, entry₁, rfl, hkeeps, hestate, hupdated⟩⟩

theorem destinationDown_ensures
    : Ensures (d.destinationDown cfg env mac)
        (fun res =>
          (d.destAdvertDb.find? mac = none ∧ res.2.destAdvertDb = d.destAdvertDb
            ∧ res.2.dlep.localDestinations = d.dlep.localDestinations \ {mac})
            ∨ ∃ entry entry', d.destAdvertDb.find? mac = some entry ∧ Keeps entry entry'
              ∧ entry'.estate = .down
            ∧ d.destAdvertDb.Updated res.2.destAdvertDb mac entry'
            ∧ res.2.dlep.localDestinations =
              if entry.estate = .up then
                d.dlep.localDestinations \ {mac | mac ∈ entry.info.destinations.toMacs}
              else
                d.dlep.localDestinations)
        (fun _ => True) := by
  have hremove : ∀ (macs : List DlepMac) (res : ReturnStatus × Node),
      Ensures
        (macs.foldlM
          (fun res dest => (res.2.removeDestination cfg.toSessionConfig env dest).map
            (fun res' => (if res'.1 then res.1 else .destinationDoesNotExist, res'.2))) res)
        (fun res' => res'.2.localDestinations = res.2.localDestinations \ {mac | mac ∈ macs})
            (fun _ => True) := by
    apply @removes_local (ReturnStatus × Node) Prod.snd
    intro res mac
    exact (res.2.removeDestination_local cfg.toSessionConfig env mac).map (fun _ hd => hd.1)
  unfold destinationDown
  cases hfind : d.destAdvertDb.find? mac with
  | none =>
    rw [findAdvert_none hfind, Node.destinationDown, if_pos cfg.enabled]
    apply (d.dlep.removeOurs_local cfg.toSessionConfig env mac).bind
    rintro ⟨rs, dlep⟩ hres
    have hsame : updateAdvertEntryState mac .down { d with dlep := dlep } = { d with dlep := dlep } := by
      exact @modifyEntry_none mac { d with dlep := dlep } _ hfind
    simp only [hsame]
    exact .ok (Or.inl ⟨trivial, rfl, hres⟩)
  | some entry =>
    have hnode : Ensures (d.dlep.destinationDown cfg.toSessionConfig env mac (d.findAdvert mac))
        (fun res => res.2.localDestinations =
          if entry.estate = .up then
            d.dlep.localDestinations \ {mac | mac ∈ entry.info.destinations.toMacs}
          else
            d.dlep.localDestinations)
        (fun _ => True) := by
      unfold Node.destinationDown
      rw [if_pos cfg.enabled]
      by_cases hup : entry.estate = .up
      . rw [findAdvert_up hfind hup, if_pos hup]
        exact hremove _ (.ok, d.dlep)
      . rw [findAdvert_not_up hfind hup, if_neg hup]
        exact .ok rfl
    apply hnode.bind
    rintro ⟨rs, dlep⟩ hres
    obtain ⟨hstate, hdlep'⟩ := updateAdvertEntryState_some hfind .down dlep
    refine .ok (Or.inr ⟨entry, { entry with estate := .down }, rfl, ⟨rfl, rfl⟩, rfl, hstate, ?_⟩)
    rw [hdlep']
    exact hres

end

section

variable (holdInterval expireCount : UInt32)

theorem purgeEntry_ensures (d : DestAdvert) (e : DlepMac × DestAdvertDBEntry)
    : Ensures (purgeEntry cfg env holdInterval expireCount d e)
        (fun d' =>
          (∀ rfId, d'.destAdvertDb.find? rfId
            = if rfId = e.1 ∧ fate env holdInterval expireCount e.2 ≠ .kept then none
              else d.destAdvertDb.find? rfId)
            ∧ d'.dlep.localDestinations
            = d.dlep.localDestinations \ {mac | fate env holdInterval expireCount e.2 = .expired
              ∧ mac ∈ e.2.listed})
        (fun _ => True) := by
  unfold purgeEntry
  cases fate env holdInterval expireCount e.2 with
  | removedAsPlaceholder =>
    refine .ok ⟨?_, by simp⟩
    intro rfId
    simp [SortedMap.find?_erase]
  | expired =>
    simp only
    split
    . next hup =>
      apply (removeDestinations_local cfg env e.2.info.destinations.toMacs d.dlep).bind
      intro dlep hdlep
      refine .ok ⟨?_, ?_⟩
      . intro rfId
        simp [SortedMap.find?_erase]
      . rw [DestAdvertDBEntry.listed_of_up hup]
        simpa using hdlep
    . next hdown =>
      refine .ok ⟨?_, ?_⟩
      . intro rfId
        simp [SortedMap.find?_erase]
      . rw [DestAdvertDBEntry.listed_of_not_up hdown]
        simp
  | kept => exact .ok ⟨by simp, by simp⟩

theorem purgeEntries_ensures (entries : List (DlepMac × DestAdvertDBEntry)) (d : DestAdvert)
    : Ensures (entries.foldlM (purgeEntry cfg env holdInterval expireCount) d)
        (fun d' =>
          (∀ rfId entry, d'.destAdvertDb.find? rfId = some entry ↔
            d.destAdvertDb.find? rfId = some entry ∧
              ∀ e ∈ entries, e.1 = rfId → fate env holdInterval expireCount e.2 = .kept)
            ∧ d'.dlep.localDestinations
            = d.dlep.localDestinations \
                {mac | ∃ e ∈ entries, fate env holdInterval expireCount e.2 = .expired
                  ∧ mac ∈ e.2.listed})
        (fun _ => True) := by
  induction entries generalizing d with
  | nil => exact .ok ⟨by simp, by simp⟩
  | cons e entries ih =>
    apply (purgeEntry_ensures cfg env holdInterval expireCount d e).bind
    rintro d₁ ⟨hdb₁, hdlep₁⟩
    apply (ih d₁).mono _ (fun _ htrue => htrue)
    rintro d₂ ⟨hdb₂, hdlep₂⟩
    constructor
    . intro rfId entry
      rw [hdb₂, hdb₁, List.forall_mem_cons]
      split
      . next hgone =>
        constructor
        . rintro ⟨hnone, -⟩
          cases hnone
        . rintro ⟨-, hkept, -⟩
          exact absurd (hkept hgone.1.symm) hgone.2
      . next hstays =>
        have hkept : e.1 = rfId → fate env holdInterval expireCount e.2 = .kept := by
          intro hself
          by_contra hfate
          exact hstays ⟨hself.symm, hfate⟩
        constructor
        . exact fun h => ⟨h.1, hkept, h.2⟩
        . exact fun h => ⟨h.1, h.2.2⟩
    . rw [hdlep₂, hdlep₁]
      ext mac
      simp only [Set.mem_sdiff, Set.mem_ofPred_eq, List.mem_cons, exists_eq_or_imp, not_or, and_assoc]

theorem handlePurgeAdvertTimeout_ensures (d : DestAdvert)
    : Ensures (d.handlePurgeAdvertTimeout cfg env false holdInterval expireCount)
        (fun d' =>
          (∀ rfId entry, d'.destAdvertDb.find? rfId = some entry ↔
            d.destAdvertDb.find? rfId = some entry ∧ fate env holdInterval expireCount entry = .kept)
            ∧ d'.dlep.localDestinations
            = d.dlep.localDestinations \ {mac | ∃ rfId entry, d.destAdvertDb.find? rfId = some entry
                ∧ fate env holdInterval expireCount entry = .expired ∧ mac ∈ entry.listed})
        (fun _ => True) := by
  apply (purgeEntries_ensures cfg env holdInterval expireCount d.destAdvertDb.toList d).mono _
    (fun _ htrue => htrue)
  rintro d' ⟨hdb, hdlep⟩
  constructor
  . intro rfId entry
    rw [hdb]
    apply and_congr_right
    intro hfind
    constructor
    . intro hall
      exact hall (rfId, entry) ((SortedMap.find?_eq_some_iff _ _ _).mp hfind) rfl
    . rintro hkept ⟨rfId', entry'⟩ he rfl
      rw [← SortedMap.find?_eq_some_iff, hfind] at he
      cases he
      exact hkept
  . rw [hdlep]
    ext mac
    simp [SortedMap.find?_eq_some_iff]

end

end DestAdvert
end Dlep
end Emane

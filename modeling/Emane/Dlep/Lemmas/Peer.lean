import Emane.Dlep.Impl.Peer

/-!
This module contains how a session evolves: in which ways its state can change, and when something
is added to the data of its peer.
-/

namespace Emane
namespace Dlep

def NoNewData (old new : Option PeerData) : Prop :=
  ∀ n, new = some n → ∃ o, old = some o ∧ n.items = o.items ∧
    ∀ mac ddp, n.destinationData.find? mac = some ddp →
      ∃ ddp', o.destinationData.find? mac = some ddp' ∧ ddp.items = ddp'.items

theorem NoNewData.refl (old : Option PeerData) : NoNewData old old := by
  intro n hn
  exact ⟨n, hn, rfl, fun _ ddp hddp => ⟨ddp, hddp, rfl⟩⟩

theorem NoNewData.trans {old mid new : Option PeerData} (h : NoNewData old mid) (h' : NoNewData mid new)
    : NoNewData old new := by
  intro n hn
  obtain ⟨m, hm, hitems, hdestinations⟩ := h' n hn
  obtain ⟨o, ho, hitems', hdestinations'⟩ := h m hm
  refine ⟨o, ho, hitems.trans hitems', ?_⟩
  intro mac ddp hddp
  obtain ⟨ddp', hddp', heq⟩ := hdestinations mac ddp hddp
  obtain ⟨ddp'', hddp'', heq'⟩ := hdestinations' mac ddp' hddp'
  exact ⟨ddp'', hddp'', heq.trans heq'⟩

theorem NoNewData.setNeedsResponse (pdp : PeerData) (mac : DlepMac) (responseName : Option MessageName)
    : NoNewData (some pdp) (some (pdp.setNeedsResponse mac responseName)) := by
  intro n hn
  cases hn
  refine ⟨pdp, rfl, ?_⟩
  unfold PeerData.setNeedsResponse
  split
  . next ddp hddp =>
    refine ⟨rfl, ?_⟩
    intro mac' ddp' hddp'
    simp only [SortedMap.find?_set] at hddp'
    split at hddp'
    . next heq =>
      cases hddp'
      exact ⟨ddp, heq ▸ hddp, rfl⟩
    . exact ⟨ddp', hddp', rfl⟩
  . exact ⟨rfl, fun _ ddp hddp => ⟨ddp, hddp, rfl⟩⟩

theorem NoNewData.removeDestination {pdp pdp' : PeerData} {mac : DlepMac}
    (h : pdp.removeDestination mac = some pdp')
    : NoNewData (some pdp) (some pdp') := by
  unfold PeerData.removeDestination at h
  split at h
  . cases h
    intro n hn
    cases hn
    refine ⟨pdp, rfl, rfl, ?_⟩
    intro mac' ddp hddp
    simp only [SortedMap.find?_erase] at hddp
    split at hddp
    . cases hddp
    . exact ⟨ddp, hddp, rfl⟩
  . cases h

structure Evolves (news : Nat → Prop) (up add : Prop) (s s' : Session) : Prop where
  peerId : s'.peer.peerId = s.peer.peerId
  pstate : s'.peer.pstate = s.peer.pstate ∨ s'.peer.pstate = .terminating
    ∨ (up ∧ s'.peer.pstate = .inSession ∧ s'.peer.peerPdp ≠ none)
  peerPdp : s.peer.peerPdp ≠ none → s'.peer.peerPdp ≠ none
  data : add ∨ NoNewData s.peer.peerPdp s'.peer.peerPdp
  infoBase : ∀ id number, s'.infoBase.find? id = some number →
    s.infoBase.find? id = some number ∨ news number

def NullIf (r : Prop) (fault : Fault) : Prop :=
  fault = .nullPeerData → r

theorem NullIf.mono {r r' : Prop} (h : r → r') (fault : Fault) (hfault : NullIf r fault)
    : NullIf r' fault := by
  exact fun heq => h (hfault heq)

def NeverNull {α : Type u} (x : Except Fault α) : Prop :=
  Ensures x (fun _ => True) (NullIf False)

namespace NeverNull

variable {α β : Type u}

theorem ok (a : α) : NeverNull (.ok a) := by
  trivial

theorem error {fault : Fault} (h : fault ≠ .nullPeerData)
    : NeverNull (.error fault : Except Fault α) := by
  exact h

theorem bind {x : Except Fault α} {f : α → Except Fault β} (h : NeverNull x) (hf : ∀ a, NeverNull (f a))
    : NeverNull (x >>= f) := by
  exact Ensures.bind h (fun a _ => hf a)

theorem optional {α : Type} {x : Except Fault α} (h : NeverNull x) : NeverNull (optional x) := by
  unfold Dlep.optional
  split
  . trivial
  . trivial
  . exact h

theorem optionalName {α : Type} {x : Except Fault α} (h : NeverNull x) : NeverNull (optionalName x) := by
  unfold Dlep.optionalName
  split
  . trivial
  . exact h.optional

theorem then_ensures {x : Except Fault α} {f : α → Except Fault β} {post : β → Prop} {r : Prop}
    (h : NeverNull x)
    (hf : ∀ a, x = .ok a → Ensures (f a) post (NullIf r))
    : Ensures (x >>= f) post (NullIf r) := by
  exact Ensures.bind_of_fail (fun _ hfault => NullIf.mono False.elim _ (h.of_error hfault)) hf

theorem mapM {f : α → Except Fault β} (hf : ∀ a, NeverNull (f a)) (as : List α)
    : NeverNull (as.mapM f) := by
  induction as with
  | nil => trivial
  | cons a as ih =>
    rw [List.mapM_cons]
    exact (hf a).bind (fun _ => ih.bind (fun _ => .ok _))

end NeverNull

namespace SessionConfig

variable (cfg : SessionConfig)

theorem getDataItemId_neverNull (name : DataItemName) : NeverNull (cfg.getDataItemId name) := by
  unfold getDataItemId
  split
  . trivial
  . exact .error (by simp)

theorem getDataItemValueTypeOf_neverNull (name : DataItemName)
    : NeverNull (cfg.getDataItemValueTypeOf name) := by
  exact (cfg.getDataItemId_neverNull name).bind (fun _ => .ok _)

theorem getSignalInfo_neverNull (name : MessageName) : NeverNull (cfg.getSignalInfo name) := by
  unfold getSignalInfo
  split
  . trivial
  . exact .error (by simp)

theorem getMessageResponseName_neverNull (name : MessageName)
    : NeverNull (cfg.getMessageResponseName name) := by
  exact (cfg.getSignalInfo_neverNull name).bind (fun _ => .ok _)

theorem getStatusCodeInfo_neverNull (id : Nat) : NeverNull (cfg.getStatusCodeInfo id) := by
  unfold getStatusCodeInfo
  split
  . trivial
  . exact .error (by simp)

theorem addMac_neverNull (mac : DlepMac) : NeverNull (cfg.addMac mac) := by
  exact (cfg.getDataItemId_neverNull .macAddress).bind (fun _ => .ok _)

theorem getStatusCodeId_neverNull (tries : Nat) (statusName : StatusName)
    : NeverNull (cfg.getStatusCodeId tries statusName) := by
  induction tries generalizing statusName with
  | zero => exact .error (by simp)
  | succ tries ih =>
    unfold getStatusCodeId
    split
    . trivial
    . split
      . exact ih _
      . exact ih _
      . exact ih _
      . exact ih _
      . exact ih _
      . exact ih _

theorem addStatus_neverNull (statusName : StatusName) : NeverNull (cfg.addStatus statusName) := by
  apply (cfg.getStatusCodeId_neverNull 3 statusName).bind
  intro code
  apply (cfg.getDataItemId_neverNull .status).bind
  intro id
  split
  . trivial
  . trivial

end SessionConfig

namespace Outgoing

theorem build_neverNull (cfg : SessionConfig) (message : Outgoing) : NeverNull (message.build cfg) := by
  apply (NeverNull.mapM cfg.addMac_neverNull message.mac.toList).bind
  intro macItems
  apply (NeverNull.mapM cfg.addStatus_neverNull message.status.toList).bind
  intro statusItems
  split
  . trivial
  . exact .error (by simp)

variable {cfg : SessionConfig} {name : MessageName} {mac : Option DlepMac}
  {dataItems : List DataItem} {status : Option StatusName}

theorem create_ensures (cfg : SessionConfig) (name : MessageName) (mac : Option DlepMac)
    (dataItems : List DataItem)
    (status : Option StatusName)
    : Ensures (create cfg name mac dataItems status)
        (fun message => message = ⟨name, mac, status, dataItems⟩) (NullIf False) := by
  exact (build_neverNull cfg ⟨name, mac, status, dataItems⟩).then_ensures (fun _ _ => .ok rfl)

theorem create_neverNull : NeverNull (create cfg name mac dataItems status) := by
  exact (create_ensures cfg name mac dataItems status).mono (fun _ _ => trivial) (fun _ hfault => hfault)

theorem eq_of_create {message : Outgoing} (h : create cfg name mac dataItems status = .ok message)
    : message = ⟨name, mac, status, dataItems⟩ := by
  exact (create_ensures cfg name mac dataItems status).of_ok h

end Outgoing

namespace ProtocolMessage

variable (cfg : SessionConfig) (pm : ProtocolMessage)

theorem getDataItemValue_neverNull (name : DataItemName) : NeverNull (pm.getDataItemValue cfg name) := by
  apply (cfg.getDataItemId_neverNull name).bind
  intro id
  split
  . trivial
  . exact .error (by simp)

theorem getDataItemExists_neverNull (name : DataItemName)
    : NeverNull (pm.getDataItemExists cfg name) := by
  exact (cfg.getDataItemId_neverNull name).bind (fun _ => .ok _)

theorem getMac_neverNull : NeverNull (pm.getMac cfg) := by
  apply (pm.getDataItemValue_neverNull cfg .macAddress).bind
  intro value
  split
  . trivial
  . exact .error (by simp)

theorem getPeerType_neverNull : NeverNull (pm.getPeerType cfg) := by
  apply (cfg.getDataItemValueTypeOf_neverNull .peerType).bind
  intro valueType
  apply (pm.getDataItemValue_neverNull cfg .peerType).bind
  intro value
  split
  . trivial
  . exact .error (by simp)
  . trivial
  . exact .error (by simp)

theorem getStatus_neverNull : NeverNull (pm.getStatus cfg) := by
  apply (cfg.getDataItemValueTypeOf_neverNull .status).bind
  intro valueType
  apply (pm.getDataItemValue_neverNull cfg .status).bind
  intro value
  split
  . exact cfg.getStatusCodeInfo_neverNull _
  . exact .error (by simp)
  . exact cfg.getStatusCodeInfo_neverNull _
  . exact .error (by simp)

theorem getHeartbeatInterval_neverNull : NeverNull (pm.getHeartbeatInterval cfg) := by
  apply (cfg.getDataItemValueTypeOf_neverNull .heartbeatInterval).bind
  intro valueType
  split
  . apply (pm.getDataItemValue_neverNull cfg .heartbeatInterval).bind
    intro value
    split
    . trivial
    . exact .error (by simp)
  . apply (pm.getDataItemValue_neverNull cfg .heartbeatInterval).bind
    intro value
    split
    . trivial
    . exact .error (by simp)
  . exact .error (by simp)

theorem getExtensions_neverNull : NeverNull (pm.getExtensions cfg) := by
  apply (pm.getDataItemValue_neverNull cfg .extensionsSupported).bind
  intro value
  split
  . trivial
  . exact .error (by simp)

theorem getDataItemsNoMac_neverNull : NeverNull (pm.getDataItemsNoMac cfg) := by
  exact (cfg.getDataItemId_neverNull .macAddress).bind (fun _ => .ok _)

theorem getExperimentNames_neverNull : NeverNull (pm.getExperimentNames cfg) := by
  apply (cfg.getDataItemId_neverNull .experimentalDefinition).bind
  intro id
  generalize pm.dataItems.filter (fun di => di.id = id) = dataItems
  induction dataItems with
  | nil => trivial
  | cons di dataItems ih =>
    rw [List.mapM_cons]
    apply NeverNull.bind
    . split
      . trivial
      . exact .error (by simp)
    . intro value
      exact ih.bind (fun _ => .ok _)

end ProtocolMessage

namespace Evolves

variable {news : Nat → Prop} {up add : Prop} {s s' s'' : Session}

theorem refl (news : Nat → Prop) (up add : Prop) (s : Session) : Evolves news up add s s := by
  constructor
  . rfl
  . exact Or.inl rfl
  . exact id
  . exact Or.inr (.refl _)
  . exact fun _ _ h => Or.inl h

theorem trans (h : Evolves news up add s s') (h' : Evolves news up add s' s'')
    : Evolves news up add s s'' := by
  constructor
  . exact h'.peerId.trans h.peerId
  . rcases h'.pstate with hsame | hterminating | hup
    . rw [hsame]
      rcases h.pstate with hsame' | hterminating' | hup'
      . exact Or.inl hsame'
      . exact Or.inr (Or.inl hterminating')
      . exact Or.inr (Or.inr ⟨hup'.1, hup'.2.1, h'.peerPdp hup'.2.2⟩)
    . exact Or.inr (Or.inl hterminating)
    . exact Or.inr (Or.inr hup)
  . exact fun hpdp => h'.peerPdp (h.peerPdp hpdp)
  . rcases h.data with hadd | hdata
    . exact Or.inl hadd
    . rcases h'.data with hadd' | hdata'
      . exact Or.inl hadd'
      . exact Or.inr (hdata.trans hdata')
  . intro id number hfind
    rcases h'.infoBase id number hfind with hold | hself
    . exact h.infoBase id number hold
    . exact Or.inr hself

theorem mono {news' : Nat → Prop} {up' add' : Prop} (hnews : ∀ number, news number → news' number)
    (hup : up → up')
    (hadd : add → add') (h : Evolves news up add s s')
    : Evolves news' up' add' s s' := by
  constructor
  . exact h.peerId
  . rcases h.pstate with hsame | hterminating | hin
    . exact Or.inl hsame
    . exact Or.inr (Or.inl hterminating)
    . exact Or.inr (Or.inr ⟨hup hin.1, hin.2⟩)
  . exact h.peerPdp
  . exact h.data.imp_left hadd
  . exact fun id number hfind => (h.infoBase id number hfind).imp_right (hnews number)

theorem of_eq (hpeerId : s'.peer.peerId = s.peer.peerId) (hpstate : s'.peer.pstate = s.peer.pstate)
    (hpdp : s'.peer.peerPdp = s.peer.peerPdp) (hinfoBase : s'.infoBase = s.infoBase)
    : Evolves news up add s s' := by
  constructor
  . exact hpeerId
  . exact Or.inl hpstate
  . exact fun h => hpdp ▸ h
  . exact Or.inr (hpdp ▸ .refl _)
  . exact fun _ _ h => Or.inl (hinfoBase ▸ h)

theorem setPdp_add (pdp : PeerData) (s : Session) : Evolves news up True s (s.setPdp pdp) := by
  constructor
  . rfl
  . exact Or.inl rfl
  . exact fun _ h => by cases h
  . exact Or.inl trivial
  . exact fun _ _ h => Or.inl h

theorem setPdp_data {pdp pdp' : PeerData} (hpdp : s.peer.peerPdp = some pdp)
    (hdata : NoNewData (some pdp) (some pdp'))
    : Evolves news up add s (s.setPdp pdp') := by
  constructor
  . rfl
  . exact Or.inl rfl
  . exact fun _ h => by cases h
  . exact Or.inr (hpdp ▸ hdata)
  . exact fun _ _ h => Or.inl h

end Evolves

namespace Session

variable (s : Session)

theorem create_neverNull (cfg : SessionConfig) (message : Outgoing)
    : NeverNull (ResponsePending.create cfg message) := by
  have hname := cfg.getMessageResponseName_neverNull message.name
  unfold ResponsePending.create
  split
  . next fault heq => exact .error (fun hnull => hname.of_error heq hnull)
  . exact .error (by simp)
  . trivial

theorem peerPdp_ensures : Ensures s.peerPdp (fun pdp => s.peer.peerPdp = some pdp)
    (NullIf (s.peer.peerPdp = none)) := by
  unfold peerPdp
  split
  . next pdp heq => exact .ok heq
  . next heq => exact .error (fun _ => heq)

theorem peerPdp_then {s : Session} {α : Type} {f : PeerData → Except Fault α} {post : α → Prop}
    {r : Prop} (hr : s.peer.peerPdp = none → r)
    (hf : ∀ pdp, s.peer.peerPdp = some pdp → Ensures (f pdp) post (NullIf r))
    : Ensures (s.peerPdp >>= f) post (NullIf r) := by
  exact (s.peerPdp_ensures.mono (fun _ hpdp => hpdp) (NullIf.mono hr)).bind hf

theorem getInfo_ensures : Ensures s.getInfo (fun _ => True) (NullIf (s.peer.peerPdp = none)) := by
  exact s.peerPdp_ensures.bind (fun _ _ => trivial)

end Session
end Dlep
end Emane

import Emane.Dlep.Impl.Peer

/-!
This module contains what the operations of the information base do to the table of destinations,
and which operations of a session leave the data of the peer alone.
-/

namespace Emane
namespace Dlep

namespace PeerData

theorem validDestination_set (pdp : PeerData) (mac mac' : DlepMac) (ddp : DestinationData)
    : ({ pdp with destinationData := pdp.destinationData.set mac ddp } : PeerData).validDestination mac'
        =
      (decide (mac' = mac) || pdp.validDestination mac') := by
  unfold validDestination
  rw [SortedMap.find?_set]
  by_cases heq : mac' = mac
  . simp [heq]
  . simp [heq]

theorem validDestination_erase (pdp : PeerData) (mac mac' : DlepMac)
    : ({ pdp with destinationData := pdp.destinationData.erase mac } : PeerData).validDestination mac'
        =
      (decide (mac' ≠ mac) && pdp.validDestination mac') := by
  unfold validDestination
  rw [SortedMap.find?_erase]
  by_cases heq : mac' = mac
  . simp [heq]
  . simp [heq]

variable {pdp pdp' : PeerData} {mac : DlepMac}

theorem validDestination_addDestination {cfg : SessionConfig} {dataItems : List DataItem}
    (h : pdp.addDestination cfg mac dataItems = some pdp')
    : pdp.validDestination mac = false
        ∧ ∀ mac', pdp'.validDestination mac' = (decide (mac' = mac) || pdp.validDestination mac') := by
  unfold addDestination at h
  split at h
  . cases h
  . next hnone =>
    cases h
    refine ⟨?_, fun mac' => validDestination_set pdp mac mac' _⟩
    unfold validDestination
    rw [hnone]
    rfl

theorem validDestination_removeDestination (h : pdp.removeDestination mac = some pdp')
    : pdp.validDestination mac = true
        ∧ ∀ mac', pdp'.validDestination mac' = (decide (mac' ≠ mac) && pdp.validDestination mac') := by
  unfold removeDestination at h
  split at h
  . next ddp hddp =>
    cases h
    refine ⟨?_, fun mac' => validDestination_erase pdp mac mac'⟩
    unfold validDestination
    rw [hddp]
    rfl
  . cases h

theorem validDestination_updateDestination {cfg : SessionConfig} {updates : List DataItem}
    (h : pdp.updateDestination cfg mac updates = some pdp')
    : pdp.validDestination mac = true
        ∧ ∀ mac', pdp'.validDestination mac' = pdp.validDestination mac' := by
  unfold updateDestination at h
  split at h
  . next ddp hddp =>
    cases h
    have htrue : pdp.validDestination mac = true := by
      unfold validDestination
      rw [hddp]
      rfl
    refine ⟨htrue, ?_⟩
    intro mac'
    rw [validDestination_set]
    by_cases heq : mac' = mac
    . rw [heq, htrue]
      simp
    . simp [heq]
  . cases h

theorem validDestination_updateDataItems (cfg : SessionConfig) (pdp : PeerData)
    (updates : List DataItem) (mac : DlepMac)
    : (pdp.updateDataItems cfg updates).2.validDestination mac = pdp.validDestination mac := by
  have hall : ∀ (macs : List DlepMac) (dataItems : List DataItem) (pdp : PeerData),
      (macs.foldl (fun pdp mac => (pdp.updateDestination cfg mac dataItems).getD pdp)
        pdp).validDestination mac
        = pdp.validDestination mac := by
    intro macs dataItems
    induction macs with
    | nil => exact fun pdp => rfl
    | cons mac' macs ih =>
      intro pdp
      rw [List.foldl_cons, ih]
      cases hupdate : pdp.updateDestination cfg mac' dataItems with
      | none => rfl
      | some pdp' => exact (validDestination_updateDestination hupdate).2 mac
  unfold updateDataItems
  split
  . rfl
  . simp only
    split
    . rfl
    . exact hall _ _ _

section

variable (cfg : SessionConfig) (pdp : PeerData) (mac : DlepMac) (dataItems : List DataItem)

theorem addDestination_isSome
    : (pdp.addDestination cfg mac dataItems).isSome = !pdp.validDestination mac := by
  unfold addDestination validDestination
  cases pdp.destinationData.find? mac with
  | none => rfl
  | some ddp => rfl

theorem updateDestination_isSome
    : (pdp.updateDestination cfg mac dataItems).isSome = pdp.validDestination mac := by
  unfold updateDestination validDestination
  cases pdp.destinationData.find? mac with
  | none => rfl
  | some ddp => rfl

theorem removeDestination_isSome : (pdp.removeDestination mac).isSome = pdp.validDestination mac := by
  unfold removeDestination validDestination
  cases pdp.destinationData.find? mac with
  | none => rfl
  | some ddp => rfl

theorem validDestination_of_addDestination {pdp' : PeerData}
    (h : pdp.addDestination cfg mac dataItems = some pdp')
    {mac' : DlepMac} (hvalid : pdp.validDestination mac' = true)
    : pdp'.validDestination mac' = true := by
  unfold addDestination at h
  split at h
  . cases h
  . cases h
    unfold validDestination at hvalid ⊢
    simp only [SortedMap.find?_set]
    split
    . rfl
    . exact hvalid

end

theorem validDestination_setNeedsResponse (pdp : PeerData) (mac mac' : DlepMac)
    (responseName : Option MessageName)
    : (pdp.setNeedsResponse mac responseName).validDestination mac' = pdp.validDestination mac' := by
  unfold setNeedsResponse
  split
  . next ddp hddp =>
    rw [validDestination_set]
    by_cases heq : mac' = mac
    . rw [heq]
      simp [validDestination, hddp]
    . simp [heq]
  . rfl

end PeerData

namespace Session

theorem sendSimpleResponse_peer (ctx : Context) (s : Session) (response : MessageName)
    (status : Option StatusName)
    (mac : Option DlepMac)
    : (s.sendSimpleResponse ctx response status mac).peer = s.peer := by
  unfold Session.sendSimpleResponse
  split
  . rfl
  . rfl

theorem peerPdp_eq_ok {s : Session} {pdp : PeerData} (h : s.peer.peerPdp = some pdp)
    : s.peerPdp = .ok pdp := by
  unfold peerPdp
  rw [h]

variable (ctx : Context) (s : Session)

@[simp]
theorem peerPdp_sendSimpleResponse (response : MessageName) (status : Option StatusName)
    (mac : Option DlepMac)
    : (s.sendSimpleResponse ctx response status mac).peer.peerPdp = s.peer.peerPdp := by
  rw [sendSimpleResponse_peer]

@[simp]
theorem peerPdp_sendHead (destination : DlepMac)
    : (s.sendHead ctx destination).peer.peerPdp = s.peer.peerPdp := by
  unfold sendHead
  split
  . rfl
  . split
    . rfl
    . rfl

@[simp]
theorem peerPdp_enqueue (rp : ResponsePending) : (s.enqueue ctx rp).peer.peerPdp = s.peer.peerPdp := by
  unfold enqueue
  simp only
  split
  . rw [peerPdp_sendHead]
    rfl
  . rfl

theorem sendMessageExpectingResponse_peerPdp (message : Outgoing)
    : Ensures (s.sendMessageExpectingResponse ctx message)
        (fun s' => s'.peer.peerPdp = s.peer.peerPdp) (fun _ => True) := by
  unfold sendMessageExpectingResponse
  split
  . exact .error trivial
  . apply Ensures.ok
    split
    . rfl
    . rw [peerPdp_enqueue]

@[simp]
theorem peerPdp_stopPeer : (s.stopPeer ctx).peer.peerPdp = s.peer.peerPdp := by
  unfold stopPeer setStateTerminating
  split
  . rfl
  . split
    . rfl
    . rfl

theorem terminate_peerPdp (status : StatusName)
    : Ensures (s.terminate ctx status) (fun s' => s'.peer.peerPdp = s.peer.peerPdp) (fun _ => True) := by
  unfold terminate
  split
  . exact .ok rfl
  . apply (sendMessageExpectingResponse_peerPdp ctx (s.stopPeer ctx) _).bind
    intro s' hs'
    apply Ensures.ok
    rw [← s.peerPdp_stopPeer ctx]
    exact hs'

end Session
end Dlep
end Emane

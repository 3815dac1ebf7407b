import Mathlib.Logic.Relation
import Emane.Dlep.Impl.Service
import Emane.Dlep.Lemmas.Handler

/-!
This module contains the standing of a session, which is what the tables of a node and the addresses
depend on, and the moves that it makes.
-/

namespace Emane
namespace Dlep

def MessageName.addsDestination (modem : Bool) (clientStatus : StatusName) : MessageName → Bool
  | destinationAnnounce => true
  | destinationUp => modem || decide (clientStatus = .success)
  | destinationUpResponse | destinationAnnounceResponse => !modem && decide (clientStatus = .success)
  | _ => false

def MessageName.updatesDestination : MessageName → Bool
  | destinationUpdate | linkCharacteristicsResponse => true
  | _ => false

structure Standing where
  peerId : PeerId
  pstate : PeerState
  peerPdp : Option PeerData
  infoBase : SortedMap PeerId Nat

namespace Standing

def stop (st : Standing) : Standing :=
  { st with pstate := .terminating }

def terminate (st : Standing) : Standing :=
  { st with pstate := .terminating, infoBase := st.infoBase.erase st.peerId }

def setPdp (pdp : PeerData) (st : Standing) : Standing :=
  { st with peerPdp := some pdp }

def bringUp (number : Nat) (pdp : PeerData) (st : Standing) : Standing :=
  { st with peerPdp := some pdp, infoBase := st.infoBase.set st.peerId number, pstate := .inSession }

end Standing

def Context.Free (ctx : Context) (peerPdp : Option PeerData) (di : DataItem) : Prop :=
  ctx.localPdp.findIpDataItem di = none ∧
    ∀ e ∈ ctx.peers, ∀ pdp, (if e.1 = ctx.self then peerPdp else e.2.peerPdp) = some pdp
      → pdp.findIpDataItem di = none

/--
What the validation of addresses finds in order: those to add are nobody's, those to drop are
there.
-/
def Context.Admits (ctx : Context) (peerPdp : Option PeerData) (existing dataItems : List DataItem)
    : Prop :=
  ∀ di ∈ dataItems, ctx.cfg.isIpaddr di.id = true →
    (di.isAdd = true → ctx.Free peerPdp di) ∧ (di.isAdd = false → di.findIpDataItem existing = true)

namespace Session

def standing (s : Session) : Standing where
  peerId := s.peer.peerId
  pstate := s.peer.pstate
  peerPdp := s.peer.peerPdp
  infoBase := s.infoBase

namespace Input

variable (ctx : Context)

def handled (cfg : SessionConfig) : Input → Option ProtocolMessage
  | .receive signal => Session.handled cfg signal
  | _ => none

def stops (input : Input) : Prop :=
  input = .endOfFile ∨ ∃ pm, input.handled ctx.cfg = some pm ∧ pm.name = .sessionTermination

def bringsUp (input : Input) (peerPdp : Option PeerData) (dataItems : List DataItem) : Prop :=
  ∃ pm, input.handled ctx.cfg = some pm ∧
    ((pm.name = .sessionInitialization ∧ dataItems = [] ∧ ctx.Admits peerPdp [] pm.dataItems)
      ∨ (pm.name = .sessionInitializationResponse ∧ dataItems = pm.getMetricsAndIpaddrs ctx.cfg))

def adds (input : Input) (mac : DlepMac) (dataItems : List DataItem) : Prop :=
  ∃ pm, input.handled ctx.cfg = some pm
    ∧ pm.name.addsDestination ctx.cfg.modem ctx.env.clientStatus = true
    ∧ pm.getMac ctx.cfg = .ok mac ∧ dataItems = pm.dataItems

def updates (input : Input) (mac : DlepMac) (dataItems : List DataItem) : Prop :=
  ∃ pm, input.handled ctx.cfg = some pm ∧ pm.name.updatesDestination = true ∧ pm.getMac ctx.cfg = .ok mac
    ∧ pm.getDataItemsNoMac ctx.cfg = .ok dataItems

def removes (input : Input) : Prop :=
  (∃ mac, input = .removeDestination mac) ∨ ∃ pm, input.handled ctx.cfg = some pm
    ∧ pm.name = .destinationDown

def revises (input : Input) (dataItems : List DataItem) : Prop :=
  ∃ pm, input.handled ctx.cfg = some pm ∧ pm.name = .sessionUpdate ∧ dataItems = pm.dataItems

end Input

end Session

inductive Standing.Move (ctx : Context) (input : Session.Input) : Standing → Standing → Prop
  | stop {st : Standing} (h : input.stops ctx) : Move ctx input st st.stop
  | terminate {st : Standing} (h : st.pstate ≠ .terminating) : Move ctx input st st.terminate
  | bringUp {st : Standing} {dataItems : List DataItem} (h : input.bringsUp ctx st.peerPdp dataItems)
    : Move ctx input st (st.bringUp ctx.self (.create ctx.cfg (some st.peerId) dataItems))
  | setNeedsResponse {st : Standing} {pdp : PeerData} (hpdp : st.peerPdp = some pdp) (mac : DlepMac)
      (responseName : Option MessageName)
    : Move ctx input st (st.setPdp (pdp.setNeedsResponse mac responseName))
  | addDestination {st : Standing} {pdp pdp' : PeerData} {mac : DlepMac} {dataItems : List DataItem}
      (hpdp : st.peerPdp = some pdp) (hadds : input.adds ctx mac dataItems)
      (h : pdp.addDestination ctx.cfg mac dataItems = some pdp')
    : Move ctx input st (st.setPdp pdp')
  | updateDestination {st : Standing} {pdp pdp' : PeerData} {mac : DlepMac} {dataItems : List DataItem}
      (hpdp : st.peerPdp = some pdp) (hupdates : input.updates ctx mac dataItems)
      (h : pdp.updateDestination ctx.cfg mac dataItems = some pdp')
    : Move ctx input st (st.setPdp pdp')
  | removeDestination {st : Standing} {pdp pdp' : PeerData} {mac : DlepMac} (hpdp : st.peerPdp = some pdp)
      (hremoves : input.removes ctx) (h : pdp.removeDestination mac = some pdp')
    : Move ctx input st (st.setPdp pdp')
  | updateDataItems {st : Standing} {pdp : PeerData} {dataItems : List DataItem}
    (hpdp : st.peerPdp = some pdp)
      (hrevises : input.revises ctx dataItems)
        (hadmits : ctx.Admits st.peerPdp pdp.items.ipDataItems dataItems)
    : Move ctx input st (st.setPdp (pdp.updateDataItems ctx.cfg dataItems).2)

namespace Session

def Reaches (ctx : Context) (input : Input) (s s' : Session) : Prop :=
  Relation.ReflTransGen (Standing.Move ctx input) s.standing s'.standing

namespace Reaches

variable {ctx : Context} {input : Input} {s s' s'' : Session}

theorem refl (s : Session) : Reaches ctx input s s := by
  exact Relation.ReflTransGen.refl

theorem trans (h : Reaches ctx input s s') (h' : Reaches ctx input s' s'') : Reaches ctx input s s'' := by
  exact Relation.ReflTransGen.trans h h'

theorem move (h : Standing.Move ctx input s.standing s'.standing) : Reaches ctx input s s' := by
  exact .single h

theorem of_eq (h : s'.standing = s.standing) : Reaches ctx input s s' := by
  unfold Reaches
  rw [h]

end Reaches

theorem ensures_of_any {α β : Type} {x : Except Fault α} {f : α → Except Fault β} {post : β → Prop}
    (hf : ∀ a, x = .ok a → Ensures (f a) post (fun _ => True))
    : Ensures (x >>= f) post (fun _ => True) := by
  exact Ensures.bind_of_fail (fun _ _ => trivial) hf

variable (ctx : Context) (input : Input) (s : Session)

@[simp]
theorem standing_setPending (pending : SortedMap DlepMac (List ResponsePending))
    : (s.setPending pending).standing = s.standing := by
  rfl

@[simp]
theorem standing_sendHead (destination : DlepMac)
    : (s.sendHead ctx destination).standing = s.standing := by
  unfold sendHead
  split
  . rfl
  . split
    . rfl
    . rfl

@[simp]
theorem standing_enqueue (rp : ResponsePending) : (s.enqueue ctx rp).standing = s.standing := by
  unfold enqueue
  simp only
  split
  . simp
  . simp

@[simp]
theorem standing_popPending (destination : DlepMac) (rest : List ResponsePending)
    : (s.popPending ctx destination rest).standing = s.standing := by
  unfold popPending
  split
  . simp
  . simp

theorem standing_sendMessageExpectingResponse (message : Outgoing)
    : Ensures (s.sendMessageExpectingResponse ctx message) (fun s' => s'.standing = s.standing)
        (fun _ => True) := by
  unfold sendMessageExpectingResponse
  split
  . trivial
  . apply Ensures.ok
    split
    . rfl
    . simp

theorem standing_setStateTerminating : (s.setStateTerminating ctx).standing = s.standing.stop := by
  unfold setStateTerminating
  split
  . next hterminating => simp [standing, Standing.stop, hterminating]
  . split
    . rfl
    . rfl

theorem standing_stopPeer : (s.stopPeer ctx).standing = s.standing.stop := by
  exact s.standing_setStateTerminating ctx

theorem standing_terminate (status : StatusName)
    : Ensures (s.terminate ctx status)
        (fun s' => s'.standing =
          if s.peer.pstate = .terminating then s.standing else s.standing.terminate)
        (fun _ => True) := by
  unfold terminate
  split
  . exact .ok rfl
  . apply (standing_sendMessageExpectingResponse ctx _ _).bind
    intro s' hs'
    rw [standing_stopPeer] at hs'
    have hremove : s'.removePeer.standing
        = { s'.standing with infoBase := s'.standing.infoBase.erase s'.standing.peerId } := rfl
    apply Ensures.ok
    rw [hremove, hs']
    rfl

end Session
end Dlep
end Emane

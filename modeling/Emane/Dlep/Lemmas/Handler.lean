import Emane.Dlep.Impl.Handler
import Emane.Dlep.Lemmas.Peer

/-!
This module contains how the handlers of messages let a session evolve, and which of them need the
data of which peers.
-/

namespace Emane
namespace Dlep

namespace MessageName

def bringsUp : MessageName → Bool
  | sessionInitialization | sessionInitializationResponse => true
  | _ => false

def addsData (modem : Bool) : MessageName → Bool
  | sessionInitialization | sessionInitializationResponse | sessionUpdate => true
  | destinationUp | destinationAnnounce | destinationUpdate | linkCharacteristicsResponse => true
  | destinationUpResponse | destinationAnnounceResponse => !modem
  | _ => false

def usesPeerData (modem : Bool) : MessageName → Bool
  | sessionUpdate | destinationUp | destinationAnnounce | destinationUpdate | destinationDown => true
  | linkCharacteristicsResponse => true
  | destinationUpResponse | destinationAnnounceResponse => !modem
  | _ => false

def validatesAddresses (modem : Bool) : MessageName → Bool
  | sessionInitialization | sessionUpdate | destinationUpdate => true
  | destinationUp | destinationUpResponse | destinationAnnounceResponse => !modem
  | _ => false

end MessageName

theorem optional_eq_some {α : Type} {x : Except Fault α} {a : α} (h : optional x = .ok (some a))
    : x = .ok a := by
  unfold optional at h
  split at h
  . cases h
    rfl
  . cases h
  . cases h

theorem optional_eq_none {α : Type} {x : Except Fault α} (h : optional x = .ok none)
    : ∃ name, x = .error (.dataItemNotPresent name) := by
  unfold optional at h
  split at h
  . cases h
  . next name => exact ⟨name, rfl⟩
  . cases h

def ProtocolMessage.statusTerminates (cfg : SessionConfig) (pm : ProtocolMessage) : Bool :=
  match pm.getStatus cfg with
  | .ok info => info.failureModeTerminate
  | .error _ => false

def AsksPeers (cfg : SessionConfig) (localPdp : PeerData) (dataItems : List DataItem) : Prop :=
  ∃ ndi ∈ dataItems, cfg.isIpaddr ndi.id ∧ ndi.isAdd ∧ localPdp.findIpDataItem ndi = none

instance (cfg : SessionConfig) (localPdp : PeerData) (dataItems : List DataItem)
    : Decidable (AsksPeers cfg localPdp dataItems) :=
  inferInstanceAs (Decidable (∃ ndi ∈ dataItems, _))

def Context.Unready (ctx : Context) (s : Session) : Prop :=
  ∃ e ∈ ctx.peers, (if e.1 = ctx.self then s.peer else e.2).peerPdp = none

theorem Context.Unready.of_evolves {ctx : Context} {news : Nat → Prop} {up add : Prop} {s s' : Session}
    (h : Evolves news up add s s') (hunready : ctx.Unready s')
    : ctx.Unready s := by
  obtain ⟨e, he, hnone⟩ := hunready
  refine ⟨e, he, ?_⟩
  split
  . next heq =>
    rw [if_pos heq] at hnone
    by_contra hsome
    exact h.peerPdp hsome hnone
  . next hne =>
    rw [if_neg hne] at hnone
    exact hnone

namespace Session

variable (ctx : Context) {news : Nat → Prop} {up add : Prop} (s : Session)

theorem findIpOwner_ensures (di : DataItem) (peers : List (Nat × Peer))
    : Ensures (findIpOwner ctx di s peers) (fun _ => True)
        (NullIf (∃ e ∈ peers, (if e.1 = ctx.self then s.peer else e.2).peerPdp = none)) := by
  induction peers with
  | nil => trivial
  | cons e peers ih =>
    unfold findIpOwner
    split
    . next heq => exact .error (fun _ => ⟨e, List.mem_cons_self, heq⟩)
    . split
      . trivial
      . apply ih.mono (fun _ htrue => htrue)
        apply NullIf.mono
        rintro ⟨e', he', hnone⟩
        exact ⟨e', List.mem_cons_of_mem _ he', hnone⟩

theorem validateIpDataItems_ensures (existing dataItems : List DataItem)
    : Ensures (validateIpDataItems ctx existing s dataItems) (fun _ => True)
        (NullIf (AsksPeers ctx.cfg ctx.localPdp dataItems ∧ ctx.Unready s)) := by
  induction dataItems with
  | nil => trivial
  | cons ndi dataItems ih =>
    have hrest : Ensures (validateIpDataItems ctx existing s dataItems) (fun _ => True)
        (NullIf (AsksPeers ctx.cfg ctx.localPdp (ndi :: dataItems) ∧ ctx.Unready s)) := by
      apply ih.mono (fun _ htrue => htrue)
      apply NullIf.mono
      rintro ⟨⟨ndi', hmem, hndi'⟩, hunready⟩
      exact ⟨⟨ndi', List.mem_cons_of_mem _ hmem, hndi'⟩, hunready⟩
    have hone : ctx.cfg.isIpaddr ndi.id →
        Ensures (validateIpDataItem ctx existing s ndi) (fun _ => True)
          (NullIf (AsksPeers ctx.cfg ctx.localPdp (ndi :: dataItems) ∧ ctx.Unready s)) := by
      intro hipaddr
      unfold validateIpDataItem
      split
      . next hadd =>
        split
        . trivial
        . next hlocal =>
          apply (s.findIpOwner_ensures ctx ndi ctx.peers).map (fun _ htrue => htrue) |>.mono
            (fun _ htrue => htrue)
          apply NullIf.mono
          intro hunready
          exact ⟨⟨ndi, List.mem_cons_self, hipaddr, hadd, hlocal⟩, hunready⟩
      . split
        . trivial
        . trivial
    unfold validateIpDataItems
    split
    . next hipaddr =>
      split
      . next fault heq => exact (hone hipaddr).of_error heq
      . trivial
      . exact hrest
    . exact hrest

theorem validate_then {s : Session} {existing dataItems : List DataItem}
    {f : Option IpConflict → Except Fault Session}
    {post : Session → Prop} {r : Prop} (hr : AsksPeers ctx.cfg ctx.localPdp dataItems ∧ ctx.Unready s → r)
    (hf : ∀ conflict, validateIpDataItems ctx existing s dataItems = .ok conflict
      → Ensures (f conflict) post (NullIf r))
    : Ensures (validateIpDataItems ctx existing s dataItems >>= f) post (NullIf r) := by
  refine Ensures.bind_of_fail ?_ hf
  exact fun _ hfault => NullIf.mono hr _
    ((s.validateIpDataItems_ensures ctx existing dataItems).of_error hfault)

theorem mem_of_mem_getDataItemsNoMac {pm : ProtocolMessage} {dataItems : List DataItem}
    (h : pm.getDataItemsNoMac ctx.cfg = .ok dataItems) {di : DataItem} (hmem : di ∈ dataItems)
    : di ∈ pm.dataItems := by
  unfold ProtocolMessage.getDataItemsNoMac at h
  cases hid : ctx.cfg.getDataItemId .macAddress with
  | error fault =>
    rw [hid] at h
    cases h
  | ok id =>
    rw [hid] at h
    cases h
    exact List.mem_of_mem_filter hmem

def Unhandled (pm : ProtocolMessage) : Prop :=
  (pm.name.usesPeerData ctx.cfg.modem ∧ s.peer.peerPdp = none)
    ∨ (pm.name.validatesAddresses ctx.cfg.modem ∧ AsksPeers ctx.cfg ctx.localPdp pm.dataItems
      ∧ ctx.Unready s)

def handled (cfg : SessionConfig) : Option ProtocolMessage → Option ProtocolMessage
  | some pm => if cfg.allowsSender pm.name (!cfg.modem) then some pm else none
  | none => none

end Session
end Dlep
end Emane

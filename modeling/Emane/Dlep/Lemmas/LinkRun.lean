import Emane.Dlep.Lemmas.Link
import Emane.Dlep.Lemmas.Validate

/-!
This module contains runs of a modem and a router that are in session with each other: as long as
nothing is sent too early, neither of them ends the session.
-/

namespace Emane
namespace Dlep

structure Node.OnePeer (d : Node) (p : Peer) : Prop where
  objects : d.objects = [p]
  numbers : d.peers.toList.map (fun e => e.2) = [0]
  calls : d.calls = []

namespace Node.OnePeer

variable {d : Node} {p : Peer} (h : d.OnePeer p) (cfg : SessionConfig) (env : Env)

include h

theorem withSession_eq (f : Context → Session → Except Fault Session)
    : Node.withSession cfg env f d 0
        = (f (d.context cfg env 0) (d.session p)).map (fun s => d.close 0 s) := by
  have hobject : d.objects[0]? = some p := by
    rw [h.objects]
    rfl
  unfold Node.withSession
  rw [hobject]

theorem forPeers_eq (f : Context → Session → Except Fault Session)
    : Node.forPeers cfg env f d = (f (d.context cfg env 0) (d.session p)).map (fun s => d.close 0 s) := by
  unfold Node.forPeers
  rw [h.numbers, List.foldlM_cons, h.withSession_eq cfg env f]
  cases f (d.context cfg env 0) (d.session p) with
  | error fault => rfl
  | ok s => rfl

theorem close (s : Session) : ({ d.close 0 s with calls := [] } : Node).OnePeer s.peer := by
  constructor
  . change d.objects.set 0 s.peer = [s.peer]
    rw [h.objects]
    rfl
  . exact h.numbers
  . rfl

theorem ready {s : Session} (hpdp : s.peer.peerPdp ≠ none)
    : ∀ e ∈ (d.context cfg env 0).peers,
        (if e.1 = (d.context cfg env 0).self then s.peer else e.2).peerPdp ≠ none := by
  intro e he
  change e ∈ d.peerList at he
  unfold Node.peerList at he
  rw [List.mem_filterMap] at he
  obtain ⟨entry, hentry, he⟩ := he
  rw [Option.map_eq_some_iff] at he
  obtain ⟨peer, _, rfl⟩ := he
  have hzero : entry.2 ∈ d.peers.toList.map (fun e => e.2) := List.mem_map_of_mem hentry
  rw [h.numbers, List.mem_singleton] at hzero
  change (if entry.2 = 0 then s.peer else peer).peerPdp ≠ none
  rw [if_pos hzero]
  exact hpdp

end Node.OnePeer

namespace Link

def forMac (mac : DlepMac) (msgs : List Outgoing) : List Outgoing :=
  withKey Outgoing.mac (some mac) msgs

theorem forMac_append (mac : DlepMac) (msgs msgs' : List Outgoing)
    : forMac mac (msgs ++ msgs') = forMac mac msgs ++ forMac mac msgs' := by
  exact withKey_append _ _ msgs msgs'

theorem forMac_of_forall {mac : DlepMac} {msgs : List Outgoing} (h : ∀ m ∈ msgs, m.mac = some mac)
    : forMac mac msgs = msgs := by
  unfold forMac withKey
  rw [List.filter_eq_self]
  intro m hm
  simp [h m hm]

theorem forMac_of_ne {mac mac' : DlepMac} {msgs : List Outgoing} (h : ∀ m ∈ msgs, m.mac = some mac)
    (hne : mac' ≠ mac)
    : forMac mac' msgs = [] := by
  apply withKey_eq_nil
  intro m hm heq
  rw [h m hm, Option.some.injEq] at heq
  exact hne heq.symm

structure Agrees (protocol : Protocol) (link : Link) (p q : Peer) (pdp : PeerData) : Prop where
  modem : link.modem.OnePeer p
  router : link.router.OnePeer q
  modemState : p.pstate = .inSession
  routerState : q.pstate = .inSession
  owes : ∃ mpdp, p.peerPdp = some mpdp ∧ ∀ mac, mpdp.needsResponse mac = none
  interested : p.notInterestedDestinations = []
  table : q.peerPdp = some pdp
  quiet : q.responsesPending = .empty
  outgoing : ∀ m ∈ link.toRouter, ∃ mac, m.mac = some mac
  incoming : ∀ m ∈ link.toModem, ∃ mac, m.mac = some mac
  phase : ∀ mac, Phase protocol mac (pdp.validDestination mac) (link.modem.localPdp.validDestination mac)
    (StopAndWait.queue p.responsesPending mac) (forMac mac link.toRouter) (forMac mac link.toModem)

section

variable {protocol : Protocol} {link : Link} {p q : Peer} {pdp : PeerData}

variable {d : Node} {s : Session}

theorem Agrees.moveModem (h : Agrees protocol link p q pdp) (hd : d.OnePeer p)
    (hstate : s.peer.pstate = .inSession) (hpdp : s.peer.peerPdp = p.peerPdp)
    (hinterested : s.peer.notInterestedDestinations = [])
    (mac : DlepMac) (toModem : List Outgoing) (hmsgs : ∀ m ∈ sends s.calls, m.mac = some mac)
    (hincoming : ∀ m ∈ toModem, ∃ mac, m.mac = some mac)
    (hother : ∀ mac', mac' ≠ mac →
      d.localPdp.validDestination mac' = link.modem.localPdp.validDestination mac'
        ∧ StopAndWait.queue s.peer.responsesPending mac' = StopAndWait.queue p.responsesPending mac'
        ∧ forMac mac' toModem = forMac mac' link.toModem)
    (hphase : Phase protocol mac (pdp.validDestination mac) (d.localPdp.validDestination mac)
      (StopAndWait.queue s.peer.responsesPending mac) (forMac mac link.toRouter ++ sends s.calls)
        (forMac mac toModem))
    : Agrees protocol ({ link with toModem := toModem }.setModem (d.close 0 s)) s.peer q pdp := by
  constructor
  . exact hd.close s
  . exact h.router
  . exact hstate
  . exact h.routerState
  . rw [hpdp]
    exact h.owes
  . exact hinterested
  . exact h.table
  . exact h.quiet
  . intro m hm
    change m ∈ link.toRouter ++ sends s.calls at hm
    rw [List.mem_append] at hm
    rcases hm with hm | hm
    . exact h.outgoing m hm
    . exact ⟨mac, hmsgs m hm⟩
  . exact hincoming
  . intro mac'
    change Phase protocol mac' _ (d.localPdp.validDestination mac')
      (StopAndWait.queue s.peer.responsesPending mac')
      (forMac mac' (link.toRouter ++ sends s.calls)) (forMac mac' toModem)
    rw [forMac_append]
    by_cases heq : mac' = mac
    . rw [heq, forMac_of_forall hmsgs]
      exact hphase
    . obtain ⟨hlocal, hqueue, hback⟩ := hother mac' heq
      rw [forMac_of_ne hmsgs heq, List.append_nil, hlocal, hqueue, hback]
      exact h.phase mac'

theorem Agrees.moveRouter (h : Agrees protocol link p q pdp) {pdp' : PeerData}
    (hstate : s.peer.pstate = .inSession)
    (hquiet : s.peer.responsesPending = .empty) (hpdp : s.peer.peerPdp = some pdp') (mac : DlepMac)
    (toRouter : List Outgoing)
    (hmsgs : ∀ m ∈ sends s.calls, m.mac = some mac) (houtgoing : ∀ m ∈ toRouter, ∃ mac, m.mac = some mac)
    (hother : ∀ mac', mac' ≠ mac →
      pdp'.validDestination mac' = pdp.validDestination mac'
        ∧ forMac mac' toRouter = forMac mac' link.toRouter)
    (hphase : Phase protocol mac (pdp'.validDestination mac) (link.modem.localPdp.validDestination mac)
      (StopAndWait.queue p.responsesPending mac) (forMac mac toRouter)
        (forMac mac link.toModem ++ sends s.calls))
    : Agrees protocol ({ link with toRouter := toRouter }.setRouter (link.router.close 0 s)) p
        s.peer pdp' := by
  constructor
  . exact h.modem
  . exact h.router.close s
  . exact h.modemState
  . exact hstate
  . exact h.owes
  . exact h.interested
  . exact hpdp
  . exact hquiet
  . exact houtgoing
  . intro m hm
    change m ∈ link.toModem ++ sends s.calls at hm
    rw [List.mem_append] at hm
    rcases hm with hm | hm
    . exact h.incoming m hm
    . exact ⟨mac, hmsgs m hm⟩
  . intro mac'
    change Phase protocol mac' (pdp'.validDestination mac') (link.modem.localPdp.validDestination mac')
      (StopAndWait.queue p.responsesPending mac') (forMac mac' toRouter)
        (forMac mac' (link.toModem ++ sends s.calls))
    rw [forMac_append]
    by_cases heq : mac' = mac
    . rw [heq, forMac_of_forall hmsgs]
      exact hphase
    . obtain ⟨hheld, hout⟩ := hother mac' heq
      rw [forMac_of_ne hmsgs heq, List.append_nil, hheld, hout]
      exact h.phase mac'

theorem setModem_self (h : Agrees protocol link p q pdp) : link.setModem link.modem = link := by
  have hcalls := h.modem.calls
  obtain ⟨⟨objects, peers, localPdp, infoBase, calls⟩, router, toRouter, toModem⟩ := link
  subst hcalls
  unfold setModem
  simp [sends]

theorem setRouter_self (h : Agrees protocol link p q pdp) : link.setRouter link.router = link := by
  have hcalls := h.router.calls
  obtain ⟨modem, ⟨objects, peers, localPdp, infoBase, calls⟩, toRouter, toModem⟩ := link
  subst hcalls
  unfold setRouter
  simp [sends]

theorem sends_map_send (msgs : List Outgoing) : sends (msgs.map .send) = msgs := by
  unfold sends
  rw [List.filterMap_map]
  exact List.filterMap_some

variable {mac : DlepMac}

theorem Agrees.push (h : Agrees protocol link p q pdp) (env : Env) {here : Bool}
    (hhere : link.modem.localPdp.validDestination mac = here) (hd : d.OnePeer p)
    (hlocal : d.localPdp.validDestination mac = !here)
    (hothers : ∀ mac', mac' ≠ mac
      → d.localPdp.validDestination mac' = link.modem.localPdp.validDestination mac')
    {rp : ResponsePending} (hrp : Queued protocol mac (!here) rp)
    : ∃ p', Agrees protocol (link.setModem
        (d.close 0 ((d.session p).enqueue (d.context protocol.modem env 0) rp))) p' q pdp := by
  obtain ⟨pending, hsession, hqueue, hqueues⟩ :=
    @enqueue_spec (d.context protocol.modem env 0) (d.session p) h.interested rp
  generalize (d.session p).enqueue (d.context protocol.modem env 0) rp = s at hsession
  have hpeer : s.peer = { p with responsesPending := pending } := by
    rw [hsession]
    rfl
  have hsends : sends s.calls = pushedMessages rp (StopAndWait.queue p.responsesPending mac) := by
    rw [hsession]
    change sends (d.calls
      ++ (pushedMessages rp (StopAndWait.queue p.responsesPending rp.destination)).map .send) = _
    rw [hd.calls, List.nil_append, sends_map_send, hrp.destination]
  rw [hrp.destination] at hqueue hqueues
  refine ⟨s.peer, h.moveModem hd ?_ ?_ ?_ mac link.toModem ?_ h.incoming ?_ ?_⟩
  . rw [hpeer]
    exact h.modemState
  . rw [hpeer]
  . rw [hpeer]
    exact h.interested
  . intro m hm
    rw [hsends] at hm
    unfold pushedMessages at hm
    split at hm
    . rw [List.mem_singleton] at hm
      rw [hm]
      exact hrp.request.mac
    . cases hm
  . intro mac' hne
    rw [hpeer]
    exact ⟨hothers mac' hne, hqueues mac' hne, rfl⟩
  . rw [hpeer, hsends, hlocal]
    change Phase protocol mac _ _ (StopAndWait.queue pending mac) _ _
    rw [hqueue]
    have hphase := h.phase mac
    rw [hhere] at hphase
    exact hphase.push hrp env.now

theorem Agrees.addDestination (h : Agrees protocol link p q pdp) (env : Env) {dataItems : List DataItem}
    (hrequest : Request protocol mac .destinationUp ⟨.destinationUp, some mac, none, dataItems⟩)
    (hreply : Reply protocol mac .destinationUpResponse (success .destinationUpResponse mac))
    : ∃ link' p', handle protocol link env (.addDestination mac dataItems) = .ok link'
        ∧ Agrees protocol link' p' q pdp := by
  unfold handle Node.addDestination
  simp only
  cases hadd : link.modem.localPdp.addDestination protocol.modem mac dataItems with
  | none =>
    refine ⟨link, p, ?_, h⟩
    simp only [Except.mapError, Except.map]
    rw [setModem_self h]
  | some localPdp =>
    obtain ⟨hfalse, hvalid⟩ := PeerData.validDestination_addDestination hadd
    have hd : ({ link.modem with localPdp := localPdp } : Node).OnePeer p :=
      ⟨h.modem.objects, h.modem.numbers, h.modem.calls⟩
    obtain ⟨mpdp, hmpdp, hneeds⟩ := h.owes
    simp only
    rw [hd.forPeers_eq]
    rw [destinationUp_eq _ (show _ = protocol.modem from rfl) hmpdp (hneeds mac) h.interested hrequest]
    have hqueued : Queued protocol mac (!false)
        ⟨.destinationUpResponse, mac, ⟨.destinationUp, some mac, none, dataItems⟩, 0, 0⟩ :=
      ⟨hrequest, rfl, rfl, hreply⟩
    obtain ⟨p', hagrees⟩ := h.push env hfalse hd (by simp [hvalid])
      (fun mac' hne => by simp [hvalid, hne]) hqueued
    exact ⟨_, p', rfl, hagrees⟩

theorem Agrees.removeDestination (h : Agrees protocol link p q pdp) (env : Env)
    (hrequest : Request protocol mac .destinationDown ⟨.destinationDown, some mac, none, []⟩)
    (hreply : Reply protocol mac .destinationDownResponse (success .destinationDownResponse mac))
    : ∃ link' p', handle protocol link env (.removeDestination mac) = .ok link'
        ∧ Agrees protocol link' p' q pdp := by
  unfold handle Node.removeDestination
  simp only
  cases hremove : link.modem.localPdp.removeDestination mac with
  | none =>
    refine ⟨link, p, ?_, h⟩
    simp only [Except.mapError, Except.map]
    rw [setModem_self h]
  | some localPdp =>
    obtain ⟨htrue, hvalid⟩ := PeerData.validDestination_removeDestination hremove
    have hd : ({ link.modem with localPdp := localPdp } : Node).OnePeer p :=
      ⟨h.modem.objects, h.modem.numbers, h.modem.calls⟩
    simp only
    rw [hd.forPeers_eq]
    rw [destinationDown_eq _ (show _ = protocol.modem from rfl) h.interested hrequest]
    have hqueued : Queued protocol mac (!true)
        ⟨.destinationDownResponse, mac, ⟨.destinationDown, some mac, none, []⟩, 0, 0⟩ :=
      ⟨hrequest, rfl, rfl, hreply⟩
    obtain ⟨p', hagrees⟩ := h.push env htrue hd (by simp [hvalid])
      (fun mac' hne => by simp [hvalid, hne]) hqueued
    exact ⟨_, p', rfl, hagrees⟩

theorem Agrees.updateDestination (h : Agrees protocol link p q pdp) (env : Env) {updates : List DataItem}
    (hrequest : Request protocol mac .destinationUpdate ⟨.destinationUpdate, some mac, none, updates⟩)
    (hhead : ∀ rp ∈ (StopAndWait.queue p.responsesPending mac).head?, rp.message.name ≠ .destinationDown)
    : ∃ link' p', handle protocol link env (.updateDestination mac updates) = .ok link'
        ∧ Agrees protocol link' p' q pdp := by
  unfold handle Node.updateDestination
  simp only
  cases hupdate : link.modem.localPdp.updateDestination protocol.modem mac updates with
  | none =>
    refine ⟨link, p, ?_, h⟩
    simp only [Except.mapError, Except.map]
    rw [setModem_self h]
  | some localPdp =>
    obtain ⟨htrue, hvalid⟩ := PeerData.validDestination_updateDestination hupdate
    have hd : ({ link.modem with localPdp := localPdp } : Node).OnePeer p :=
      ⟨h.modem.objects, h.modem.numbers, h.modem.calls⟩
    have hsession : (({ link.modem with localPdp := localPdp } : Node).session p).destinationUpdate
        (({ link.modem with localPdp := localPdp } : Node).context protocol.modem env 0) mac updates
        = .ok ((({ link.modem with localPdp := localPdp } : Node).session p).call
            (.send ⟨.destinationUpdate, some mac, none, updates⟩)) := by
      obtain ⟨pm, hpm⟩ := hrequest.reads
      have hinterested : (({ link.modem with localPdp := localPdp } : Node).session
        p).peer.notInterestedDestinations = [] := h.interested
      have hcreate : Outgoing.create
        (({ link.modem with localPdp := localPdp } : Node).context protocol.modem env 0).cfg
          .destinationUpdate (some mac) updates none = .ok
            ⟨.destinationUpdate, some mac, none, updates⟩ := hpm.build
      unfold Session.destinationUpdate Session.isNotInterested
      rw [hinterested, hcreate]
      rfl
    have hsends : sends ((({ link.modem with localPdp := localPdp } : Node).session p).call
        (.send ⟨.destinationUpdate, some mac, none, updates⟩)).calls
            = [⟨.destinationUpdate, some mac, none, updates⟩] := by
      change sends (link.modem.calls ++ [.send _]) = _
      rw [h.modem.calls]
      rfl
    simp only
    rw [hd.forPeers_eq, hsession]
    refine ⟨_, p, rfl, h.moveModem hd h.modemState rfl h.interested mac link.toModem ?_ h.incoming ?_ ?_⟩
    . intro m hm
      rw [hsends, List.mem_singleton] at hm
      rw [hm]
    . intro mac' _
      exact ⟨hvalid mac', rfl, rfl⟩
    . rw [hsends]
      change Phase protocol mac _ (localPdp.validDestination mac)
        (StopAndWait.queue p.responsesPending mac) _ _
      have hphase := h.phase mac
      rw [hvalid, htrue]
      rw [htrue] at hphase
      exact hphase.update hrequest hhead

variable {m : Outgoing}

theorem forMac_cons (hmac : m.mac = some mac) (msgs : List Outgoing)
    : forMac mac (m :: msgs) = m :: forMac mac msgs := by
  unfold forMac
  rw [withKey_cons, if_pos hmac]

theorem forMac_cons_of_ne {mac' : DlepMac} (hmac : m.mac = some mac) (hne : mac' ≠ mac)
    (msgs : List Outgoing)
    : forMac mac' (m :: msgs) = forMac mac' msgs := by
  unfold forMac
  rw [withKey_cons, if_neg]
  rw [hmac, Option.some.injEq]
  exact hne.symm

theorem Agrees.deliverToModem (h : Agrees protocol link p q pdp) (env : Env)
    : ∃ link' p', handle protocol link env .deliverToModem = .ok link'
        ∧ Agrees protocol link' p' q pdp := by
  unfold handle
  cases htoModem : link.toModem with
  | nil => exact ⟨link, p, rfl, h⟩
  | cons m toModem =>
    obtain ⟨mac, hmac⟩ := h.incoming m (by simp [htoModem])
    have hphase := h.phase mac
    rw [htoModem, forMac_cons hmac] at hphase
    obtain ⟨rp, rest, up, hqueue, hname, hreply, hback, hmessages, hnext⟩ := hphase.answer env.now
    rw [hname] at hreply
    obtain ⟨pm, hpm⟩ := hreply.reads
    generalize hs : Session.popPending (link.modem.context protocol.modem env 0) mac rest
      { link.modem.session p with peer := { p with lastReceiveTime := env.now } } = s
    have hsignal : Node.receive protocol.modem env (some pm) link.modem 0
        = .ok (link.modem.close 0 s) := by
      unfold Node.receive
      rw [h.modem.withSession_eq]
      rw [← hs]
      change Except.map _ (Session.handlePeerSignal (link.modem.context protocol.modem env 0) (some pm)
        { link.modem.session p with peer := { p with lastReceiveTime := env.now } }) = _
      rw [handlePeerSignal_reply (link.modem.context protocol.modem env 0)
        (show _ = protocol.modem from rfl) hpm
        (StopAndWait.find?_of_queue hqueue) hname]
      rfl
    obtain ⟨pending, hsession, hpopped, hqueues⟩ :=
      @popPending_spec (link.modem.context protocol.modem env 0)
        { link.modem.session p with peer := { p with lastReceiveTime := env.now } } h.interested mac rest
    rw [hs] at hsession
    have hpeer : s.peer = { p with lastReceiveTime := env.now, responsesPending := pending } := by
      rw [hsession]
    have hsends : sends s.calls = poppedMessages rest := by
      rw [hsession]
      change sends (link.modem.calls ++ (poppedMessages rest).map .send) = _
      rw [h.modem.calls, List.nil_append, sends_map_send]
    simp only [hpm.received, bind, Except.bind, hsignal, Except.mapError]
    refine ⟨_, s.peer, rfl, h.moveModem h.modem ?_ ?_ ?_ mac toModem ?_ ?_ ?_ ?_⟩
    . rw [hpeer]
      exact h.modemState
    . rw [hpeer]
    . rw [hpeer]
      exact h.interested
    . rw [hsends]
      exact hmessages
    . intro m' hm'
      exact h.incoming m' (by simp [htoModem, hm'])
    . intro mac' hne
      rw [hpeer]
      refine ⟨rfl, hqueues mac' hne, ?_⟩
      rw [htoModem, forMac_cons_of_ne hmac hne]
    . rw [hpeer, hsends, hback]
      change Phase protocol mac _ _ (StopAndWait.queue pending mac) _ _
      rw [hpopped]
      exact hnext

theorem Agrees.told (h : Agrees protocol link p q pdp) {now : Nat} (hmac : m.mac = some mac)
    {toRouter : List Outgoing} (htoRouter : link.toRouter = m :: toRouter) {held : Bool}
    {response : Option MessageName}
    (htold : Told protocol mac held response pdp
      { link.router.session q with peer := { q with lastReceiveTime := now } } s)
    (hphase : ∀ msgs, Replies protocol mac response msgs →
      Phase protocol mac held (link.modem.localPdp.validDestination mac)
        (StopAndWait.queue p.responsesPending mac)
        (forMac mac toRouter) (forMac mac link.toModem ++ msgs))
    : ∃ q' pdp', Agrees protocol
        ({ link with toRouter := toRouter }.setRouter (link.router.close 0 s)) p q' pdp' := by
  obtain ⟨pdp', hpdp', hheld, hothers⟩ := htold.pdp
  obtain ⟨calls, hcalls, hsends⟩ := htold.calls
  have hall : sends s.calls = sends calls := by
    rw [hcalls]
    change sends (link.router.calls ++ calls) = _
    rw [h.router.calls, List.nil_append]
  refine ⟨s.peer, pdp', h.moveRouter ?_ ?_ hpdp' mac toRouter ?_ ?_ ?_ ?_⟩
  . rw [htold.pstate]
    exact h.routerState
  . rw [htold.pending]
    exact h.quiet
  . intro m' hm'
    rw [hall] at hm'
    rcases hsends with hnone | ⟨name, reply, _, hone, hreply⟩
    . rw [hnone] at hm'
      cases hm'
    . rw [hone, List.mem_singleton] at hm'
      rw [hm']
      exact hreply.mac
  . intro m' hm'
    exact h.outgoing m' (by simp [htoRouter, hm'])
  . intro mac' hne
    refine ⟨hothers mac' hne, ?_⟩
    rw [htoRouter, forMac_cons_of_ne hmac hne]
  . rw [hheld, hall]
    exact hphase _ hsends

theorem Agrees.deliverToRouter (h : Agrees protocol link p q pdp) (env : Env)
    : ∃ link' q' pdp', handle protocol link env .deliverToRouter = .ok link'
        ∧ Agrees protocol link' p q' pdp' := by
  unfold handle
  cases htoRouter : link.toRouter with
  | nil => exact ⟨link, q, pdp, rfl, h⟩
  | cons m toRouter =>
    obtain ⟨mac, hmac⟩ := h.outgoing m (by simp [htoRouter])
    generalize henv : ({ env with clientStatus := .success } : Env) = env'
    have hclient : env'.clientStatus = .success := by rw [← henv]
    generalize hsession : ({ link.router.session q with peer :=
      { q with lastReceiveTime := env'.now } } : Session) = s
    have hpdp : s.peer.peerPdp = some pdp := by
      rw [← hsession]
      exact h.table
    have hready := h.router.ready protocol.router env' (s := s) (by simp [hpdp])
    have hreceive : ∀ pm, Node.receive protocol.router env' (some pm) link.router 0
        = (Session.handlePeerSignal (link.router.context protocol.router env' 0) (some pm) s).map
            (fun s => link.router.close 0 s) := by
      intro pm
      rw [← hsession]
      exact h.router.withSession_eq protocol.router env' _
    have hcfg : (link.router.context protocol.router env' 0).cfg = protocol.router := rfl
    have hphase := h.phase mac
    rw [htoRouter, forMac_cons hmac] at hphase
    rcases hphase.deliver with ⟨hrequest, hheld, hnext⟩ | ⟨hrequest, hback, hreply, hnone, hone⟩
    . -- an update changes the data of a destination that is there
      obtain ⟨pm, hpm⟩ := hrequest.reads
      obtain ⟨s', hhandle, htold⟩ := handleDestinationUpdate_router _ hcfg hpm hpdp hheld hready
      have hsignal := hreceive pm
      rw [handlePeerSignal_request _ hcfg s hpm protocol.update_sender (by simp) (by simp)] at hsignal
      unfold Session.dispatch at hsignal
      simp only [hpm.name, hhandle] at hsignal
      simp only [hpm.received, bind, Except.bind, hsignal, Except.map, Except.mapError]
      rw [← hsession] at htold
      obtain ⟨q', pdp', hagrees⟩ := h.told hmac htoRouter htold (by
        rintro msgs (rfl | ⟨name, reply, hcontra, _⟩)
        . rw [List.append_nil, ← hheld]
          exact hnext
        . cases hcontra)
      exact ⟨_, q', pdp', rfl, hagrees⟩
    . have hreplies : ∀ msgs, Replies protocol mac
        (some (responseName (!pdp.validDestination mac))) msgs →
          Phase protocol mac (!pdp.validDestination mac) (link.modem.localPdp.validDestination mac)
            (StopAndWait.queue p.responsesPending mac) (forMac mac toRouter)
                (forMac mac link.toModem ++ msgs) := by
        rw [hback]
        rintro msgs (rfl | ⟨name, reply, hname, rfl, hreply⟩)
        . exact hnone
        . cases hname
          exact hone reply hreply
      cases hheld : pdp.validDestination mac with
      | false =>
        rw [hheld] at hrequest hreply hreplies
        obtain ⟨pm, hpm⟩ := hrequest.reads
        obtain ⟨s', hhandle, htold⟩ := handleDestinationUp_router _ hcfg hpm hreply hpdp hheld
          hclient hready
        have hsignal := hreceive pm
        rw [handlePeerSignal_request _ hcfg s hpm protocol.up_sender (by simp [requestName])
          (by simp [requestName])] at hsignal
        unfold Session.dispatch at hsignal
        have hname : pm.name = .destinationUp := hpm.name
        have hmodem : (link.router.context protocol.router env' 0).cfg.modem = false := rfl
        simp only [hname, hmodem, Bool.false_eq_true, ↓reduceIte, hhandle] at hsignal
        simp only [hpm.received, bind, Except.bind, hsignal, Except.map, Except.mapError]
        rw [← hsession] at htold
        obtain ⟨q', pdp', hagrees⟩ := h.told hmac htoRouter htold hreplies
        exact ⟨_, q', pdp', rfl, hagrees⟩
      | true =>
        rw [hheld] at hrequest hreply hreplies
        obtain ⟨pm, hpm⟩ := hrequest.reads
        obtain ⟨s', hhandle, htold⟩ := handleDestinationDown_router _ hcfg hpm hreply hpdp hheld
        have hsignal := hreceive pm
        rw [handlePeerSignal_request _ hcfg s hpm protocol.down_sender (by simp [requestName])
          (by simp [requestName])] at hsignal
        unfold Session.dispatch at hsignal
        have hname : pm.name = .destinationDown := hpm.name
        simp only [hname, hhandle] at hsignal
        simp only [hpm.received, bind, Except.bind, hsignal, Except.map, Except.mapError]
        rw [← hsession] at htold
        obtain ⟨q', pdp', hagrees⟩ := h.told hmac htoRouter htold hreplies
        exact ⟨_, q', pdp', rfl, hagrees⟩

theorem checkForRetransmits_go_eq (ctx : Context)
    (hontime : ∀ destination rp rest, s.peer.responsesPending.find? destination = some (rp :: rest) →
      ¬ rp.sendTime + ctx.cfg.ackTimeout < ctx.env.now) (destinations : List DlepMac)
    : Session.checkForRetransmits.go ctx destinations s = .ok s := by
  induction destinations with
  | nil => rfl
  | cons destination destinations ih =>
    unfold Session.checkForRetransmits.go
    split
    . next rp rest hfind =>
      rw [if_neg (hontime destination rp rest hfind)]
      exact ih
    . exact ih

theorem close_session {p : Peer} (hd : d.OnePeer p) : d.close 0 (d.session p) = d := by
  have hobjects := hd.objects
  obtain ⟨objects, peers, localPdp, infoBase, calls⟩ := d
  subst hobjects
  rfl

theorem Agrees.modemRetransmits (h : Agrees protocol link p q pdp) {env : Env}
    (hontime : ∀ destination rp rest, p.responsesPending.find? destination = some (rp :: rest) →
      ¬ rp.sendTime + protocol.cfg.ackTimeout < env.now)
    : handle protocol link env .modemRetransmits = .ok link := by
  unfold handle
  rw [h.modem.withSession_eq]
  unfold Session.checkForRetransmits
  rw [checkForRetransmits_go_eq (link.modem.context protocol.modem env 0)
    (s := link.modem.session p) hontime]
  simp only [Except.map, Except.mapError]
  rw [close_session h.modem, setModem_self h]

theorem Agrees.routerRetransmits (h : Agrees protocol link p q pdp) (env : Env)
    : handle protocol link env .routerRetransmits = .ok link := by
  have hnone : ∀ destination rp rest, q.responsesPending.find? destination = some (rp :: rest) →
      ¬ rp.sendTime + protocol.cfg.ackTimeout < env.now := by
    intro destination rp rest hfind
    rw [h.quiet] at hfind
    cases hfind
  unfold handle
  rw [h.router.withSession_eq]
  unfold Session.checkForRetransmits
  rw [checkForRetransmits_go_eq (link.router.context protocol.router env 0)
    (s := link.router.session q) hnone]
  simp only [Except.map, Except.mapError]
  rw [close_session h.router, setRouter_self h]

end

def onTime (protocol : Protocol) (now : Nat) (p : Peer) : Bool :=
  p.responsesPending.toList.all
    (fun e => e.2.head?.all (fun rp => !decide (rp.sendTime + protocol.cfg.ackTimeout < now)))

def reads (protocol : Protocol) (modemSender : Bool) (mac : DlepMac) (name : MessageName)
    (status : Option StatusCodeInfo)
    (m : Outgoing) : Bool :=
  match protocol.received modemSender m with
  | .ok (some pm) =>
    pm.name = name && (pm.getMac protocol.cfg).toOption = some mac
      && (optional (pm.getStatus protocol.cfg)).toOption = some status
  | _ => false

def readsRequest (protocol : Protocol) (mac : DlepMac) (name : MessageName)
    (dataItems : List DataItem) : Bool :=
  reads protocol true mac name none ⟨name, some mac, none, dataItems⟩

def readsReply (protocol : Protocol) (mac : DlepMac) (name : MessageName) : Bool :=
  reads protocol false mac name (some ⟨.success, false⟩) (success name mac)

def undisturbed (protocol : Protocol) (link : Link) (env : Env) : Event → Bool
  | .addDestination mac dataItems =>
    readsRequest protocol mac .destinationUp dataItems && readsReply protocol mac .destinationUpResponse
  | .removeDestination mac =>
    readsRequest protocol mac .destinationDown [] && readsReply protocol mac .destinationDownResponse
  | .updateDestination mac updates =>
    readsRequest protocol mac .destinationUpdate updates
      && link.modem.objects.all (fun p => (StopAndWait.queue p.responsesPending mac).head?.all
        (fun rp => rp.message.name ≠ .destinationDown))
  | .modemRetransmits => link.modem.objects.all (fun p => onTime protocol env.now p)
  | _ => true

/--
Both are in session, they have the same destinations, and there is nothing that waits or is on the
way. The router has announced no destinations of its own.
-/
structure Settled (link : Link) (p q : Peer) (pdp : PeerData) : Prop where
  modem : link.modem.OnePeer p
  router : link.router.OnePeer q
  modemState : p.pstate = .inSession
  routerState : q.pstate = .inSession
  owes : ∃ mpdp, p.peerPdp = some mpdp ∧ ∀ mac, mpdp.needsResponse mac = none
  interested : p.notInterestedDestinations = []
  table : q.peerPdp = some pdp
  modemPending : p.responsesPending = .empty
  routerPending : q.responsesPending = .empty
  toRouter : link.toRouter = []
  toModem : link.toModem = []
  same : ∀ mac, pdp.validDestination mac = link.modem.localPdp.validDestination mac

section

variable {protocol : Protocol} {link : Link} {p q : Peer} {pdp : PeerData}

theorem reads_of_reads {modemSender : Bool} {mac : DlepMac} {name : MessageName}
    {status : Option StatusCodeInfo} {m : Outgoing}
    (h : reads protocol modemSender mac name status m = true)
    : ∃ pm, Reads protocol modemSender mac name status m pm := by
  unfold reads at h
  split at h
  . next pm hreceived =>
    simp only [Bool.and_eq_true, decide_eq_true_eq] at h
    obtain ⟨⟨hname, hmac⟩, hstatus⟩ := h
    exact ⟨pm, hreceived, hname, toOption_eq_some_iff.mp hmac, toOption_eq_some_iff.mp hstatus⟩
  . cases h

theorem request_of_reads {mac : DlepMac} {name : MessageName} {dataItems : List DataItem}
    (h : readsRequest protocol mac name dataItems = true)
    : Request protocol mac name ⟨name, some mac, none, dataItems⟩ := by
  exact ⟨reads_of_reads h, rfl, rfl⟩

theorem reply_of_reads {mac : DlepMac} {name : MessageName} (h : readsReply protocol mac name = true)
    : Reply protocol mac name (success name mac) := by
  exact ⟨reads_of_reads h, rfl⟩

theorem Settled.agrees (h : Settled link p q pdp) : Agrees protocol link p q pdp := by
  constructor
  . exact h.modem
  . exact h.router
  . exact h.modemState
  . exact h.routerState
  . exact h.owes
  . exact h.interested
  . exact h.table
  . exact h.routerPending
  . simp [h.toRouter]
  . simp [h.toModem]
  . intro mac
    rw [h.modemPending, h.toRouter, h.toModem]
    apply Phase.idle rfl rfl (h.same mac)
    intro m hm
    cases hm

theorem Agrees.step (h : Agrees protocol link p q pdp) {env : Env} {event : Event}
    (hundisturbed : link.undisturbed protocol env event = true)
    : ∃ link', (∃ p' q' pdp', Agrees protocol link' p' q' pdp')
        ∧ Link.step protocol link (env, event) = some link' := by
  have hobjects := h.modem.objects
  unfold Link.step
  cases event with
  | addDestination mac dataItems =>
    obtain ⟨hrequest, hreply⟩ := Bool.and_eq_true_iff.mp hundisturbed
    obtain ⟨link', p', hhandle, hagrees⟩ := h.addDestination env (request_of_reads hrequest)
      (reply_of_reads hreply)
    refine ⟨link', ⟨p', q, pdp, hagrees⟩, ?_⟩
    simp only [hhandle]
    rfl
  | updateDestination mac updates =>
    simp only [undisturbed, hobjects, List.all_cons, List.all_nil, Bool.and_true,
      Bool.and_eq_true] at hundisturbed
    have hhead : ∀ rp ∈ (StopAndWait.queue p.responsesPending mac).head?,
        rp.message.name ≠ .destinationDown := by
      intro rp hrp
      have hall := hundisturbed.2
      rw [hrp] at hall
      simpa using hall
    obtain ⟨link', p', hhandle, hagrees⟩ := h.updateDestination env
      (request_of_reads hundisturbed.1) hhead
    refine ⟨link', ⟨p', q, pdp, hagrees⟩, ?_⟩
    simp only [hhandle]
    rfl
  | removeDestination mac =>
    obtain ⟨hrequest, hreply⟩ := Bool.and_eq_true_iff.mp hundisturbed
    obtain ⟨link', p', hhandle, hagrees⟩ := h.removeDestination env (request_of_reads hrequest)
      (reply_of_reads hreply)
    refine ⟨link', ⟨p', q, pdp, hagrees⟩, ?_⟩
    simp only [hhandle]
    rfl
  | deliverToRouter =>
    obtain ⟨link', q', pdp', hhandle, hagrees⟩ := h.deliverToRouter env
    refine ⟨link', ⟨p, q', pdp', hagrees⟩, ?_⟩
    simp only [hhandle]
    rfl
  | deliverToModem =>
    obtain ⟨link', p', hhandle, hagrees⟩ := h.deliverToModem env
    refine ⟨link', ⟨p', q, pdp, hagrees⟩, ?_⟩
    simp only [hhandle]
    rfl
  | modemRetransmits =>
    have hontime : ∀ destination rp rest, p.responsesPending.find? destination = some (rp :: rest) →
        ¬ rp.sendTime + protocol.cfg.ackTimeout < env.now := by
      intro destination rp rest hfind
      simp only [undisturbed, hobjects, List.all_cons, List.all_nil, Bool.and_true, onTime,
        List.all_eq_true] at hundisturbed
      have hall := hundisturbed (destination, rp :: rest) ((SortedMap.find?_eq_some_iff _ _ _).mp hfind)
      simpa using hall
    refine ⟨link, ⟨p, q, pdp, h⟩, ?_⟩
    simp only [h.modemRetransmits hontime]
    rfl
  | routerRetransmits =>
    refine ⟨link, ⟨p, q, pdp, h⟩, ?_⟩
    simp only [h.routerRetransmits env]
    rfl

/--
In every run in which nothing is sent too early the session goes on, and when nothing waits or is
on the way then the router has the destinations of the modem.
-/
theorem destinations_agree (protocol : Protocol) (hsettled : Settled link p q pdp)
    {events : List (Env × Event)}
    (hguarded : Guarded (Link.step protocol)
      (fun link e => link.undisturbed protocol e.1 e.2 = true) link events)
    : ∃ link' p' q' pdp', run (Link.step protocol) link events = some link'
        ∧ link'.modem.objects = [p'] ∧ p'.pstate = .inSession
        ∧ link'.router.objects = [q'] ∧ q'.pstate = .inSession
        ∧ q'.peerPdp = some pdp'
        ∧ (link'.toRouter = [] → link'.toModem = [] → p'.responsesPending = .empty
          → q'.responsesPending = .empty →
        ∀ mac, pdp'.validDestination mac = link'.modem.localPdp.validDestination mac) := by
  have hstep : ∀ (link : Link) (e : Env × Event), (∃ p q pdp, Agrees protocol link p q pdp)
    → link.undisturbed protocol e.1 e.2 = true →
      ∃ link', Link.step protocol link e = some link' ∧ ∃ p q pdp, Agrees protocol link' p q pdp := by
    rintro link ⟨env, event⟩ ⟨p, q, pdp, h⟩ hundisturbed
    obtain ⟨link', hagrees, hstep⟩ := h.step hundisturbed
    exact ⟨link', hstep, hagrees⟩
  obtain ⟨link', hrun, p', q', pdp', hagrees⟩ := run_total hstep ⟨p, q, pdp, hsettled.agrees⟩ hguarded
  refine ⟨link', p', q', pdp', hrun, hagrees.modem.objects, hagrees.modemState,
    hagrees.router.objects, hagrees.routerState,
    hagrees.table, ?_⟩
  intro htoRouter htoModem hpending _ mac
  have hphase := hagrees.phase mac
  rw [hpending] at hphase
  -- without a queue only the first phase is left
  cases hphase with
  | idle _ _ hsame _ => exact hsame
  | travelling rp rest pre post hqueue => cases hqueue
  | arrived rp rest hqueue => cases hqueue

end

open ProtocolConfigImpl

namespace Rfc8175

def metrics (occurs : Occurs) : List SignalDataItemNode :=
  ["Maximum_Data_Rate_Receive", "Maximum_Data_Rate_Transmit", "Current_Data_Rate_Receive",
    "Current_Data_Rate_Transmit",
    "Latency"].map (fun name => ⟨name, occurs⟩)

def resources : List SignalDataItemNode :=
  ["Resources", "Resources_Receive", "Resources_Transmit", "Relative_Link_Quality_Receive",
    "Relative_Link_Quality_Transmit", "Maximum_Transmission_Unit"].map (fun name => ⟨name, .zeroOrOne⟩)

def addresses : List SignalDataItemNode :=
  ["IPv4_Address", "IPv6_Address", "IPv4_Attached_Subnet", "IPv6_Attached_Subnet"].map
    (fun name => ⟨name, .zeroOrMore⟩)

def mac : SignalDataItemNode := ⟨"MAC_Address", .one⟩

def status : SignalDataItemNode := ⟨"Status", .one⟩

def core : ModuleNode where
  name := "core"
  draft := "RFC8175"
  experimentName := ""
  extensionId := 0
  dataItems := [
    ⟨"Status", .div_u8_string, 1, .word false, none⟩,
    ⟨"IPv4_Connection_Point", .div_u8_ipv4_u16, 2, .word false, none⟩,
    ⟨"IPv6_Connection_Point", .div_u8_ipv6_u16, 3, .word false, none⟩,
    ⟨"Peer_Type", .div_u8_string, 4, .word false, none⟩,
    ⟨"Heartbeat_Interval", .div_u32, 5, .word false, some .milliseconds⟩,
    ⟨"Extensions_Supported", .div_v_extid, 6, .word false, none⟩,
    ⟨"MAC_Address", .div_dlepmac, 7, .word false, none⟩,
    ⟨"IPv4_Address", .div_u8_ipv4, 8, .word false, none⟩,
    ⟨"IPv6_Address", .div_u8_ipv6, 9, .word false, none⟩,
    ⟨"IPv4_Attached_Subnet", .div_u8_ipv4_u8, 10, .word false, none⟩,
    ⟨"IPv6_Attached_Subnet", .div_u8_ipv6_u8, 11, .word false, none⟩,
    ⟨"Maximum_Data_Rate_Receive", .div_u64, 12, .word true, some .bitsPerSecond⟩,
    ⟨"Maximum_Data_Rate_Transmit", .div_u64, 13, .word true, some .bitsPerSecond⟩,
    ⟨"Current_Data_Rate_Receive", .div_u64, 14, .word true, some .bitsPerSecond⟩,
    ⟨"Current_Data_Rate_Transmit", .div_u64, 15, .word true, some .bitsPerSecond⟩,
    ⟨"Latency", .div_u64, 16, .word true, some .microseconds⟩,
    ⟨"Resources", .div_u8, 17, .word true, some .percentage⟩,
    ⟨"Resources_Receive", .div_u8, 18, .word true, some .percentage⟩,
    ⟨"Resources_Transmit", .div_u8, 19, .word true, some .percentage⟩,
    ⟨"Relative_Link_Quality_Receive", .div_u8, 20, .word true, some .percentage⟩,
    ⟨"Relative_Link_Quality_Transmit", .div_u8, 21, .word true, some .percentage⟩,
    ⟨"Maximum_Transmission_Unit", .div_u16, 22, .word true, some .octets⟩
  ]
  signals := [
    ⟨"Session_Termination_Response", some 6, some (.word true), some .both, none, []⟩,
    ⟨"Session_Termination", some 5, some (.word true), some .both,
      some "Session_Termination_Response", [status]⟩,
    ⟨"Destination_Up_Response", some 8, some (.word true), some .router, none, [mac, status]⟩,
    ⟨"Destination_Up", some 7, some (.word true), some .modem, some "Destination_Up_Response",
      [mac] ++ metrics .zeroOrOne ++ resources ++ addresses⟩,
    ⟨"Destination_Down_Response", some 12, some (.word true), some .both, none, [mac, status]⟩,
    ⟨"Destination_Down", some 11, some (.word true), some .both, some "Destination_Down_Response", [mac]⟩,
    ⟨"Destination_Update", some 13, some (.word true), some .modem, none,
      [mac] ++ metrics .zeroOrOne ++ resources ++ addresses⟩
  ]
  statusCodes := [
    ⟨"Success", 0, .continue⟩, ⟨"Not_Interested", 1, .continue⟩, ⟨"Request_Denied", 2, .continue⟩,
    ⟨"Inconsistent_Data", 3, .continue⟩, ⟨"Unknown_Message", 128, .terminate⟩,
    ⟨"Unexpected_Message", 129, .terminate⟩, ⟨"Invalid_Data", 130, .terminate⟩,
    ⟨"Invalid_Destination", 131, .terminate⟩, ⟨"Timed_Out", 132, .terminate⟩
  ]

end Rfc8175

def withModules (cfg : SessionConfig) (impl : ProtocolConfigImpl) : SessionConfig :=
  { cfg with toMessageConfig := impl.toMessageConfig }

def rfc8175Protocol : Protocol where
  cfg := withModules (Node.rfc8175 true) (Wire.ProtocolMessage.loaded [Rfc8175.core])
  impl := Wire.ProtocolMessage.loaded [Rfc8175.core]
  impl_eq := rfl
  up_sender := by decide
  up_status := rfl
  up_response := rfl
  upResponse_sender := by decide
  down_sender := by decide
  down_response := rfl
  downResponse_sender := by decide
  update_sender := by decide

def examplePeer (cfg : SessionConfig) : Peer :=
  { Peer.create 1 0 with pstate := .inSession, peerPdp := some (.create cfg (some 1) []) }

def exampleNode (cfg : SessionConfig) : Node where
  objects := [examplePeer cfg]
  peers := SortedMap.empty.set 1 0
  localPdp := .create cfg none []
  infoBase := SortedMap.empty.set 1 0
  calls := []

def exampleLink : Link where
  modem := exampleNode rfc8175Protocol.modem
  router := exampleNode rfc8175Protocol.router
  toRouter := []
  toModem := []

theorem settled_exampleLink
    : Settled exampleLink (examplePeer rfc8175Protocol.modem) (examplePeer rfc8175Protocol.router)
        (.create rfc8175Protocol.router (some 1) []) := by
  constructor
  . exact ⟨rfl, rfl, rfl⟩
  . exact ⟨rfl, rfl, rfl⟩
  . rfl
  . rfl
  . exact ⟨_, rfl, fun _ => rfl⟩
  . rfl
  . rfl
  . rfl
  . rfl
  . rfl
  . rfl
  . exact fun _ => rfl

def envAt (now : Nat) : Env :=
  { Node.quietEnv with now := now }

def exampleMac : DlepMac := [2, 0, 0, 0, 0, 1]

def overview (link : Link) : List PeerState × List PeerState × Nat × Nat :=
  (link.modem.objects.map Peer.pstate, link.router.objects.map Peer.pstate, link.toRouter.length,
    link.toModem.length)

def orderly : List (Env × Event) :=
  [
    (envAt 1, .addDestination exampleMac []),
    (envAt 1, .updateDestination exampleMac []),
    (envAt 2, .deliverToRouter),
    (envAt 2, .modemRetransmits),
    (envAt 2, .removeDestination exampleMac),
    (envAt 2, .deliverToRouter),
    (envAt 3, .deliverToModem),
    (envAt 3, .addDestination exampleMac []),
    (envAt 4, .deliverToRouter),
    (envAt 4, .deliverToModem),
    (envAt 4, .deliverToRouter),
    (envAt 4, .deliverToModem)
  ]

def pendingLists (link : Link) : List (List (DlepMac × List ResponsePending)) :=
  (link.modem.objects ++ link.router.objects).map (fun p => p.responsesPending.toList)

theorem destinations_agree_orderly
    : ∃ link p q pdp, run (Link.step rfc8175Protocol) exampleLink orderly = some link
        ∧ link.modem.objects = [p] ∧ p.pstate = .inSession ∧ link.router.objects = [q]
        ∧ q.pstate = .inSession
        ∧ q.peerPdp = some pdp
        ∧ ∀ mac, pdp.validDestination mac = link.modem.localPdp.validDestination mac := by
  have hguarded : Guarded (Link.step rfc8175Protocol)
    (fun link e => link.undisturbed rfc8175Protocol e.1 e.2 = true) exampleLink orderly := by
    decide +kernel
  have hmap : (run (Link.step rfc8175Protocol) exampleLink orderly).map
      (fun link => (link.toRouter.length, link.toModem.length, link.pendingLists.flatten.length))
          = some (0, 0, 0) := by
    decide +kernel
  obtain ⟨link, p, q, pdp, hrun, hp, hpstate, hq, hqstate, hpdp, hquiet⟩ :=
    destinations_agree rfc8175Protocol settled_exampleLink hguarded
  rw [hrun] at hmap
  simp only [Option.map_some, Option.some.injEq, Prod.mk.injEq, List.length_eq_zero_iff] at hmap
  obtain ⟨htoRouter, htoModem, hpending⟩ := hmap
  unfold pendingLists at hpending
  rw [hp, hq] at hpending
  simp only [List.cons_append, List.nil_append, List.map_cons, List.map_nil, List.flatten_cons,
    List.flatten_nil, List.append_nil,
    List.append_eq_nil_iff] at hpending
  exact ⟨link, p, q, pdp, hrun, hp, hpstate, hq, hqstate, hpdp,
    hquiet htoRouter htoModem (SortedMap.ext hpending.1) (SortedMap.ext hpending.2)⟩

theorem session_ends
    : (run (Link.step rfc8175Protocol) exampleLink
        [
          (envAt 1, .addDestination exampleMac []),
          (envAt 1, .deliverToRouter),
          (envAt 1, .deliverToModem),
          (envAt 2, .removeDestination exampleMac),
          (envAt 2, .addDestination exampleMac []),
          (envAt 2, .updateDestination exampleMac []),
          (envAt 3, .deliverToRouter),
          (envAt 3, .deliverToRouter)
        ]).map overview = some ([.inSession], [.terminating], 0, 2)
        ∧ (run (Link.step rfc8175Protocol) exampleLink
        [
          (envAt 1, .addDestination exampleMac []),
          (envAt 4, .modemRetransmits),
          (envAt 5, .deliverToRouter),
          (envAt 5, .deliverToRouter),
          (envAt 5, .deliverToModem),
          (envAt 5, .deliverToModem)
        ]).map overview = some ([.terminating], [.inSession], 1, 0)
        ∧ (run (Link.step rfc8175Protocol) exampleLink
        [(envAt 1, .addDestination exampleMac [⟨17, .div_u8 101⟩]),
          (envAt 2, .deliverToRouter)]).map overview
          = some ([.inSession], [.terminating], 0, 1) := by
  decide +kernel

end Link
end Dlep
end Emane

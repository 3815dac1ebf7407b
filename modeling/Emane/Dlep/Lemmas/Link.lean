import Emane.Lib.KeyedList
import Emane.Dlep.Impl.Link
import Emane.Dlep.Lemmas.Run

/-!
This module contains the agreement of a modem and a router about destinations.
-/

namespace Emane
namespace Dlep

namespace Link

def requestName (up : Bool) : MessageName :=
  if up then .destinationUp else .destinationDown

def responseName (up : Bool) : MessageName :=
  if up then .destinationUpResponse else .destinationDownResponse

structure Reads (protocol : Protocol) (modemSender : Bool) (mac : DlepMac) (name : MessageName)
    (status : Option StatusCodeInfo)
    (m : Outgoing) (pm : ProtocolMessage) : Prop where
  received : protocol.received modemSender m = .ok (some pm)
  name : pm.name = name
  mac : pm.getMac protocol.cfg = .ok mac
  status : optional (pm.getStatus protocol.cfg) = .ok status

structure Request (protocol : Protocol) (mac : DlepMac) (name : MessageName) (m : Outgoing) : Prop where
  reads : ∃ pm, Reads protocol true mac name none m pm
  name : m.name = name
  mac : m.mac = some mac

structure Reply (protocol : Protocol) (mac : DlepMac) (name : MessageName) (m : Outgoing) : Prop where
  reads : ∃ pm, Reads protocol false mac name (some ⟨.success, false⟩) m pm
  mac : m.mac = some mac

def success (name : MessageName) (mac : DlepMac) : Outgoing where
  name := name
  mac := some mac
  status := some .success
  dataItems := []

structure Queued (protocol : Protocol) (mac : DlepMac) (up : Bool) (rp : ResponsePending) : Prop where
  request : Request protocol mac (requestName up) rp.message
  destination : rp.destination = mac
  responseName : rp.responseName = Link.responseName up
  reply : Reply protocol mac (Link.responseName up) (success (Link.responseName up) mac)

def Turns (protocol : Protocol) (mac : DlepMac) (here : Bool) : Bool → List ResponsePending → Prop
  | held, [] => held = here
  | held, rp :: rest => Queued protocol mac (!held) rp ∧ Turns protocol mac here (!held) rest

inductive Phase (protocol : Protocol) (mac : DlepMac) (held here : Bool)
    (queue : List ResponsePending) (out back : List Outgoing) : Prop
  | idle (hqueue : queue = []) (hback : back = []) (hsame : held = here)
      (hout : ∀ m ∈ out, Request protocol mac .destinationUpdate m ∧ held = true)
  | travelling (rp : ResponsePending) (rest : List ResponsePending) (pre post : List Outgoing)
    (hqueue : queue = rp :: rest)
      (hback : back = []) (hout : out = pre ++ rp.message :: post)
        (hturns : Turns protocol mac here held (rp :: rest))
      (hpre : ∀ m ∈ pre, Request protocol mac .destinationUpdate m ∧ held = true)
      (hpost : ∀ m ∈ post, Request protocol mac .destinationUpdate m ∧ held = false)
  | arrived (rp : ResponsePending) (rest : List ResponsePending) (hqueue : queue = rp :: rest)
      (hback : back = [] ∨ ∃ m, back = [m] ∧ Reply protocol mac rp.responseName m)
        (hturns : Turns protocol mac here (!held) (rp :: rest))
      (hout : ∀ m ∈ out, Request protocol mac .destinationUpdate m ∧ held = true)

section

variable {protocol : Protocol} {mac : DlepMac} {held here : Bool}
  {queue rest : List ResponsePending} {out back : List Outgoing}
  {rp : ResponsePending} {m : Outgoing}

theorem Queued.resent {up : Bool} (h : Queued protocol mac up rp) (now : Nat)
    : Queued protocol mac up (Session.resent now rp) := by
  exact ⟨h.request, h.destination, h.responseName, h.reply⟩

theorem Turns.append (h : Turns protocol mac here held queue) (hrp : Queued protocol mac (!here) rp)
    : Turns protocol mac (!here) held (queue ++ [rp]) := by
  induction queue generalizing held with
  | nil =>
    have hsame : held = here := h
    rw [hsame]
    exact ⟨hrp, rfl⟩
  | cons first queue ih => exact ⟨h.1, ih h.2⟩

theorem Turns.eq_true_of_ne_down (h : Turns protocol mac here held (rp :: rest))
    (hname : rp.message.name ≠ .destinationDown)
    : (!held) = true := by
  have hrequest := h.1.request.name
  cases hheld : held with
  | false => rfl
  | true =>
    rw [hheld] at hrequest
    exact absurd hrequest hname

theorem Turns.resent (h : Turns protocol mac here held (rp :: rest)) (now : Nat)
    : Turns protocol mac here held (Session.resent now rp :: rest) := by
  exact ⟨h.1.resent now, h.2⟩

def pushed (now : Nat) (rp : ResponsePending) (queue : List ResponsePending) : List ResponsePending :=
  if queue.isEmpty then [Session.resent now rp] else queue ++ [rp]

def pushedMessages (rp : ResponsePending) (queue : List ResponsePending) : List Outgoing :=
  if queue.isEmpty then [rp.message] else []

def popped (now : Nat) : List ResponsePending → List ResponsePending
  | [] => []
  | rp :: rest => Session.resent now rp :: rest

def poppedMessages : List ResponsePending → List Outgoing
  | [] => []
  | rp :: _ => [rp.message]

theorem Phase.push (h : Phase protocol mac held here queue out back)
    (hrp : Queued protocol mac (!here) rp) (now : Nat)
    : Phase protocol mac held (!here) (pushed now rp queue) (out ++ pushedMessages rp queue) back := by
  cases h with
  | idle hqueue hback hsame hout =>
    subst hqueue hsame
    apply Phase.travelling (Session.resent now rp) [] out []
    . rfl
    . exact hback
    . rfl
    . exact ⟨hrp.resent now, rfl⟩
    . exact hout
    . simp
  | travelling first rest pre post hqueue hback hout hturns hpre hpost =>
    subst hqueue
    apply Phase.travelling first (rest ++ [rp]) pre post
    . rfl
    . exact hback
    . simp [pushedMessages, hout]
    . exact hturns.append hrp
    . exact hpre
    . exact hpost
  | arrived first rest hqueue hback hturns hout =>
    subst hqueue
    apply Phase.arrived first (rest ++ [rp])
    . rfl
    . exact hback
    . exact hturns.append hrp
    . simpa [pushedMessages] using hout

theorem Phase.update (h : Phase protocol mac held true queue out back)
    (hm : Request protocol mac .destinationUpdate m)
    (hhead : ∀ rp ∈ queue.head?, rp.message.name ≠ .destinationDown)
    : Phase protocol mac held true queue (out ++ [m]) back := by
  have hadd : ∀ {msgs : List Outgoing} {b : Bool},
    (∀ m ∈ msgs, Request protocol mac .destinationUpdate m ∧ held = b) → held = b →
      ∀ m' ∈ msgs ++ [m], Request protocol mac .destinationUpdate m' ∧ held = b := by
    intro msgs b hmsgs hb m' hm'
    rw [List.mem_append, List.mem_singleton] at hm'
    rcases hm' with hm' | rfl
    . exact hmsgs m' hm'
    . exact ⟨hm, hb⟩
  cases h with
  | idle hqueue hback hsame hout => exact .idle hqueue hback hsame (hadd hout hsame)
  | travelling rp rest pre post hqueue hback hout hturns hpre hpost =>
    -- the head is an up, so the router has not got the destination yet
    have hfalse : (!held) = true := hturns.eq_true_of_ne_down (hhead rp (by simp [hqueue]))
    rw [Bool.not_eq_true'] at hfalse
    apply Phase.travelling rp rest pre (post ++ [m]) hqueue hback
    . simp [hout]
    . exact hturns
    . exact hpre
    . exact hadd hpost hfalse
  | arrived rp rest hqueue hback hturns hout =>
    have htrue : (!(!held)) = true := hturns.eq_true_of_ne_down (hhead rp (by simp [hqueue]))
    rw [Bool.not_not] at htrue
    exact .arrived rp rest hqueue hback hturns (hadd hout htrue)

theorem Phase.deliver (h : Phase protocol mac held here queue (m :: out) back)
    : (Request protocol mac .destinationUpdate m ∧ held = true
        ∧ Phase protocol mac held here queue out back)
        ∨ (Request protocol mac (requestName (!held)) m ∧ back = []
        ∧ Reply protocol mac (responseName (!held)) (success (responseName (!held)) mac)
        ∧ Phase protocol mac (!held) here queue out []
        ∧ ∀ reply, Reply protocol mac (responseName (!held)) reply
            → Phase protocol mac (!held) here queue out [reply]) := by
  cases h with
  | idle hqueue hback hsame hout =>
    obtain ⟨hm, hrest⟩ := List.forall_mem_cons.mp hout
    exact .inl ⟨hm.1, hm.2, .idle hqueue hback hsame hrest⟩
  | travelling rp rest pre post hqueue hback hout hturns hpre hpost =>
    cases pre with
    | nil =>
      obtain ⟨rfl, rfl⟩ := hout
      have hout' : ∀ m ∈ out, Request protocol mac .destinationUpdate m ∧ (!held) = true := by
        intro m hm
        obtain ⟨hupdate, hfalse⟩ := hpost m hm
        rw [hfalse]
        exact ⟨hupdate, rfl⟩
      have hturns' : Turns protocol mac here (!(!held)) (rp :: rest) := by
        rw [Bool.not_not]
        exact hturns
      refine .inr ⟨hturns.1.request, hback, hturns.1.reply, .arrived rp rest hqueue
        (.inl rfl) hturns' hout', ?_⟩
      intro reply hreply
      refine .arrived rp rest hqueue (.inr ⟨reply, rfl, ?_⟩) hturns' hout'
      rw [hturns.1.responseName]
      exact hreply
    | cons first pre =>
      obtain ⟨rfl, rfl⟩ := hout
      obtain ⟨hm, hrest⟩ := List.forall_mem_cons.mp hpre
      exact .inl ⟨hm.1, hm.2, .travelling rp rest pre post hqueue hback rfl hturns hrest hpost⟩
  | arrived rp rest hqueue hback hturns hout =>
    obtain ⟨hm, hrest⟩ := List.forall_mem_cons.mp hout
    exact .inl ⟨hm.1, hm.2, .arrived rp rest hqueue hback hturns hrest⟩

theorem Phase.answer (h : Phase protocol mac held here queue out (m :: back)) (now : Nat)
    : ∃ rp rest up, queue = rp :: rest ∧ rp.responseName = responseName up
        ∧ Reply protocol mac rp.responseName m ∧ back = []
        ∧ (∀ m ∈ poppedMessages rest, m.mac = some mac)
        ∧ Phase protocol mac held here (popped now rest) (out ++ poppedMessages rest) [] := by
  cases h with
  | idle hqueue hback hsame hout => cases hback
  | travelling rp rest pre post hqueue hback hout hturns hpre hpost => cases hback
  | arrived rp rest hqueue hback hturns hout =>
    rcases hback with hback | ⟨m', hback, hreply⟩
    . cases hback
    . obtain ⟨rfl, rfl⟩ := hback
      obtain ⟨hfirst, hturns⟩ := hturns
      rw [Bool.not_not] at hfirst hturns
      refine ⟨rp, rest, held, hqueue, hfirst.responseName, hreply, rfl, ?_⟩
      cases rest with
      | nil =>
        refine ⟨by simp [poppedMessages], ?_⟩
        apply Phase.idle rfl rfl hturns
        simpa [poppedMessages] using hout
      | cons next rest =>
        refine ⟨by simpa [poppedMessages] using hturns.1.request.mac, ?_⟩
        apply Phase.travelling (Session.resent now next) rest out []
        . rfl
        . rfl
        . rfl
        . exact hturns.resent now
        . exact hout
        . simp

end

section

variable {protocol : Protocol} {cfg : SessionConfig} {m : Outgoing} {mac : DlepMac} {name : MessageName}

theorem Reads.build {modemSender : Bool} {status : Option StatusCodeInfo} {pm : ProtocolMessage}
    (h : Reads protocol modemSender mac name status m pm)
    : Outgoing.create protocol.cfg m.name m.mac m.dataItems m.status = .ok m := by
  have hreceived := h.received
  change (do let _ ← m.build protocol.cfg; return m) = _
  cases hbuild : m.build protocol.cfg with
  | ok wpm => rfl
  | error fault =>
    unfold Protocol.received at hreceived
    rw [hbuild] at hreceived
    cases hreceived

variable {pm : ProtocolMessage}

variable (ctx : Context)

theorem checkStatusCodeFailure_of_name (s : Session) (hname : pm.name ≠ .sessionTermination)
    (hname' : pm.name ≠ .sessionTerminationResponse) {status : Option StatusCodeInfo}
    (hstatus : optional (pm.getStatus ctx.cfg) = .ok status)
    (hmode : ∀ info, status = some info → info.failureModeTerminate = false)
    : s.checkStatusCodeFailure ctx pm = .ok (false, s) := by
  unfold Session.checkStatusCodeFailure
  rw [if_neg (not_or.mpr ⟨hname, hname'⟩), hstatus]
  cases status with
  | none => rfl
  | some info =>
    change (if info.failureModeTerminate then _ else _) = _
    rw [hmode info rfl]
    rfl

theorem handlePeerSignal_of_checked (s : Session)
    (hallows : ctx.cfg.allowsSender pm.name (!ctx.cfg.modem) = true)
    (hcheck : s.checkStatusCodeFailure ctx pm = .ok (false, s))
    : s.handlePeerSignal ctx (some pm) = s.dispatch ctx pm := by
  unfold Session.handlePeerSignal
  simp only [hallows, ↓reduceIte]
  rw [hcheck]
  rfl

variable {s : Session}

theorem isNotInterested_of_nil (h : s.peer.notInterestedDestinations = []) (mac : DlepMac)
    : s.isNotInterested mac = false := by
  unfold Session.isNotInterested
  rw [h]
  rfl

theorem enqueue_spec (ctx : Context) {s : Session}
    (hinterested : s.peer.notInterestedDestinations = []) (rp : ResponsePending)
    : ∃ pending,
        s.enqueue ctx rp
          =
        { s with
          peer := { s.peer with responsesPending := pending }
          calls := s.calls ++ (pushedMessages rp
            (StopAndWait.queue s.peer.responsesPending rp.destination)).map .send }
          ∧ StopAndWait.queue pending rp.destination
          =
        pushed ctx.env.now rp (StopAndWait.queue s.peer.responsesPending rp.destination)
          ∧ ∀ destination, destination ≠ rp.destination →
          StopAndWait.queue pending destination
              = StopAndWait.queue s.peer.responsesPending destination := by
  have hnotInterested := isNotInterested_of_nil hinterested rp.destination
  change ∃ pending,
    (if (StopAndWait.queue s.peer.responsesPending rp.destination).isEmpty then _ else _) = _ ∧ _
  cases hqueue : StopAndWait.queue s.peer.responsesPending rp.destination with
  | nil =>
    have hnil : (s.peer.responsesPending.find? rp.destination).getD [] = [] := hqueue
    refine ⟨(s.peer.responsesPending.set rp.destination [rp]).set rp.destination
      [Session.resent ctx.env.now rp], ?_, ?_, ?_⟩
    . simp only [List.isEmpty_nil, ↓reduceIte, hnil, List.nil_append]
      rw [Session.sendHead_set ctx hnotInterested]
      rfl
    . rw [StopAndWait.queue_set, if_pos rfl]
      rfl
    . intro destination hne
      rw [StopAndWait.queue_set, if_neg hne, StopAndWait.queue_set, if_neg hne]
  | cons first rest =>
    have hcons : (s.peer.responsesPending.find? rp.destination).getD [] = first :: rest := hqueue
    refine ⟨s.peer.responsesPending.set rp.destination (first :: rest ++ [rp]), ?_, ?_, ?_⟩
    . simp only [List.isEmpty_cons, Bool.false_eq_true, ↓reduceIte, hcons, pushedMessages,
        List.map_nil, List.append_nil]
      rfl
    . rw [StopAndWait.queue_set, if_pos rfl]
      rfl
    . intro destination hne
      rw [StopAndWait.queue_set, if_neg hne]

theorem popPending_spec (ctx : Context) {s : Session}
    (hinterested : s.peer.notInterestedDestinations = []) (mac : DlepMac)
    (rest : List ResponsePending)
    : ∃ pending,
        s.popPending ctx mac rest
          =
        { s with
          peer := { s.peer with responsesPending := pending }
          calls := s.calls ++ (poppedMessages rest).map .send }
          ∧ StopAndWait.queue pending mac = popped ctx.env.now rest
          ∧ ∀ destination, destination ≠ mac →
          StopAndWait.queue pending destination
              = StopAndWait.queue s.peer.responsesPending destination := by
  have hnotInterested := isNotInterested_of_nil hinterested mac
  unfold Session.popPending
  cases rest with
  | nil =>
    refine ⟨s.peer.responsesPending.erase mac, ?_, ?_, ?_⟩
    . simp only [List.isEmpty_nil, ↓reduceIte, poppedMessages, List.map_nil, List.append_nil]
      rfl
    . rw [StopAndWait.queue_erase, if_pos rfl]
      rfl
    . intro destination hne
      rw [StopAndWait.queue_erase, if_neg hne]
  | cons next rest =>
    refine ⟨(s.peer.responsesPending.set mac (next :: rest)).set mac
      (Session.resent ctx.env.now next :: rest), ?_, ?_, ?_⟩
    . rw [Session.sendHead_set ctx hnotInterested]
      rfl
    . rw [StopAndWait.queue_set, if_pos rfl]
      rfl
    . intro destination hne
      rw [StopAndWait.queue_set, if_neg hne, StopAndWait.queue_set, if_neg hne]

theorem sendMessageExpectingResponse_eq (hinterested : s.peer.notInterestedDestinations = [])
    {response : MessageName} (hresponse : ctx.cfg.getMessageResponseName m.name = .ok (some response))
    : s.sendMessageExpectingResponse ctx m = .ok (s.enqueue ctx ⟨response, m.mac.getD [], m, 0, 0⟩) := by
  unfold Session.sendMessageExpectingResponse ResponsePending.create
  rw [hresponse]
  simp only [Session.isNotInterested, hinterested]
  rfl

variable {pdp : PeerData}

theorem destinationUp_eq (hcfg : ctx.cfg = protocol.modem)
    (hpdp : s.peer.peerPdp = some pdp) (hneeds : pdp.needsResponse mac = none)
    (hinterested : s.peer.notInterestedDestinations = [])
    {dataItems : List DataItem}
    (hrequest : Request protocol mac .destinationUp ⟨.destinationUp, some mac, none, dataItems⟩)
    : s.destinationUp ctx mac dataItems
        =
      .ok (s.enqueue ctx
          ⟨.destinationUpResponse, mac, ⟨.destinationUp, some mac, none, dataItems⟩, 0, 0⟩) := by
  obtain ⟨pm, hpm⟩ := hrequest.reads
  have hpeerPdp := Session.peerPdp_eq_ok hpdp
  have hname : Session.destinationUpName protocol.modem = .destinationUp := rfl
  have hstatus : protocol.modem.commonStatus .destinationUp = none := protocol.up_status
  have hcreate : Outgoing.create protocol.modem .destinationUp (some mac) dataItems none = .ok
      ⟨.destinationUp, some mac, none, dataItems⟩ := by
    exact hpm.build
  unfold Session.destinationUp
  rw [hpeerPdp, hcfg]
  simp only [bind, Except.bind, hneeds, hname, hstatus, hcreate]
  apply sendMessageExpectingResponse_eq ctx hinterested
  rw [hcfg]
  exact protocol.up_response

theorem destinationDown_eq (hcfg : ctx.cfg = protocol.modem)
    (hinterested : s.peer.notInterestedDestinations = [])
    (hrequest : Request protocol mac .destinationDown ⟨.destinationDown, some mac, none, []⟩)
    : s.destinationDown ctx mac
        =
      .ok (s.enqueue ctx
          ⟨.destinationDownResponse, mac, ⟨.destinationDown, some mac, none, []⟩, 0, 0⟩) := by
  obtain ⟨pm, hpm⟩ := hrequest.reads
  have hcreate : Outgoing.create protocol.modem .destinationDown (some mac) [] none = .ok
      ⟨.destinationDown, some mac, none, []⟩ := by
    exact hpm.build
  unfold Session.destinationDown
  rw [hcfg, hcreate]
  apply sendMessageExpectingResponse_eq ctx hinterested
  rw [hcfg]
  exact protocol.down_response

theorem handleResponse_eq (hmac : pm.getMac ctx.cfg = .ok mac)
    {rp : ResponsePending} {rest : List ResponsePending}
    (hfind : s.peer.responsesPending.find? mac = some (rp :: rest))
    (hname : rp.responseName = pm.name)
    : s.handleResponse ctx pm = .ok (true, s.popPending ctx mac rest) := by
  unfold Session.handleResponse
  rw [hmac]
  simp only [optional, bind, Except.bind, Option.getD_some, hfind, hname, ↓reduceIte]
  rfl

theorem handlePeerSignal_reply (hcfg : ctx.cfg = protocol.modem) {up : Bool}
    (hreply : Reads protocol false mac (responseName up) (some ⟨.success, false⟩) m pm)
    {rp : ResponsePending}
    {rest : List ResponsePending} (hfind : s.peer.responsesPending.find? mac = some (rp :: rest))
    (hname : rp.responseName = responseName up)
    : s.handlePeerSignal ctx (some pm) = .ok (s.popPending ctx mac rest) := by
  have hpm := hreply.name
  have hmac : pm.getMac ctx.cfg = .ok mac := by
    rw [hcfg]
    exact hreply.mac
  have hoptional : optional (pm.getStatus ctx.cfg) = .ok (some ⟨.success, false⟩) := by
    rw [hcfg]
    exact hreply.status
  have hresponse := handleResponse_eq ctx hmac hfind (hname.trans hpm.symm)
  have hcheck : s.checkStatusCodeFailure ctx pm = .ok (false, s) := by
    apply checkStatusCodeFailure_of_name ctx s ?_ ?_ hoptional
    . intro info hinfo
      cases hinfo
      rfl
    . rw [hpm]
      cases up <;> simp [responseName]
    . rw [hpm]
      cases up <;> simp [responseName]
  have hmodem : ctx.cfg.modem = true := by
    rw [hcfg]
    rfl
  rw [handlePeerSignal_of_checked ctx s ?_ hcheck]
  . unfold Session.dispatch
    rw [hpm]
    cases up with
    | true =>
      simp only [responseName, ↓reduceIte]
      unfold Session.handleDestinationUpResponse
      rw [hmac, hresponse, hoptional]
      simp [bind, Except.bind, pure, Except.pure, hmodem]
    | false =>
      unfold Session.handleDestinationDownResponse
      rw [hmac, hresponse]
      rfl
  . rw [hpm, hmodem, hcfg]
    cases up with
    | true => exact protocol.upResponse_sender
    | false => exact protocol.downResponse_sender

theorem validateIpDataItems_ok
    (hready : ∀ e ∈ ctx.peers, (if e.1 = ctx.self then s.peer else e.2).peerPdp ≠ none)
    (existing dataItems : List DataItem)
    : ∃ conflict, Session.validateIpDataItems ctx existing s dataItems = .ok conflict := by
  have howner : ∀ di, ∃ owner, Session.findIpOwner ctx di s ctx.peers = .ok owner := by
    intro di
    generalize ctx.peers = peers at hready
    induction peers with
    | nil => exact ⟨none, rfl⟩
    | cons e peers ih =>
      obtain ⟨hfirst, hrest⟩ := List.forall_mem_cons.mp hready
      obtain ⟨owner, howner⟩ := ih hrest
      unfold Session.findIpOwner
      split
      . next hnone => exact absurd hnone hfirst
      . split
        . exact ⟨_, rfl⟩
        . exact ⟨owner, howner⟩
  have hone : ∀ ndi, ∃ conflict, Session.validateIpDataItem ctx existing s ndi = .ok conflict := by
    intro ndi
    obtain ⟨owner, howner⟩ := howner ndi
    unfold Session.validateIpDataItem
    rw [howner]
    split
    . split
      . exact ⟨_, rfl⟩
      . exact ⟨_, rfl⟩
    . split
      . exact ⟨_, rfl⟩
      . exact ⟨_, rfl⟩
  induction dataItems with
  | nil => exact ⟨none, rfl⟩
  | cons ndi dataItems ih =>
    obtain ⟨conflict, hconflict⟩ := hone ndi
    unfold Session.validateIpDataItems
    rw [hconflict]
    split
    . cases conflict with
      | some conflict => exact ⟨_, rfl⟩
      | none => exact ih
    . exact ih

def Replies (protocol : Protocol) (mac : DlepMac) (response : Option MessageName)
    (msgs : List Outgoing) : Prop :=
  msgs = [] ∨ ∃ name reply, response = some name ∧ msgs = [reply] ∧ Reply protocol mac name reply

structure Told (protocol : Protocol) (mac : DlepMac) (held : Bool) (response : Option MessageName)
    (pdp : PeerData) (s s' : Session) : Prop where
  pstate : s'.peer.pstate = s.peer.pstate
  pending : s'.peer.responsesPending = s.peer.responsesPending
  pdp : ∃ pdp', s'.peer.peerPdp = some pdp' ∧ pdp'.validDestination mac = held
    ∧ ∀ mac', mac' ≠ mac → pdp'.validDestination mac' = pdp.validDestination mac'
  calls : ∃ calls, s'.calls = s.calls ++ calls ∧ Replies protocol mac response (sends calls)

theorem sends_simpleResponse (s : Session) {response : MessageName}
    (hreply : Reply protocol mac response (success response mac))
    {c : Call} (hc : sends [c] = [])
    : ∃ calls, ((s.call c).sendSimpleResponse ctx response (some .success) (some mac)).calls
        = s.calls ++ calls
        ∧ Replies protocol mac (some response) (sends calls) := by
  unfold Session.sendSimpleResponse
  split
  . refine ⟨[c, .send ⟨response, some mac, some .success, []⟩], ?_,
      .inr ⟨response, success response mac, rfl, ?_, hreply⟩⟩
    . exact List.append_assoc _ _ _
    . change sends ([c] ++ [.send _]) = _
      unfold sends at hc ⊢
      rw [List.filterMap_append, hc]
      rfl
  . exact ⟨[c], rfl, .inl hc⟩

theorem handleDestinationUp_router (hcfg : ctx.cfg = protocol.router)
    (hrequest : Reads protocol true mac .destinationUp none m pm)
    (hreply : Reply protocol mac .destinationUpResponse (success .destinationUpResponse mac))
    (hpdp : s.peer.peerPdp = some pdp)
    (hheld : pdp.validDestination mac = false) (hclient : ctx.env.clientStatus = .success)
    (hready : ∀ e ∈ ctx.peers, (if e.1 = ctx.self then s.peer else e.2).peerPdp ≠ none)
    : ∃ s', s.handleDestinationUp ctx pm = .ok s'
        ∧ Told protocol mac true (some .destinationUpResponse) pdp s s' := by
  have hmac : pm.getMac ctx.cfg = .ok mac := by
    rw [hcfg]
    exact hrequest.mac
  have hpeerPdp := Session.peerPdp_eq_ok hpdp
  have hnone : pdp.destinationData.find? mac = none := by
    unfold PeerData.validDestination at hheld
    simpa using hheld
  have hname : ctx.cfg.getMessageResponseName pm.name = .ok (some .destinationUpResponse) := by
    rw [hrequest.name, hcfg]
    exact protocol.up_response
  obtain ⟨conflict, hconflict⟩ := validateIpDataItems_ok ctx hready [] pm.dataItems
  obtain ⟨calls, hcalls, hsends⟩ := sends_simpleResponse ctx s hreply
    (c := .destinationUp s.peer.peerId mac pm.dataItems) rfl
  generalize hpdp' : ({ pdp with
    destinationData := pdp.destinationData.set mac (.create ctx.cfg pm.dataItems) } : PeerData) = pdp'
  have hadd : pdp.addDestination ctx.cfg mac pm.dataItems = some pdp' := by
    unfold PeerData.addDestination
    rw [hnone]
    exact congrArg some hpdp'
  have hvalid := (PeerData.validDestination_addDestination hadd).2
  have haccept : s.acceptDestination ctx mac pm.dataItems
      = .ok (((s.interested mac).call (.destinationUp s.peer.peerId mac pm.dataItems)).setPdp pdp') := by
    have hpeerPdp' : ((s.interested mac).call
        (.destinationUp s.peer.peerId mac pm.dataItems)).peerPdp = .ok pdp := by
      exact hpeerPdp
    unfold Session.acceptDestination
    simp only [hclient, ↓reduceIte]
    rw [hpeerPdp']
    simp only [bind, Except.bind, hadd]
    rfl
  refine ⟨(((s.interested mac).call (.destinationUp s.peer.peerId mac pm.dataItems)).setPdp
    pdp').sendSimpleResponse ctx
    .destinationUpResponse (some .success) (some mac), ?_, ?_⟩
  . unfold Session.handleDestinationUp
    rw [hmac, hname]
    simp only [bind, Except.bind, hpeerPdp, hheld, Bool.false_eq_true, ↓reduceIte, hconflict,
      haccept, hclient]
    rfl
  . constructor
    . rw [Session.sendSimpleResponse_peer]
      rfl
    . rw [Session.sendSimpleResponse_peer]
      rfl
    . refine ⟨pdp', ?_, ?_, ?_⟩
      . rw [Session.sendSimpleResponse_peer]
        rfl
      . simp [hvalid]
      . intro mac' hne
        simp [hvalid, hne]
    . refine ⟨calls, ?_, hsends⟩
      rw [← hcalls]
      unfold Session.sendSimpleResponse
      split
      . rfl
      . rfl

theorem handleDestinationDown_router (hcfg : ctx.cfg = protocol.router)
    (hrequest : Reads protocol true mac .destinationDown none m pm)
    (hreply : Reply protocol mac .destinationDownResponse (success .destinationDownResponse mac))
    (hpdp : s.peer.peerPdp = some pdp)
    (hheld : pdp.validDestination mac = true)
    : ∃ s', s.handleDestinationDown ctx pm = .ok s'
        ∧ Told protocol mac false (some .destinationDownResponse) pdp s s' := by
  have hmac : pm.getMac ctx.cfg = .ok mac := by
    rw [hcfg]
    exact hrequest.mac
  have hpeerPdp := Session.peerPdp_eq_ok hpdp
  generalize hpdp' : ({ pdp with destinationData := pdp.destinationData.erase mac } : PeerData) = pdp'
  have hremove : pdp.removeDestination mac = some pdp' := by
    obtain ⟨ddp, hddp⟩ := Option.isSome_iff_exists.mp hheld
    unfold PeerData.removeDestination
    rw [hddp]
    exact congrArg some hpdp'
  have hvalid := (PeerData.validDestination_removeDestination hremove).2
  obtain ⟨calls, hcalls, hsends⟩ := sends_simpleResponse ctx (s.setPdp pdp') hreply
    (c := .destinationDown s.peer.peerId mac) rfl
  refine ⟨((s.setPdp pdp').call (.destinationDown s.peer.peerId mac)).sendSimpleResponse ctx
    .destinationDownResponse (some .success)
    (some mac), ?_, ?_⟩
  . unfold Session.handleDestinationDown
    rw [hmac]
    simp only [bind, Except.bind, hpeerPdp, hremove]
    rfl
  . constructor
    . rw [Session.sendSimpleResponse_peer]
      rfl
    . rw [Session.sendSimpleResponse_peer]
      rfl
    . refine ⟨pdp', ?_, ?_, ?_⟩
      . rw [Session.sendSimpleResponse_peer]
        rfl
      . simp [hvalid]
      . intro mac' hne
        simp [hvalid, hne]
    . exact ⟨calls, hcalls, hsends⟩

theorem handleDestinationUpdate_router (hcfg : ctx.cfg = protocol.router)
    (hrequest : Reads protocol true mac .destinationUpdate none m pm) (hpdp : s.peer.peerPdp = some pdp)
    (hheld : pdp.validDestination mac = true)
    (hready : ∀ e ∈ ctx.peers, (if e.1 = ctx.self then s.peer else e.2).peerPdp ≠ none)
    : ∃ s', s.handleDestinationUpdate ctx pm = .ok s' ∧ Told protocol mac true none pdp s s' := by
  have hmac : pm.getMac ctx.cfg = .ok mac := by
    rw [hcfg]
    exact hrequest.mac
  have hpeerPdp := Session.peerPdp_eq_ok hpdp
  obtain ⟨updates, hupdates⟩ : ∃ updates, pm.getDataItemsNoMac ctx.cfg = .ok updates := by
    unfold ProtocolMessage.getMac ProtocolMessage.getDataItemValue at hmac
    unfold ProtocolMessage.getDataItemsNoMac
    cases hid : ctx.cfg.getDataItemId .macAddress with
    | ok id => exact ⟨_, rfl⟩
    | error fault =>
      rw [hid] at hmac
      cases hmac
  obtain ⟨conflict, hconflict⟩ := validateIpDataItems_ok ctx hready ctx.localPdp.items.ipDataItems updates
  obtain ⟨ddp, hddp⟩ := Option.isSome_iff_exists.mp hheld
  generalize hpdp' : ({ pdp with destinationData := pdp.destinationData.set mac (ddp.update ctx.cfg
    updates) } : PeerData) = pdp'
  have hupdate : pdp.updateDestination ctx.cfg mac updates = some pdp' := by
    unfold PeerData.updateDestination
    rw [hddp]
    exact congrArg some hpdp'
  have hvalid := (PeerData.validDestination_updateDestination hupdate).2
  refine ⟨(s.setPdp pdp').call (.destinationUpdate s.peer.peerId mac updates), ?_, ?_⟩
  . unfold Session.handleDestinationUpdate
    rw [hmac]
    simp only [bind, Except.bind, hpeerPdp, hheld, ↓reduceIte, hupdates, hconflict, hupdate]
    rfl
  . constructor
    . rfl
    . rfl
    . refine ⟨pdp', rfl, ?_, ?_⟩
      . rw [hvalid]
        exact hheld
      . intro mac' _
        exact hvalid mac'
    . exact ⟨[.destinationUpdate s.peer.peerId mac updates], rfl, .inl rfl⟩

theorem handlePeerSignal_request (hcfg : ctx.cfg = protocol.router) (s : Session)
    (hrequest : Reads protocol true mac name none m pm)
    (hsender : protocol.cfg.allowsSender name true = true) (hname : name ≠ .sessionTermination)
    (hname' : name ≠ .sessionTerminationResponse)
    : s.handlePeerSignal ctx (some pm) = s.dispatch ctx pm := by
  have hpm := hrequest.name
  have hstatus : optional (pm.getStatus ctx.cfg) = .ok none := by
    rw [hcfg]
    exact hrequest.status
  apply handlePeerSignal_of_checked
  . rw [hpm, hcfg]
    exact hsender
  . apply checkStatusCodeFailure_of_name ctx s ?_ ?_ hstatus
    . simp
    . rw [hpm]
      exact hname
    . rw [hpm]
      exact hname'

end

end Link
end Dlep
end Emane

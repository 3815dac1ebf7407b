import Emane.Dlep.Lemmas.Run

/-!
This module contains what the handlers do to the queues of messages that wait for a response, and
with it what becomes of these messages in the course of a session.
-/

namespace Emane
namespace Dlep

namespace PeerData

variable {cfg : SessionConfig} {pdp pdp' : PeerData}

theorem OwesResponses.create (cfg : SessionConfig) (peerId : Option PeerId) (dataItems : List DataItem)
    : (PeerData.create cfg peerId dataItems).OwesResponses cfg := by
  intro mac ddp name hfind
  cases hfind

theorem OwesResponses.set (h : pdp.OwesResponses cfg) (mac : DlepMac) {ddp : DestinationData}
    (hddp : ∀ name, ddp.needsResponse = some name → cfg.IsResponse name)
    : ({ pdp with destinationData := pdp.destinationData.set mac ddp } : PeerData).OwesResponses cfg := by
  intro mac' ddp' name hfind hname
  simp only [SortedMap.find?_set] at hfind
  split at hfind
  . cases hfind
    exact hddp name hname
  . exact h mac' ddp' name hfind hname

variable {mac : DlepMac}

theorem OwesResponses.addDestination (h : pdp.OwesResponses cfg) {dataItems : List DataItem}
    (hadd : pdp.addDestination cfg mac dataItems = some pdp')
    : pdp'.OwesResponses cfg := by
  unfold PeerData.addDestination at hadd
  split at hadd
  . cases hadd
  . cases hadd
    apply h.set
    intro name hname
    cases hname

theorem OwesResponses.updateDestination (h : pdp.OwesResponses cfg) {updates : List DataItem}
    (hupdate : pdp.updateDestination cfg mac updates = some pdp')
    : pdp'.OwesResponses cfg := by
  unfold PeerData.updateDestination at hupdate
  split at hupdate
  . next ddp hfind =>
    cases hupdate
    apply h.set
    intro name hname
    exact h mac ddp name hfind hname
  . cases hupdate

theorem OwesResponses.removeDestination (h : pdp.OwesResponses cfg)
    (hremove : pdp.removeDestination mac = some pdp')
    : pdp'.OwesResponses cfg := by
  unfold PeerData.removeDestination at hremove
  split at hremove
  . cases hremove
    intro mac' ddp name hfind hname
    simp only [SortedMap.find?_erase] at hfind
    split at hfind
    . cases hfind
    . exact h mac' ddp name hfind hname
  . cases hremove

theorem OwesResponses.setNeedsResponse (h : pdp.OwesResponses cfg) (mac : DlepMac)
    {responseName : Option MessageName}
    (hname : ∀ name, responseName = some name → cfg.IsResponse name)
    : (pdp.setNeedsResponse mac responseName).OwesResponses cfg := by
  unfold PeerData.setNeedsResponse
  split
  . exact h.set mac hname
  . exact h

theorem OwesResponses.updateDataItems (h : pdp.OwesResponses cfg) (updates : List DataItem)
    : (pdp.updateDataItems cfg updates).2.OwesResponses cfg := by
  have hfold : ∀ (macs : List DlepMac) (items : List DataItem) (pdp : PeerData), pdp.OwesResponses cfg →
      (macs.foldl (fun pdp mac => (pdp.updateDestination cfg mac items).getD pdp) pdp).OwesResponses
          cfg := by
    intro macs items
    induction macs with
    | nil => exact fun _ h => h
    | cons mac macs ih =>
      intro pdp h
      apply ih
      simp only
      cases hupdate : pdp.updateDestination cfg mac items with
      | none => exact h
      | some pdp' => exact h.updateDestination hupdate
  unfold PeerData.updateDataItems
  split
  . exact h
  . simp only
    split
    . exact h
    . apply hfold
      exact h

end PeerData

namespace Session

variable {answers : ResponsePending → Prop} {s s' : Session} (ctx : Context)

theorem progress_setPdp (h : s.Sound ctx.cfg) {pdp : PeerData} (howes : pdp.OwesResponses ctx.cfg)
    : Progress ctx.cfg answers s (s.setPdp pdp) := by
  apply progress_of_eq h
  . rfl
  . rfl
  . rfl
  . intro pdp' hpdp'
    cases hpdp'
    exact howes

theorem progress_call_of_silent (h : s.Sound ctx.cfg) {c : Call} (hc : ∀ message, c ≠ .send message)
    : Progress ctx.cfg answers s (s.call c) := by
  apply progress_call h
  exact fun message hmessage => absurd hmessage (hc message)

section

variable (hsendTries : 1 ≤ ctx.cfg.sendTries)

include hsendTries

theorem Turn.progress (h : s.Sound ctx.cfg) {input : Input} (hturn : Turn ctx input false s s')
    : Progress ctx.cfg (fun rp => ∃ pm, input = .receive (some pm) ∧ pm.Answers ctx.cfg rp) s s' := by
  cases hturn with
  | other hstanding hpending hcalls hnotInterested =>
    apply progress_of_eq h hpending hcalls hnotInterested
    rw [show s'.peer.peerPdp = s.peer.peerPdp from congrArg Standing.peerPdp hstanding]
    exact h.owed
  | call hsend _ => exact progress_call_of_silent ctx h hsend
  | advert hsend _ => exact progress_call_of_silent ctx h hsend
  | send hname =>
    apply progress_call h
    intro message hmessage
    cases hmessage
    exact hname
  | expect hcreate hinterested =>
    obtain ⟨hcreate, hnew⟩ := create_eq hcreate
    exact progress_enqueue ctx h hsendTries hcreate hnew hinterested
  | resend hfind htries => exact progress_retransmit ctx h hfind htries
  | @answered pm mac _ _ hpm hmac hfind hname =>
    obtain ⟨hkey, _⟩ := h.of_find? hfind
    exact progress_popPending ctx h hsendTries hfind
      ⟨pm, Input.eq_receive hpm, hname.symm, mac, hmac, hkey.symm⟩
  | stop _ => exact progress_stopPeer ctx h
  | terminate hs' => exact (terminate_proceeds ctx hsendTries h _).of_ok hs'
  | bringUp _ =>
    apply progress_of_eq h
    . rfl
    . rfl
    . rfl
    . intro pdp hpdp
      cases hpdp
      exact .create ctx.cfg _ _
  | @owed pdp mac message hpdp hneeds =>
    have howes := h.owed pdp hpdp
    unfold PeerData.needsResponse at hneeds
    rw [Option.bind_eq_some_iff] at hneeds
    obtain ⟨ddp, hfind, hneeds⟩ := hneeds
    have hset : Progress ctx.cfg (fun rp => ∃ pm, input = .receive (some pm) ∧ pm.Answers ctx.cfg rp) s
        (s.setPdp (pdp.setNeedsResponse mac none)) := by
      apply progress_setPdp ctx h
      exact howes.setNeedsResponse mac (by simp)
    apply hset.trans
    apply progress_call hset.sound
    intro message' hmessage
    cases hmessage
    exact .inr (howes mac ddp message.name hfind hneeds)
  | setNeedsResponse hpdp mac hname =>
    apply progress_setPdp ctx h
    apply (h.owed _ hpdp).setNeedsResponse
    rintro name hsome
    cases hsome
    exact hname
  | addDestination hpdp _ hadd => exact progress_setPdp ctx h ((h.owed _ hpdp).addDestination hadd)
  | updateDestination hpdp _ hupdate =>
    exact progress_setPdp ctx h ((h.owed _ hpdp).updateDestination hupdate)
  | removeDestination hpdp _ hremove =>
    exact progress_setPdp ctx h ((h.owed _ hpdp).removeDestination hremove)
  | updateDataItems hpdp _ _ => exact progress_setPdp ctx h ((h.owed _ hpdp).updateDataItems _)
  | interested mac => exact progress_interested h mac
  | notInterested hqueue => exact progress_notInterested h (hqueue rfl)

theorem handle_proceeds (h : s.Sound ctx.cfg) {input : Input} (hblocks : s.blocks ctx input = false)
    : Proceeds ctx.cfg (fun rp => ∃ pm, input = .receive (some pm) ∧ pm.Answers ctx.cfg rp) s
        (s.handle ctx input) := by
  apply (s.handle_turns ctx input).mono _ (fun _ _ => trivial)
  intro s' hs'
  rw [hblocks] at hs'
  induction hs' with
  | refl => exact .refl h
  | tail _ hturn ih => exact ih.trans (hturn.progress ctx hsendTries ih.sound)

end

def Answered (cfg : SessionConfig) (events : List (Surroundings × Input)) (rp : ResponsePending) : Prop :=
  ∃ e ∈ events, ∃ pm, e.2 = .receive (some pm) ∧ pm.Answers cfg rp

def AnsweredBy (cfg : SessionConfig) (e : Surroundings × Input) (deeds : List Deed) : Prop :=
  ∀ rp, .queue (.pop rp) ∈ deeds → ∃ pm, e.2 = .receive (some pm) ∧ pm.Answers cfg rp

theorem run_does {cfg : SessionConfig} (hsendTries : 1 ≤ cfg.sendTries)
    {events : List (Surroundings × Input)}
    (hsound : s.Sound cfg) (hunblocked : s.Unblocked cfg)
    (hguarded : Guarded (step cfg) (fun s e => s.blocks (e.1.context cfg) e.2 = false) s events)
    (hrun : run (step cfg) s events = some s')
    : (∃ deeds, List.Forall₂ (AnsweredBy cfg) events deeds
        ∧ Does cfg (Answered cfg events) True deeds.flatten s s')
        ∧ s'.Unblocked cfg := by
  induction events generalizing s with
  | nil =>
    cases hrun
    exact ⟨⟨[], .nil, .nil rfl rfl⟩, hunblocked⟩
  | cons e events ih =>
    rw [run_cons, Option.bind_eq_some_iff] at hrun
    obtain ⟨s₁, hstep, hrun⟩ := hrun
    have hspec := handle_proceeds (e.1.context cfg) hsendTries hsound hguarded.1
    have hprogress : Progress cfg (fun rp => ∃ pm, e.2 = .receive (some pm) ∧ pm.Answers cfg rp) s s₁ :=
      hspec.of_toOption hstep
    obtain ⟨deeds, hdoes⟩ := hprogress.does
    obtain ⟨⟨deeds', hanswered, hdoes'⟩, hunblocked'⟩ :=
      ih hprogress.sound (hprogress.unblocked hunblocked) (hguarded.2 s₁ hstep) hrun
    refine ⟨⟨deeds :: deeds', .cons (fun rp hpop => (hdoes.allowed _ hpop).1) hanswered, ?_⟩, hunblocked'⟩
    rw [List.flatten_cons]
    apply Does.trans
    . apply hdoes.mono
      . rintro rp ⟨pm, hpm⟩
        exact ⟨e, List.mem_cons_self, pm, hpm⟩
      . exact fun _ => hunblocked
    . apply hdoes'.mono
      . rintro rp ⟨e', he', hpm⟩
        exact ⟨e', List.mem_cons_of_mem _ he', hpm⟩
      . exact id

/--
What was put into the queue of a destination is what has been answered and what still waits, and
the messages were sent in this order, each one as often as it counts. This is so in every run in
which the peer does not lose interest in a destination with more messages to come.
-/
theorem pending_sent_in_order {cfg : SessionConfig} (hsendTries : 1 ≤ cfg.sendTries)
    (peerId : PeerId) (now : Nat)
    (infoBase : SortedMap PeerId Nat) {events : List (Surroundings × Input)}
    (hguarded : Guarded (step cfg) (fun s e => s.blocks (e.1.context cfg) e.2 = false)
      (create peerId now infoBase) events)
    (hrun : run (step cfg) (create peerId now infoBase) events = some s)
    : ∃ deeds acts, acts = deeds.flatten.filterMap Deed.act?
        ∧ List.Forall₂ (AnsweredBy cfg) events deeds
        ∧ Does cfg (Answered cfg events) True deeds.flatten (create peerId now infoBase) s
        ∧ (∀ destination,
        ResponsePending.kind.queued destination acts
            =
          (ResponsePending.kind.answered destination acts
            ++ StopAndWait.queue s.peer.responsesPending destination).map ResponsePending.message
          ∧ ResponsePending.kind.sent destination acts
            =
          ResponsePending.kind.sendings
            (ResponsePending.kind.answered destination acts
              ++ StopAndWait.queue s.peer.responsesPending destination)
          ∧ (∀ rp ∈ ResponsePending.kind.answered destination acts, rp.Tried cfg ∧ Answered cfg events rp)
          ∧ s.peer.responsesPending.find? destination ≠ some []
          ∧ ∀ rp rest, s.peer.responsesPending.find? destination = some (rp :: rest) →
          rp.Tried cfg ∧ (∀ rp' ∈ rest, rp'.sendTries = 0) ∧ s.isNotInterested destination = false) := by
  have hsound : (create peerId now infoBase).Sound cfg := by
    constructor
    . intro destination rp hrp
      cases hrp
    . intro pdp hpdp
      cases hpdp
  have hempty : (create peerId now infoBase).Unblocked cfg := by
    constructor
    all_goals
      intro destination rp rest hfind
      cases hfind
  obtain ⟨⟨deeds, hanswered, hdoes⟩, hunblocked⟩ := run_does hsendTries hsound hempty hguarded hrun
  have hvalid : ∀ act ∈ deeds.flatten.filterMap Deed.act?, act.Valid ResponsePending.kind := by
    intro act hact
    rw [List.mem_filterMap] at hact
    obtain ⟨deed, hdeed, hact⟩ := hact
    have hallowed := hdoes.allowed deed hdeed
    cases deed with
    | call c => cases hact
    | queue act' =>
      obtain rfl := Option.some.inj hact
      cases act' with
      | push rp => exact (create_eq hallowed).2
      | send rp rp' => exact hallowed
      | pop rp => trivial
  have hledger := StopAndWait.ledger_empty.run hvalid hdoes.pending
  refine ⟨deeds, _, rfl, hanswered, hdoes, ?_⟩
  intro destination
  refine ⟨hledger.queued destination, hledger.sent destination, ?_, hledger.nonempty destination, ?_⟩
  . intro rp hrp
    unfold StopAndWait.answered at hrp
    rw [List.mem_filterMap] at hrp
    obtain ⟨act, hact, hrp⟩ := hrp
    rw [List.mem_filterMap] at hact
    obtain ⟨deed, hdeed, hact⟩ := hact
    have hallowed := hdoes.allowed deed hdeed
    cases deed with
    | call c => cases hact
    | queue act' =>
      obtain rfl := Option.some.inj hact
      cases act' with
      | push rp' => cases hrp
      | send rp' rp'' => cases hrp
      | pop rp' =>
        simp only at hrp
        split at hrp
        . cases hrp
          exact ⟨hallowed.2 trivial, hallowed.1⟩
        . cases hrp
  . intro rp rest hfind
    exact ⟨hunblocked.head destination rp rest hfind, hunblocked.tail destination rp rest hfind,
      hunblocked.interested destination rp rest hfind⟩

def answerMessage (name : MessageName) (mac : DlepMac) (status : UInt8) : ProtocolMessage where
  name := name
  dataItems := [⟨1, .div_u8_string status []⟩, ⟨7, .div_dlepmac mac⟩]

def exampleMac : DlepMac := [2, 0, 0, 0, 0, 1]

def emptyPdp : PeerData :=
  .create (Node.rfc8175 true) none []

def aroundModem (localPdp : PeerData) (now : Nat) : Surroundings where
  env := { Node.quietEnv with now := now }
  number := 0
  localPdp := localPdp
  peers := []

def exampleSurroundings (now : Nat) : Surroundings :=
  aroundModem ((emptyPdp.addDestination (Node.rfc8175 true) exampleMac []).getD emptyPdp) now

def exampleEvents : List (Surroundings × Input) :=
  [
    (aroundModem emptyPdp 1, .receive (some Node.initializationMessage)),
    (exampleSurroundings 1, .destinationUp exampleMac []),
    (aroundModem emptyPdp 1, .destinationDown exampleMac),
    (exampleSurroundings 1, .destinationUp exampleMac []),
    (exampleSurroundings 2, .receive (some (answerMessage .destinationUpResponse exampleMac 0)))
  ]

def tries (destination : DlepMac) (s : Session) : List (MessageName × Nat) :=
  (StopAndWait.queue s.peer.responsesPending destination).map (fun rp => (rp.message.name, rp.sendTries))

theorem pending_sent_in_order_up_down_up
    : ∃ s, run (step (Node.rfc8175 true)) (create 1 0 .empty) exampleEvents = some s
        ∧ s.tries exampleMac = [(.destinationDown, 1), (.destinationUp, 0)]
        ∧ s.isNotInterested exampleMac = false := by
  have hguarded : Guarded (step (Node.rfc8175 true))
    (fun s e => s.blocks (e.1.context (Node.rfc8175 true)) e.2 = false)
      (create 1 0 .empty) exampleEvents := by
    decide +kernel
  have hmap : (run (step (Node.rfc8175 true)) (create 1 0 .empty) exampleEvents).map (tries exampleMac)
      = some [(.destinationDown, 1), (.destinationUp, 0)] := by
    decide +kernel
  obtain ⟨s, hrun, htries⟩ := Option.map_eq_some_iff.mp hmap
  obtain ⟨deeds, acts, _, _, _, hall⟩ :=
    pending_sent_in_order (show 1 ≤ (Node.rfc8175 true).sendTries by decide) 1 0 .empty hguarded hrun
  obtain ⟨_, _, _, hnonempty, hhead⟩ := hall exampleMac
  refine ⟨s, hrun, htries, ?_⟩
  rcases hfind : s.peer.responsesPending.find? exampleMac with _ | _ | ⟨rp, rest⟩
  . unfold tries StopAndWait.queue at htries
    rw [hfind] at htries
    cases htries
  . exact absurd hfind hnonempty
  . exact (hhead rp rest hfind).2.2

theorem blocked_after_not_interested
    : ¬ ∀ (events : List (Surroundings × Input)) (s : Session),
          run (step (Node.rfc8175 true)) (create 1 0 .empty) events = some s →
          ∀ destination rp rest, s.peer.responsesPending.find? destination = some (rp :: rest) →
            1 ≤ rp.sendTries ∨ s.isNotInterested destination = false := by
  intro h
  have hmap : (run (step (Node.rfc8175 true)) (create 1 0 .empty)
      (exampleEvents ++ [
        (exampleSurroundings 3, .receive (some (answerMessage .destinationDown exampleMac 0))),
        (exampleSurroundings 4, .receive (some (answerMessage .destinationDownResponse exampleMac 0))),
        (exampleSurroundings 100, .acktivityTimeout)
      ])).map (fun s => (s.tries exampleMac, s.isNotInterested exampleMac)) = some
          ([(.destinationUp, 0)], true) := by
    decide +kernel
  obtain ⟨s, hrun, hstate⟩ := Option.map_eq_some_iff.mp hmap
  rw [Prod.mk.injEq] at hstate
  obtain ⟨htries, hnotInterested⟩ := hstate
  unfold tries StopAndWait.queue at htries
  rcases hfind : s.peer.responsesPending.find? exampleMac with _ | _ | ⟨rp, rest⟩
  . rw [hfind] at htries
    cases htries
  . rw [hfind] at htries
    cases htries
  . rw [hfind] at htries
    simp only [Option.getD_some, List.map_cons, List.cons.injEq, Prod.mk.injEq] at htries
    rcases h _ s hrun exampleMac rp rest hfind with hone | hfalse
    . omega
    . rw [hnotInterested] at hfalse
      cases hfalse

end Session
end Dlep
end Emane

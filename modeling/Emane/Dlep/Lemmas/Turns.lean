import Emane.Dlep.Lemmas.Pending

/-!
This module contains the turns of a session: whatever the code of a session does with an input is a
sequence of a few kinds of changes, and every one of them is allowed by the input.
-/

namespace Emane
namespace Dlep

def Call.concernsAdvert : Call → Bool
  | .peerUpdate _ _ | .advertAddDestination _ | .advertAddDataitem _ | .advertClearDestinations => true
  | _ => false

namespace Session

def Input.opens (cfg : SessionConfig) (input : Input) : Prop :=
  ∃ pm, input.handled cfg = some pm
    ∧ pm.name ∈ [.sessionInitialization, .sessionInitializationResponse, .sessionUpdate]

inductive Turn (ctx : Context) (input : Input) (blocked : Bool) : Session → Session → Prop
  | other {s s' : Session} (hstanding : s'.standing = s.standing)
      (hpending : s'.peer.responsesPending = s.peer.responsesPending) (hcalls : s'.calls = s.calls)
      (hnotInterested : s'.peer.notInterestedDestinations = s.peer.notInterestedDestinations)
    : Turn ctx input blocked s s'
  | call {s : Session} {c : Call} (hsend : ∀ message, c ≠ .send message)
    (hadvert : c.concernsAdvert = false)
    : Turn ctx input blocked s (s.call c)
  | advert {s : Session} {c : Call} (hsend : ∀ message, c ≠ .send message) (hopens : input.opens ctx.cfg)
    : Turn ctx input blocked s (s.call c)
  | send {s : Session} {message : Outgoing} (h : ctx.cfg.SentAtOnce message.name)
    : Turn ctx input blocked s (s.call (.send message))
  | expect {s : Session} {message : Outgoing} {rp : ResponsePending}
    (h : ResponsePending.create ctx.cfg message = .ok rp)
      (hinterested : s.isNotInterested rp.destination = false)
    : Turn ctx input blocked s (s.enqueue ctx rp)
  | resend {s : Session} {destination : DlepMac} {rp : ResponsePending} {rest : List ResponsePending}
      (hfind : s.peer.responsesPending.find? destination = some (rp :: rest))
        (htries : rp.sendTries < ctx.cfg.sendTries)
    : Turn ctx input blocked s (s.sendHead ctx destination)
  | answered {s : Session} {pm : ProtocolMessage} {mac : Option DlepMac} {rp : ResponsePending}
    {rest : List ResponsePending}
      (hpm : input.handled ctx.cfg = some pm) (hmac : optional (pm.getMac ctx.cfg) = .ok mac)
      (hfind : s.peer.responsesPending.find? (mac.getD []) = some (rp :: rest))
        (hname : rp.responseName = pm.name)
    : Turn ctx input blocked s (s.popPending ctx (mac.getD []) rest)
  | stop {s : Session} (h : input.stops ctx) : Turn ctx input blocked s (s.stopPeer ctx)
  | terminate {s s' : Session} {status : StatusName} (h : s.terminate ctx status = .ok s') : Turn
    ctx input blocked s s'
  | bringUp {s : Session} {dataItems : List DataItem} (h : input.bringsUp ctx s.peer.peerPdp dataItems)
    : Turn ctx input blocked s ((s.addPeer ctx dataItems).setState .inSession)
  | owed {s : Session} {pdp : PeerData} {mac : DlepMac} {message : Outgoing}
    (hpdp : s.peer.peerPdp = some pdp)
      (hneeds : pdp.needsResponse mac = some message.name)
    : Turn ctx input blocked s ((s.setPdp (pdp.setNeedsResponse mac none)).call (.send message))
  | setNeedsResponse {s : Session} {pdp : PeerData} {responseName : MessageName}
    (hpdp : s.peer.peerPdp = some pdp) (mac : DlepMac)
      (hname : ctx.cfg.IsResponse responseName)
    : Turn ctx input blocked s (s.setPdp (pdp.setNeedsResponse mac (some responseName)))
  | addDestination {s : Session} {pdp pdp' : PeerData} {mac : DlepMac} {dataItems : List DataItem}
      (hpdp : s.peer.peerPdp = some pdp) (hadds : input.adds ctx mac dataItems)
      (h : pdp.addDestination ctx.cfg mac dataItems = some pdp')
    : Turn ctx input blocked s (s.setPdp pdp')
  | updateDestination {s : Session} {pdp pdp' : PeerData} {mac : DlepMac} {dataItems : List DataItem}
      (hpdp : s.peer.peerPdp = some pdp) (hupdates : input.updates ctx mac dataItems)
      (h : pdp.updateDestination ctx.cfg mac dataItems = some pdp')
    : Turn ctx input blocked s (s.setPdp pdp')
  | removeDestination {s : Session} {pdp pdp' : PeerData} {mac : DlepMac}
    (hpdp : s.peer.peerPdp = some pdp)
      (hremoves : input.removes ctx) (h : pdp.removeDestination mac = some pdp')
    : Turn ctx input blocked s (s.setPdp pdp')
  | updateDataItems {s : Session} {pdp : PeerData} {dataItems : List DataItem}
    (hpdp : s.peer.peerPdp = some pdp)
      (hrevises : input.revises ctx dataItems)
        (hadmits : ctx.Admits s.peer.peerPdp pdp.items.ipDataItems dataItems)
    : Turn ctx input blocked s (s.setPdp (pdp.updateDataItems ctx.cfg dataItems).2)
  | interested {s : Session} (mac : DlepMac) : Turn ctx input blocked s (s.interested mac)
  | notInterested {s : Session} {mac : DlepMac}
    (h : blocked = false → StopAndWait.queue s.peer.responsesPending mac = [])
    : Turn ctx input blocked s (s.notInterested mac)

def Turns (ctx : Context) (input : Input) (blocked : Bool) : Session → Session → Prop :=
  Relation.ReflTransGen (Turn ctx input blocked)

namespace Turns

variable {ctx : Context} {input : Input} {blocked : Bool} {s s' s'' : Session}

theorem refl (s : Session) : Turns ctx input blocked s s := by
  exact Relation.ReflTransGen.refl

theorem trans (h : Turns ctx input blocked s s') (h' : Turns ctx input blocked s' s'')
    : Turns ctx input blocked s s'' := by
  exact Relation.ReflTransGen.trans h h'

theorem one (h : Turn ctx input blocked s s') : Turns ctx input blocked s s' := by
  exact .single h

theorem andThen {x : Except Fault Session} {fail : Fault → Prop} (h : Turns ctx input blocked s s')
    (h' : Ensures x (Turns ctx input blocked s') fail)
    : Ensures x (Turns ctx input blocked s) fail := by
  exact h'.mono (fun _ hs'' => h.trans hs'') (fun _ hfault => hfault)

theorem bind {x : Except Fault Session} {f : Session → Except Fault Session} {fail : Fault → Prop}
    (h : Ensures x (Turns ctx input blocked s) fail)
    (hf : ∀ s', Turns ctx input blocked s s' → Ensures (f s') (Turns ctx input blocked s') fail)
    : Ensures (x >>= f) (Turns ctx input blocked s) fail := by
  apply Ensures.bind h
  intro s' hs'
  exact hs'.andThen (hf s' hs')

theorem all {R : Session → Session → Prop} (hrefl : ∀ s, R s s)
    (htrans : ∀ {s s' s''}, R s s' → R s' s'' → R s s'')
    (hturn : ∀ {s s'}, Turn ctx input blocked s s' → R s s') (h : Turns ctx input blocked s s')
    : R s s' := by
  induction h with
  | refl => exact hrefl s
  | tail _ hlast ih => exact htrans ih (hturn hlast)

end Turns

theorem Input.eq_receive {cfg : SessionConfig} {input : Input} {pm : ProtocolMessage}
    (h : input.handled cfg = some pm)
    : input = .receive (some pm) := by
  unfold Input.handled Session.handled at h
  split at h
  . split at h
    . split at h
      . exact congrArg (fun pm => Input.receive (some pm)) (Option.some.inj h)
      . cases h
    . cases h
  . cases h

def Input.raises (cfg : SessionConfig) (input : Input) : Prop :=
  ∃ pm, input.handled cfg = some pm ∧ pm.name.bringsUp

def Input.addsData (cfg : SessionConfig) (input : Input) : Prop :=
  ∃ pm, input.handled cfg = some pm ∧ pm.name.addsData cfg.modem

theorem evolves_of_standing {news : Nat → Prop} {up add : Prop} {s s' : Session}
    (h : s'.standing = s.standing)
    : Evolves news up add s s' := by
  exact .of_eq (congrArg Standing.peerId h) (congrArg Standing.pstate h)
    (congrArg Standing.peerPdp h) (congrArg Standing.infoBase h)

theorem evolves_of_ended {news : Nat → Prop} {up add : Prop} {s s' : Session}
    (h : s'.standing = s.standing.stop ∨ s'.standing = s.standing.terminate)
    : Evolves news up add s s' := by
  have hpdp : s'.peer.peerPdp = s.peer.peerPdp := by
    rcases h with h | h
    . exact congrArg Standing.peerPdp h
    . exact congrArg Standing.peerPdp h
  constructor
  . rcases h with h | h
    . exact congrArg Standing.peerId h
    . exact congrArg Standing.peerId h
  . refine Or.inr (Or.inl ?_)
    rcases h with h | h
    . exact congrArg Standing.pstate h
    . exact congrArg Standing.pstate h
  . exact fun hsome => hpdp ▸ hsome
  . exact Or.inr (hpdp ▸ .refl _)
  . intro id number hfind
    refine Or.inl ?_
    rcases h with h | h
    . rw [show s'.infoBase = s.infoBase from congrArg Standing.infoBase h] at hfind
      exact hfind
    . rw [show s'.infoBase = s.infoBase.erase s.peer.peerId from congrArg Standing.infoBase h,
        SortedMap.find?_erase] at hfind
      split at hfind
      . cases hfind
      . exact hfind

variable {ctx : Context} {input : Input} {blocked : Bool} {s s' : Session}

theorem Turn.evolves (h : Turn ctx input blocked s s')
    : Evolves (fun number => input.raises ctx.cfg ∧ number = ctx.self) (input.raises ctx.cfg) (input.addsData ctx.cfg) s s' := by
  have hadd : ∀ pdp, input.addsData ctx.cfg →
      Evolves (fun number => input.raises ctx.cfg ∧ number = ctx.self) (input.raises ctx.cfg) (input.addsData ctx.cfg) s (s.setPdp pdp) :=
    fun pdp hadds => (Evolves.setPdp_add pdp s).mono (fun _ hnews => hnews) id (fun _ => hadds)
  cases h with
  | other hstanding _ _ _ => exact evolves_of_standing hstanding
  | call _ _ => exact evolves_of_standing rfl
  | advert _ _ => exact evolves_of_standing rfl
  | send _ => exact evolves_of_standing rfl
  | expect _ _ => exact evolves_of_standing (by simp)
  | resend _ _ => exact evolves_of_standing (by simp)
  | answered _ _ _ _ => exact evolves_of_standing (by simp)
  | interested _ => exact evolves_of_standing rfl
  | notInterested _ => exact evolves_of_standing rfl
  | stop _ => exact evolves_of_ended (Or.inl (s.standing_stopPeer ctx))
  | terminate h =>
    have hs' := (s.standing_terminate ctx _).of_ok h
    split at hs'
    . exact evolves_of_standing hs'
    . exact evolves_of_ended (Or.inr hs')
  | bringUp h =>
    obtain ⟨pm, hpm, hname⟩ := h
    have hup : pm.name.bringsUp = true ∧ pm.name.addsData ctx.cfg.modem = true := by
      rcases hname with ⟨hname, _⟩ | ⟨hname, _⟩
      all_goals
        rw [hname]
        exact ⟨rfl, rfl⟩
    constructor
    . rfl
    . exact Or.inr (Or.inr ⟨⟨pm, hpm, hup.1⟩, rfl, fun hnone => by cases hnone⟩)
    . exact fun _ hnone => by cases hnone
    . exact Or.inl ⟨pm, hpm, hup.2⟩
    . intro id number hfind
      change (s.infoBase.set s.peer.peerId ctx.self).find? id = some number at hfind
      rw [SortedMap.find?_set] at hfind
      split at hfind
      . exact Or.inr ⟨⟨pm, hpm, hup.1⟩, (Option.some.inj hfind).symm⟩
      . exact Or.inl hfind
  | owed hpdp _ => exact (Evolves.setPdp_data hpdp (.setNeedsResponse _ _ none)).trans (evolves_of_standing rfl)
  | setNeedsResponse hpdp mac _ => exact .setPdp_data hpdp (.setNeedsResponse _ mac _)
  | removeDestination hpdp _ h => exact .setPdp_data hpdp (.removeDestination h)
  | addDestination _ hadds _ =>
    obtain ⟨pm, hpm, hname, _⟩ := hadds
    refine hadd _ ⟨pm, hpm, ?_⟩
    cases hkind : pm.name
    all_goals simp_all [MessageName.addsDestination, MessageName.addsData]
  | updateDestination _ hupdates _ =>
    obtain ⟨pm, hpm, hname, _⟩ := hupdates
    refine hadd _ ⟨pm, hpm, ?_⟩
    cases hkind : pm.name
    all_goals simp_all [MessageName.updatesDestination, MessageName.addsData]
  | updateDataItems _ hrevises _ =>
    obtain ⟨pm, hpm, hname, _⟩ := hrevises
    exact hadd _ ⟨pm, hpm, by rw [hname]; rfl⟩

theorem Turns.evolves (h : Turns ctx input blocked s s')
    : Evolves (fun number => input.raises ctx.cfg ∧ number = ctx.self) (input.raises ctx.cfg)
        (input.addsData ctx.cfg) s s' := by
  exact h.all (fun s => .refl _ _ _ s) .trans Turn.evolves

theorem Turn.reaches (h : Turn ctx input blocked s s') : Reaches ctx input s s' := by
  cases h with
  | other hstanding _ _ _ => exact .of_eq hstanding
  | call _ _ => exact .of_eq rfl
  | advert _ _ => exact .of_eq rfl
  | send _ => exact .of_eq rfl
  | expect _ _ => exact .of_eq (by simp)
  | resend _ _ => exact .of_eq (by simp)
  | answered _ _ _ _ => exact .of_eq (by simp)
  | interested _ => exact .of_eq rfl
  | notInterested _ => exact .of_eq rfl
  | stop h =>
    apply Reaches.move
    rw [standing_stopPeer]
    exact .stop h
  | terminate h =>
    have hs' := (s.standing_terminate ctx _).of_ok h
    split at hs'
    . exact .of_eq hs'
    . next hpstate =>
      apply Reaches.move
      rw [hs']
      exact .terminate hpstate
  | bringUp h => exact .move (.bringUp h)
  | owed hpdp _ => exact .move (.setNeedsResponse hpdp _ none)
  | setNeedsResponse hpdp mac _ => exact .move (.setNeedsResponse hpdp mac _)
  | addDestination hpdp hadds h => exact .move (.addDestination hpdp hadds h)
  | updateDestination hpdp hupdates h => exact .move (.updateDestination hpdp hupdates h)
  | removeDestination hpdp hremoves h => exact .move (.removeDestination hpdp hremoves h)
  | updateDataItems hpdp hrevises hadmits => exact .move (.updateDataItems hpdp hrevises hadmits)

theorem Turns.reaches (h : Turns ctx input blocked s s') : Reaches ctx input s s' := by
  exact h.all .refl .trans Turn.reaches

theorem Turns.peerPdp (h : Turns ctx input blocked s s') {r : Prop} (hr : s.peer.peerPdp = none → r)
    (hnone : s'.peer.peerPdp = none) : r := by
  by_contra hnot
  exact h.evolves.peerPdp (fun hnone' => hnot (hr hnone')) hnone

section

variable (ctx : Context)

theorem findIpOwner_eq_none {di : DataItem} {s : Session} {peers : List (Nat × Peer)}
    (h : findIpOwner ctx di s peers = .ok none)
    : ∀ e ∈ peers, ∀ pdp, (if e.1 = ctx.self then s.peer.peerPdp else e.2.peerPdp) = some pdp
        → pdp.findIpDataItem di = none := by
  induction peers with
  | nil =>
    intro e he
    cases he
  | cons e peers ih =>
    unfold findIpOwner at h
    split at h
    . cases h
    . next pdp hpdp =>
      split at h
      . cases h
      . next hnone =>
        intro e' he' pdp' hpdp'
        rcases List.mem_cons.mp he' with rfl | hmem
        . rw [apply_ite Peer.peerPdp, hpdp'] at hpdp
          rw [Option.some.inj hpdp]
          exact hnone
        . exact ih h e' hmem pdp' hpdp'

theorem admits_of_validate {existing dataItems : List DataItem} {s : Session}
    (h : validateIpDataItems ctx existing s dataItems = .ok none)
    : ctx.Admits s.peer.peerPdp existing dataItems := by
  induction dataItems with
  | nil =>
    intro di hdi
    cases hdi
  | cons ndi dataItems ih =>
    unfold validateIpDataItems at h
    intro di hdi haddress
    split at h
    . split at h
      . cases h
      . cases h
      . next hndi =>
        rcases List.mem_cons.mp hdi with rfl | hmem
        . unfold validateIpDataItem at hndi
          constructor
          . intro hadd
            rw [if_pos hadd] at hndi
            split at hndi
            . cases hndi
            . next hlocal =>
              refine ⟨hlocal, findIpOwner_eq_none ctx ?_⟩
              cases hfind : findIpOwner ctx di s ctx.peers with
              | error fault =>
                rw [hfind] at hndi
                cases hndi
              | ok owner =>
                cases owner with
                | none => rfl
                | some owner =>
                  rw [hfind] at hndi
                  cases hndi
          . intro hdrop
            rw [if_neg (by simp [hdrop])] at hndi
            split at hndi
            . next hfind => exact hfind
            . cases hndi
        . exact ih h di hmem haddress
    . next hother =>
      rcases List.mem_cons.mp hdi with rfl | hmem
      . exact absurd haddress hother
      . exact ih h di hmem haddress

end

def Input.Unhandled (ctx : Context) (s : Session) : Input → Prop
  | .receive signal => ∃ pm, Session.handled ctx.cfg signal = some pm ∧ s.Unhandled ctx pm
  | .destinationUp _ _ | .removeDestination _ => s.peer.peerPdp = none
  | _ => False

section

variable (ctx : Context) (input : Input) (blocked : Bool) {r : Prop} (s : Session)

theorem sendSimpleResponse_turns {name : MessageName} (hname : ctx.cfg.SentAtOnce name)
    (status : Option StatusName) (mac : Option DlepMac)
    : Turns ctx input blocked s (s.sendSimpleResponse ctx name status mac) := by
  unfold sendSimpleResponse
  split
  . exact .one (.send hname)
  . exact .refl s

theorem sendMessageExpectingResponse_turns (message : Outgoing)
    : Ensures (s.sendMessageExpectingResponse ctx message) (Turns ctx input blocked s) (NullIf r) := by
  have hcreate := create_neverNull ctx.cfg message
  unfold sendMessageExpectingResponse
  split
  . next fault heq => exact .error (fun hnull => (hcreate.of_error heq hnull).elim)
  . next rp heq =>
    apply Ensures.ok
    split
    . exact .refl s
    . next hinterested => exact .one (.expect heq (Bool.eq_false_iff.mpr hinterested))

theorem terminate_turns (status : StatusName)
    : Ensures (s.terminate ctx status) (Turns ctx input blocked s) (NullIf r) := by
  have hnever : Ensures (s.terminate ctx status) (fun _ => True) (NullIf r) := by
    unfold terminate
    split
    . trivial
    . exact (sendMessageExpectingResponse_turns ctx input blocked _ _).bind (fun _ _ => trivial)
  cases hs : s.terminate ctx status with
  | ok s' => exact .ok (.one (.terminate hs))
  | error fault => exact .error (hnever.of_error hs)

theorem linkCharacteristicsResponse_turns (mac : DlepMac) (updates : List DataItem)
    : Ensures (s.linkCharacteristicsResponse ctx mac updates) (Turns ctx input blocked s) (NullIf r) := by
  unfold linkCharacteristicsResponse
  split
  . apply Outgoing.create_neverNull.then_ensures
    intro message hmessage
    obtain rfl := Outgoing.eq_of_create hmessage
    exact .ok (.one (.send (.inl (by simp))))
  . exact .ok (.refl s)

theorem destinationUp_turns (hr : s.peer.peerPdp = none → r) (mac : DlepMac) (dataItems : List DataItem)
    : Ensures (s.destinationUp ctx mac dataItems) (Turns ctx input blocked s) (NullIf r) := by
  apply peerPdp_then hr
  intro pdp hpdp
  split
  . next responseName hneeds =>
    apply Outgoing.create_neverNull.then_ensures
    intro message hmessage
    obtain rfl := Outgoing.eq_of_create hmessage
    exact .ok (.one (.owed hpdp hneeds))
  . exact Outgoing.create_neverNull.then_ensures
      (fun message _ => s.sendMessageExpectingResponse_turns ctx input blocked message)

theorem checkForRetransmits_go_turns (destinations : List DlepMac) (s : Session)
    : Ensures (checkForRetransmits.go ctx destinations s) (Turns ctx input blocked s) (NullIf r) := by
  induction destinations generalizing s with
  | nil => exact .ok (.refl s)
  | cons destination destinations ih =>
    unfold checkForRetransmits.go
    split
    . next rp rest hfind =>
      split
      . split
        . next htries => exact (Turns.one (.resend hfind htries)).andThen (ih _)
        . exact s.terminate_turns ctx input blocked .timedOut
      . exact ih s
    . exact ih s

theorem handleAcktivityTimeout_turns
    : Ensures (s.handleAcktivityTimeout ctx) (Turns ctx input blocked s) (NullIf r) := by
  have hactivity : Ensures (s.checkForActivity ctx) (fun res => Turns ctx input blocked s res.2)
      (NullIf r) := by
    unfold checkForActivity
    split
    . exact .ok (.refl s)
    . split
      . exact (s.terminate_turns ctx input blocked .timedOut).map (fun _ hs' => hs')
      . exact .ok (.refl s)
  apply hactivity.bind
  rintro ⟨active, s'⟩ hs'
  simp only
  split
  . exact hs'.andThen (s'.checkForRetransmits_go_turns ctx input blocked _)
  . exact .ok hs'

theorem storePeerInfo_turns (pm : ProtocolMessage)
    : Ensures (s.storePeerInfo ctx pm)
        (fun s' => s'.standing = s.standing ∧ Turns ctx input blocked s s') (NullIf r) := by
  apply (pm.getPeerType_neverNull ctx.cfg).optional.then_ensures
  intro peerType _
  apply (pm.getExperimentNames_neverNull ctx.cfg).optionalName.then_ensures
  intro experimentNames _
  apply (pm.getHeartbeatInterval_neverNull ctx.cfg).then_ensures
  intro interval _
  exact .ok ⟨rfl, .one (.other rfl rfl rfl rfl)⟩

theorem sendPeerInitializationResponse_turns
    : Ensures (s.sendPeerInitializationResponse ctx)
        (fun s' => Turns ctx input blocked (s.setState .inSession) (s'.setState .inSession))
            (NullIf r) := by
  apply (ctx.cfg.getSignalInfo_neverNull .sessionInitializationResponse).then_ensures
  intro info _
  split
  . exact .ok (.one (.send (.inl (by simp))))
  . exact .ok (.refl _)

theorem bringUp_turns (hr : s.peer.peerPdp = none → r) (dataItems : List DataItem → List DataItem)
    : Ensures (s.bringUp ctx dataItems) (Turns ctx input blocked (s.setState .inSession)) (NullIf r) := by
  apply ((s.setState .inSession).getInfo_ensures.mono (fun _ htrue => htrue) (NullIf.mono hr)).bind
  intro info _
  apply (Turns.one (.call (c := .peerUp { info with dataItems := dataItems info.dataItems })
    (by simp) rfl)).andThen
  apply Ensures.foldlM
  . intro s' e _ hs'
    exact hs'.andThen (s'.destinationUp_turns ctx input blocked (hs'.peerPdp hr) _ _)
  . exact .refl _

variable {pm : ProtocolMessage} (hpm : input.handled ctx.cfg = some pm)

include hpm

theorem handleResponse_turns
    : Ensures (s.handleResponse ctx pm)
        (fun res => Turns ctx input blocked s res.2
          ∧ (res.1 = true → ∃ mac rp rest, optional (pm.getMac ctx.cfg) = .ok mac
          ∧ s.peer.responsesPending.find? (mac.getD []) = some (rp :: rest)
          ∧ rp.responseName = pm.name
          ∧ res.2 = s.popPending ctx (mac.getD []) rest))
        (NullIf r) := by
  apply (pm.getMac_neverNull ctx.cfg).optional.then_ensures
  intro mac hmac
  have hterminate : Ensures ((s.terminate ctx .unexpectedMessage) >>= fun s => pure (false, s))
      (fun res : Bool × Session => Turns ctx input blocked s res.2
          ∧ (res.1 = true → ∃ mac rp rest, optional (pm.getMac ctx.cfg) = .ok mac
          ∧ s.peer.responsesPending.find? (mac.getD []) = some (rp :: rest)
          ∧ rp.responseName = pm.name
          ∧ res.2 = s.popPending ctx (mac.getD []) rest))
      (NullIf r) := by
    apply (s.terminate_turns ctx input blocked .unexpectedMessage).bind
    exact fun s' hs' => .ok ⟨hs', fun hexpected => by cases hexpected⟩
  simp only
  split
  . next rp rest hfind =>
    split
    . next hname => exact .ok ⟨.one (.answered hpm hmac hfind hname),
        fun _ => ⟨mac, rp, rest, hmac, hfind, hname, rfl⟩⟩
    . exact hterminate
  . exact hterminate

theorem acceptInitialization_turns (hname : pm.name = .sessionInitialization)
    (hadmits : ctx.Admits s.peer.peerPdp [] pm.dataItems)
    : Ensures (s.acceptInitialization ctx pm) (Turns ctx input blocked s) (NullIf r) := by
  apply (s.storePeerInfo_turns ctx input blocked pm).bind
  rintro s₁ ⟨hstanding, hs₁⟩
  apply (pm.getExtensions_neverNull ctx.cfg).optional.then_ensures
  intro extensions _
  generalize hs₂ : s₁.addMutualExtensions ctx (extensions.getD []) = s₂
  have hother : Turns ctx input blocked s₁ s₂ := by
    rw [← hs₂]
    exact .one (.other rfl rfl rfl rfl)
  have hpdp : s₂.peer.peerPdp = s.peer.peerPdp := by
    rw [← hs₂]
    exact congrArg Standing.peerPdp hstanding
  have hup : Turns ctx input blocked s₂ ((s₂.addPeer ctx []).setState .inSession) := by
    refine .one (.bringUp ⟨pm, hpm, Or.inl ⟨hname, rfl, ?_⟩⟩)
    rw [hpdp]
    exact hadmits
  apply (sendPeerInitializationResponse_turns ctx input blocked (s₂.addPeer ctx [])).bind
  intro s₃ hs₃
  have hall := ((hs₁.trans hother).trans hup).trans hs₃
  apply Turns.bind (hall.andThen
    (s₃.bringUp_turns ctx input blocked (hs₃.peerPdp (fun hnone => by cases hnone)) id))
  intro s₄ _
  apply Ensures.ok
  unfold advertisePeer
  split
  . exact .one (.advert (by simp) ⟨pm, hpm, by simp [hname]⟩)
  . exact .refl s₄

theorem handlePeerInitialization_turns (hname : pm.name = .sessionInitialization)
    (hr : AsksPeers ctx.cfg ctx.localPdp pm.dataItems ∧ ctx.Unready s → r)
    : Ensures (s.handlePeerInitialization ctx pm) (Turns ctx input blocked s) (NullIf r) := by
  apply validate_then ctx hr
  intro conflict hvalidate
  split
  . exact s.terminate_turns ctx input blocked .invalidData
  . exact s.acceptInitialization_turns ctx input blocked hpm hname (admits_of_validate ctx hvalidate)

theorem handlePeerInitializationResponse_turns (hname : pm.name = .sessionInitializationResponse)
    : Ensures (s.handlePeerInitializationResponse ctx pm) (Turns ctx input blocked s) (NullIf r) := by
  apply (s.handleResponse_turns ctx input blocked hpm).bind
  rintro ⟨expected, s₁⟩ ⟨hs₁, _⟩
  simp only
  split
  . apply hs₁.andThen
    apply (s₁.storePeerInfo_turns ctx input blocked pm).bind
    rintro s₂ ⟨_, hs₂⟩
    apply (pm.getExtensions_neverNull ctx.cfg).optional.then_ensures
    intro extensions _
    generalize hs₃ : s₂.setMutualExtensions (extensions.getD s₂.peer.mutualExtensions) = s₃
    have hother : Turns ctx input blocked s₂ s₃ := by
      rw [← hs₃]
      exact .one (.other rfl rfl rfl rfl)
    have hup : Turns ctx input blocked s₃
        ((s₃.addPeer ctx (pm.getMetricsAndIpaddrs ctx.cfg)).setState .inSession) :=
      .one (.bringUp ⟨pm, hpm, Or.inr ⟨hname, rfl⟩⟩)
    exact ((hs₂.trans hother).trans hup).andThen
      (bringUp_turns ctx input blocked _ (fun hnone => by cases hnone) _)
  . exact .ok hs₁

theorem handlePeerUpdate_turns (hname : pm.name = .sessionUpdate)
    (hr : s.peer.peerPdp = none ∨ (AsksPeers ctx.cfg ctx.localPdp pm.dataItems ∧ ctx.Unready s) → r)
    : Ensures (s.handlePeerUpdate ctx pm) (Turns ctx input blocked s) (NullIf r) := by
  have hopens : input.opens ctx.cfg := ⟨pm, hpm, by simp [hname]⟩
  apply peerPdp_then (fun h => hr (Or.inl h))
  intro pdp hpdp
  apply validate_then ctx (fun h => hr (Or.inr h))
  intro conflict hvalidate
  split
  . exact s.terminate_turns ctx input blocked .invalidData
  . have hadvert : ∀ (dataItems : List DataItem) (s' : Session),
        Turns ctx input blocked s' (dataItems.foldl (fun s di => s.call (.advertAddDataitem di)) s') := by
      intro dataItems
      induction dataItems with
      | nil => exact fun s' => .refl s'
      | cons di dataItems ih => exact fun s' => (Turns.one (.advert (by simp) hopens)).trans (ih _)
    have hset : Turns ctx input blocked s (s.setPdp (pdp.updateDataItems ctx.cfg pm.dataItems).2) :=
      .one (.updateDataItems hpdp ⟨pm, hpm, hname, rfl⟩ (admits_of_validate ctx hvalidate))
    have hcall := hset.trans
      (.one (.advert (c := .peerUpdate s.peer.peerId pm.dataItems) (by simp) hopens))
    apply Ensures.ok
    split
    . exact (hcall.trans (hadvert _ _)).trans
        (sendSimpleResponse_turns ctx input blocked _ (.inl (by simp)) _ _)
    . exact hcall.trans (sendSimpleResponse_turns ctx input blocked _ (.inl (by simp)) _ _)

theorem handlePeerTermination_turns (hname : pm.name = .sessionTermination)
    : Turns ctx input blocked s (s.handlePeerTermination ctx) := by
  exact (s.sendSimpleResponse_turns ctx input blocked (.inl (by simp)) _ _).trans
    (.one (.stop (Or.inr ⟨pm, hpm, hname⟩)))

omit hpm in
theorem handleResponse_terminating {s : Session} (hterminating : s.peer.pstate = .terminating)
    (pm : ProtocolMessage)
    : Ensures (s.handleResponse ctx pm) (fun res => res.2.standing = s.standing) (fun _ => True) := by
  have hterminate : s.terminate ctx .unexpectedMessage = .ok s := by
    simp [terminate, hterminating]
  apply ensures_of_any
  intro mac _
  simp only [hterminate]
  split
  . split
    . exact .ok (by simp)
    . exact .ok rfl
  . exact .ok rfl

theorem handlePeerTerminationResponse_turns
    : Ensures (s.handlePeerTerminationResponse ctx pm) (Turns ctx input blocked s) (NullIf r) := by
  unfold handlePeerTerminationResponse
  split
  . next hterminating =>
    apply ((s.handleResponse_turns ctx input blocked hpm).and
      (handleResponse_terminating ctx hterminating pm)).bind
    rintro ⟨expected, s₁⟩ ⟨⟨hs₁, _⟩, hsame⟩
    have hstill : s₁.peer.pstate = .terminating := (congrArg Standing.pstate hsame).trans hterminating
    have hstop : s₁.stopPeer ctx = s₁ := by
      unfold stopPeer setStateTerminating
      rw [if_pos hstill]
    apply Ensures.ok
    rw [hstop]
    exact hs₁
  . exact .ok (.refl s)

theorem acceptDestination_turns (hr : s.peer.peerPdp = none → r) {mac : DlepMac} (hmac : pm.getMac ctx.cfg = .ok mac)
    (hadds : ctx.env.clientStatus = .success → pm.name.addsDestination ctx.cfg.modem ctx.env.clientStatus = true)
    : Ensures (s.acceptDestination ctx mac pm.dataItems) (Turns ctx input blocked s) (NullIf r) := by
  have hcall : Turns ctx input blocked s ((s.interested mac).call (.destinationUp s.peer.peerId mac pm.dataItems)) :=
    (Turns.one (.interested mac)).trans (.one (.call (by simp) rfl))
  unfold acceptDestination
  split
  . next hclient =>
    apply peerPdp_then hr
    intro pdp hpdp
    split
    . next pdp' hadd => exact .ok (hcall.trans (.one (.addDestination hpdp ⟨pm, hpm, hadds hclient, hmac, rfl⟩ hadd)))
    . exact .error (fun h => by cases h)
  . exact .ok hcall

omit hpm in
theorem respond_turns (request : MessageName) (status : StatusName) (mac : DlepMac)
    : Ensures
        (ctx.cfg.getMessageResponseName request >>= fun name =>
          match name with
          | some name => pure (s.sendSimpleResponse ctx name (some status) (some mac))
          | none => pure s)
        (Turns ctx input blocked s) (NullIf r) := by
  apply (ctx.cfg.getMessageResponseName_neverNull request).then_ensures
  intro name hname
  split
  . exact .ok (s.sendSimpleResponse_turns ctx input blocked (.inr ⟨request, hname⟩) _ _)
  . exact .ok (.refl s)

theorem handleDestinationUp_turns
    (hadds : ctx.env.clientStatus = .success
      → pm.name.addsDestination ctx.cfg.modem ctx.env.clientStatus = true)
    (hr : s.peer.peerPdp = none ∨ (AsksPeers ctx.cfg ctx.localPdp pm.dataItems ∧ ctx.Unready s) → r)
    : Ensures (s.handleDestinationUp ctx pm) (Turns ctx input blocked s) (NullIf r) := by
  apply (pm.getMac_neverNull ctx.cfg).then_ensures
  intro mac hmac
  apply peerPdp_then (fun h => hr (Or.inl h))
  intro pdp _
  split
  . exact s.respond_turns ctx input blocked _ _ mac
  . apply validate_then ctx (fun h => hr (Or.inr h))
    intro conflict _
    apply Turns.bind (s.acceptDestination_turns ctx input blocked hpm (fun h => hr (Or.inl h)) hmac hadds)
    exact fun s₁ _ => s₁.respond_turns ctx input blocked _ _ mac

theorem handleDestinationUpResponse_turns
    (hadds : ctx.cfg.modem = false → ctx.env.clientStatus = .success →
      pm.name.addsDestination ctx.cfg.modem ctx.env.clientStatus = true)
    (hinterest : blocked = false → ∀ mac rp rest info, pm.getMac ctx.cfg = .ok mac
      → pm.getStatus ctx.cfg = .ok info →
      info.name = .notInterested → s.peer.responsesPending.find? mac = some (rp :: rest)
        → rp.responseName = pm.name → rest = [])
    (hr : ctx.cfg.modem = false →
      s.peer.peerPdp = none ∨ (AsksPeers ctx.cfg ctx.localPdp pm.dataItems ∧ ctx.Unready s) → r)
    : Ensures (s.handleDestinationUpResponse ctx pm) (Turns ctx input blocked s) (NullIf r) := by
  apply (pm.getMac_neverNull ctx.cfg).then_ensures
  intro mac hmac
  have hoptional : optional (pm.getMac ctx.cfg) = .ok (some mac) := by
    rw [hmac]
    rfl
  apply (s.handleResponse_turns ctx input blocked hpm).bind
  rintro ⟨expected, s₁⟩ ⟨hs₁, hexpected⟩
  simp only
  split
  . next htrue =>
    obtain ⟨mac', rp, rest, hmac', hfind, hname, hpop⟩ := hexpected htrue
    rw [hoptional] at hmac'
    cases hmac'
    apply (pm.getStatus_neverNull ctx.cfg).optional.then_ensures
    intro status hstatus
    have hlost : Turns ctx input blocked s₁
        (if (status.map (fun info => info.name)).getD .success = .notInterested
            then s₁.notInterested mac else s₁) := by
      split
      . next hnotInterested =>
        cases status with
        | none => cases hnotInterested
        | some info =>
          refine .one (.notInterested (fun hblocked => ?_))
          obtain rfl := hinterest hblocked mac rp rest info hmac
            (optional_eq_some hstatus) hnotInterested hfind hname
          simp only at hpop
          rw [hpop]
          change StopAndWait.queue (s.peer.responsesPending.erase mac) mac = []
          rw [StopAndWait.queue_erase, if_pos rfl]
      . exact .refl s₁
    have hall := hs₁.trans hlost
    generalize (if (status.map (fun info => info.name)).getD .success = .notInterested
      then s₁.notInterested mac else s₁) = s₂
      at hall ⊢
    split
    . next hrouter =>
      have hmodem : ctx.cfg.modem = false := by simpa using hrouter.2
      apply hall.andThen
      apply s₂.handleDestinationUp_turns ctx input blocked hpm (hadds hmodem)
      rintro (hnone | ⟨hasks, hunready⟩)
      . exact hall.peerPdp (fun hnone => hr hmodem (Or.inl hnone)) hnone
      . exact hr hmodem (Or.inr ⟨hasks, hunready.of_evolves hall.evolves⟩)
    . exact .ok hall
  . exact .ok hs₁

omit hpm in
theorem answerAnnounce_turns (hr : s.peer.peerPdp = none → r) (mac : DlepMac) {responseName : MessageName}
    (hname : ctx.cfg.IsResponse responseName) (status : StatusName)
    : Ensures (s.answerAnnounce ctx mac responseName status) (Turns ctx input blocked s) (NullIf r) := by
  unfold answerAnnounce
  split
  . apply peerPdp_then hr
    exact fun pdp hpdp => .ok (.one (.setNeedsResponse hpdp mac hname))
  . exact .ok (s.sendSimpleResponse_turns ctx input blocked (.inr hname) _ _)

theorem handleDestinationAnnounce_turns
    (hadds : pm.name.addsDestination ctx.cfg.modem ctx.env.clientStatus = true)
    (hr : s.peer.peerPdp = none → r)
    : Ensures (s.handleDestinationAnnounce ctx pm) (Turns ctx input blocked s) (NullIf r) := by
  apply (pm.getMac_neverNull ctx.cfg).then_ensures
  intro mac hmac
  apply (ctx.cfg.getMessageResponseName_neverNull pm.name).then_ensures
  intro name hresponse
  split
  . exact .error (fun h => by cases h)
  . next responseName =>
    have hname : ctx.cfg.IsResponse responseName := ⟨pm.name, hresponse⟩
    apply peerPdp_then hr
    intro pdp hpdp
    split
    . exact s.answerAnnounce_turns ctx input blocked hr mac hname .invalidMessage
    . next pdp' hadd =>
      have hset : Turns ctx input blocked s ((s.interested mac).setPdp pdp') := by
        apply (Turns.one (.interested mac)).trans
        exact .one (.addDestination hpdp ⟨pm, hpm, hadds, hmac, rfl⟩ hadd)
      split
      . apply (hset.trans (.one (.setNeedsResponse rfl mac hname))).andThen
        exact destinationUp_turns ctx input blocked _ (fun h => by cases h) mac _
      . apply (hset.trans
          (.one (.call (c := .destinationUp s.peer.peerId mac pm.dataItems) (by simp) rfl))).andThen
        exact answerAnnounce_turns ctx input blocked _ (fun h => by cases h) mac hname _

theorem handleDestinationUpdate_turns (hname : pm.name = .destinationUpdate)
    (hr : s.peer.peerPdp = none ∨ (AsksPeers ctx.cfg ctx.localPdp pm.dataItems ∧ ctx.Unready s) → r)
    : Ensures (s.handleDestinationUpdate ctx pm) (Turns ctx input blocked s) (NullIf r) := by
  apply (pm.getMac_neverNull ctx.cfg).then_ensures
  intro mac hmac
  apply peerPdp_then (fun h => hr (Or.inl h))
  intro pdp hpdp
  split
  . apply (pm.getDataItemsNoMac_neverNull ctx.cfg).then_ensures
    intro updates hupdates
    apply validate_then ctx
    . rintro ⟨⟨ndi, hmem, hndi⟩, hunready⟩
      exact hr (Or.inr ⟨⟨ndi, mem_of_mem_getDataItemsNoMac ctx hupdates hmem, hndi⟩, hunready⟩)
    . intro conflict _
      split
      . next pdp' hupdate =>
        have hset : Turns ctx input blocked s (s.setPdp pdp') :=
          .one (.updateDestination hpdp ⟨pm, hpm, by rw [hname]; rfl, hmac, hupdates⟩ hupdate)
        exact .ok (hset.trans (.one (.call (by simp) rfl)))
      . exact .ok (.refl s)
  . split
    . apply (pm.getDataItemExists_neverNull ctx.cfg .creditRequest).then_ensures
      intro credit _
      split
      . exact .ok (.one (.call (by simp) rfl))
      . exact s.terminate_turns ctx input blocked .invalidMessage
    . exact s.terminate_turns ctx input blocked .invalidMessage

theorem handleDestinationDown_turns (hname : pm.name = .destinationDown) (hr : s.peer.peerPdp = none → r)
    (hinterest : blocked = false → ∀ mac pdp, pm.getMac ctx.cfg = .ok mac
      → s.peer.peerPdp = some pdp → pdp.removeDestination mac = none →
      ctx.localPdp.validDestination mac = true → StopAndWait.queue s.peer.responsesPending mac = [])
    : Ensures (s.handleDestinationDown ctx pm) (Turns ctx input blocked s) (NullIf r) := by
  have hrespond : ∀ (s' : Session) (mac : DlepMac), Turns ctx input blocked s'
      ((s'.call (.destinationDown s.peer.peerId mac)).sendSimpleResponse ctx
          .destinationDownResponse (some .success) (some mac)) := by
    intro s' mac
    exact (Turns.one (.call (by simp) rfl)).trans
      (sendSimpleResponse_turns ctx input blocked _ (.inl (by simp)) _ _)
  apply (pm.getMac_neverNull ctx.cfg).then_ensures
  intro mac hmac
  apply peerPdp_then hr
  intro pdp hpdp
  split
  . next pdp' hremove =>
    exact .ok ((Turns.one (.removeDestination hpdp (Or.inr ⟨pm, hpm, hname⟩) hremove)).trans
      (hrespond _ mac))
  . next hremove =>
    split
    . next hlocal =>
      refine .ok ((Turns.one (.notInterested (fun hblocked => ?_))).trans (hrespond _ mac))
      exact hinterest hblocked mac pdp hmac hpdp hremove hlocal
    . exact s.terminate_turns ctx input blocked .invalidDestination

omit hpm in
theorem handleLinkCharacteristicsRequest_turns (pm : ProtocolMessage)
    : Ensures (s.handleLinkCharacteristicsRequest ctx pm) (Turns ctx input blocked s) (NullIf r) := by
  apply (pm.getMac_neverNull ctx.cfg).then_ensures
  intro mac _
  apply (pm.getDataItemsNoMac_neverNull ctx.cfg).then_ensures
  intro dataItems _
  split
  . exact s.terminate_turns ctx input blocked .invalidDestination
  . split
    . exact s.linkCharacteristicsResponse_turns ctx input blocked mac _
    . exact .ok (.one (.call (by simp) rfl))

theorem handleLinkCharacteristicsResponse_turns (hname : pm.name = .linkCharacteristicsResponse)
    (hr : s.peer.peerPdp = none → r)
    : Ensures (s.handleLinkCharacteristicsResponse ctx pm) (Turns ctx input blocked s) (NullIf r) := by
  apply (pm.getMac_neverNull ctx.cfg).then_ensures
  intro mac hmac
  apply (s.handleResponse_turns ctx input blocked hpm).bind
  rintro ⟨expected, s₁⟩ ⟨hs₁, _⟩
  simp only
  split
  . apply hs₁.andThen
    apply peerPdp_then (hs₁.peerPdp hr)
    intro pdp hpdp
    apply (pm.getDataItemsNoMac_neverNull ctx.cfg).then_ensures
    intro dataItems hdataItems
    split
    . next pdp' hupdate =>
      have hset : Turns ctx input blocked s₁ (s₁.setPdp pdp') :=
        .one (.updateDestination hpdp ⟨pm, hpm, by rw [hname]; rfl, hmac, hdataItems⟩ hupdate)
      exact .ok (hset.trans (.one (.call (by simp) rfl)))
    . exact s₁.terminate_turns ctx input blocked .invalidDestination
  . exact .ok hs₁

omit hpm in
theorem checkStatusCodeFailure_turns (pm : ProtocolMessage)
    : Ensures (s.checkStatusCodeFailure ctx pm)
        (fun res => Turns ctx input blocked s res.2
          ∧ (res.1 = false → res.2 = s
            ∧ ((pm.name = .sessionTermination ∨ pm.name = .sessionTerminationResponse)
              ∨ pm.statusTerminates ctx.cfg = false)))
        (NullIf r) := by
  unfold checkStatusCodeFailure
  split
  . next hname => exact .ok ⟨.refl s, fun _ => ⟨rfl, Or.inl hname⟩⟩
  . apply (pm.getStatus_neverNull ctx.cfg).optional.then_ensures
    intro status hstatus
    split
    . next info =>
      split
      . exact (s.terminate_turns ctx input blocked _).bind (fun s' hs' => .ok ⟨hs', fun h => by cases h⟩)
      . next hmode =>
        refine .ok ⟨.refl s, fun _ => ⟨rfl, Or.inr ?_⟩⟩
        unfold ProtocolMessage.statusTerminates
        rw [optional_eq_some hstatus]
        exact Bool.eq_false_iff.mpr hmode
    . refine .ok ⟨.refl s, fun _ => ⟨rfl, Or.inr ?_⟩⟩
      obtain ⟨name, hname⟩ := optional_eq_none hstatus
      unfold ProtocolMessage.statusTerminates
      rw [hname]

theorem dispatch_turns (hblocked : blocked = false → s.losesInterest ctx pm = false)
    : Ensures (s.dispatch ctx pm) (Turns ctx input blocked s) (NullIf (s.Unhandled ctx pm)) := by
  have hresponse : pm.name = .destinationUpResponse ∨ pm.name = .destinationAnnounceResponse →
      Ensures (s.handleDestinationUpResponse ctx pm) (Turns ctx input blocked s)
          (NullIf (s.Unhandled ctx pm)) := by
    intro hname
    apply s.handleDestinationUpResponse_turns ctx input blocked hpm
    . intro hmodem hclient
      rcases hname with hname | hname
      all_goals
        rw [hname, hmodem, hclient]
        rfl
    . intro hfalse mac rp rest info hmac hstatus hnotInterested hfind hresponseName
      have hinterest := hblocked hfalse
      unfold losesInterest ProtocolMessage.notInterested at hinterest
      rcases hname with hname | hname
      all_goals
        simpa [hmac, hname, hstatus, hnotInterested, hfind, hresponseName] using hinterest
    . intro hmodem h
      unfold Unhandled
      rcases hname with hname | hname
      all_goals
        rw [hname, hmodem]
        exact h.imp (fun h => ⟨rfl, h⟩) (fun h => ⟨rfl, h⟩)
  unfold dispatch
  cases hname : pm.name with
  | heartbeat => exact .ok (.refl s)
  | other id => exact .ok (.refl s)
  | sessionInitialization =>
    apply s.handlePeerInitialization_turns ctx input blocked hpm hname
    exact fun h => Or.inr ⟨by rw [hname]; rfl, h⟩
  | sessionInitializationResponse =>
    exact s.handlePeerInitializationResponse_turns ctx input blocked hpm hname
  | sessionTermination => exact .ok (s.handlePeerTermination_turns ctx input blocked hpm hname)
  | sessionTerminationResponse => exact s.handlePeerTerminationResponse_turns ctx input blocked hpm
  | sessionUpdate =>
    apply s.handlePeerUpdate_turns ctx input blocked hpm hname
    exact Or.imp (fun h => ⟨by rw [hname]; rfl, h⟩) (fun h => ⟨by rw [hname]; rfl, h⟩)
  | sessionUpdateResponse => exact (s.handleResponse_turns ctx input blocked hpm).map (fun _ hs' => hs'.1)
  | destinationUp =>
    cases hmodem : ctx.cfg.modem with
    | true =>
      apply s.handleDestinationAnnounce_turns ctx input blocked hpm
      . rw [hname, hmodem]
        rfl
      . exact fun h => Or.inl ⟨by rw [hname]; rfl, h⟩
    | false =>
      apply s.handleDestinationUp_turns ctx input blocked hpm
      . intro hclient
        rw [hname, hmodem, hclient]
        rfl
      . exact Or.imp (fun h => ⟨by rw [hname]; rfl, h⟩) (fun h => ⟨by rw [hname, hmodem]; rfl, h⟩)
  | destinationUpResponse => exact hresponse (Or.inl hname)
  | destinationAnnounce =>
    apply s.handleDestinationAnnounce_turns ctx input blocked hpm
    . rw [hname]
      rfl
    . exact fun h => Or.inl ⟨by rw [hname]; rfl, h⟩
  | destinationAnnounceResponse => exact hresponse (Or.inr hname)
  | destinationDown =>
    apply s.handleDestinationDown_turns ctx input blocked hpm hname
    . exact fun h => Or.inl ⟨by rw [hname]; rfl, h⟩
    . intro hfalse mac pdp hmac hpdp hremove hlocal
      have hvalid : pdp.validDestination mac = false := by
        unfold PeerData.removeDestination at hremove
        unfold PeerData.validDestination
        split at hremove
        . cases hremove
        . next hnone =>
          rw [hnone]
          rfl
      have hinterest := hblocked hfalse
      unfold losesInterest at hinterest
      simpa [hmac, hname, hpdp, hvalid, hlocal] using hinterest
  | destinationDownResponse =>
    apply (pm.getMac_neverNull ctx.cfg).then_ensures
    intro mac _
    exact (s.handleResponse_turns ctx input blocked hpm).bind (fun _ hs' => .ok hs'.1)
  | destinationUpdate =>
    apply s.handleDestinationUpdate_turns ctx input blocked hpm hname
    exact Or.imp (fun h => ⟨by rw [hname]; rfl, h⟩) (fun h => ⟨by rw [hname]; rfl, h⟩)
  | linkCharacteristicsRequest => exact s.handleLinkCharacteristicsRequest_turns ctx input blocked pm
  | linkCharacteristicsResponse =>
    apply s.handleLinkCharacteristicsResponse_turns ctx input blocked hpm hname
    exact fun h => Or.inl ⟨by rw [hname]; rfl, h⟩

end

theorem handlePeerSignal_turns (ctx : Context) (s : Session) (signal : Option ProtocolMessage)
    : Ensures (s.handlePeerSignal ctx signal)
        (Turns ctx (.receive signal) (s.blocks ctx (.receive signal)) s)
        (NullIf (∃ pm, handled ctx.cfg signal = some pm ∧ s.Unhandled ctx pm)) := by
  unfold handlePeerSignal
  split
  . exact s.terminate_turns ctx _ _ .invalidMessage
  . next pm =>
    split
    . next hallows =>
      have hpm : (Input.receive (some pm)).handled ctx.cfg = some pm := by
        simp [Input.handled, handled, hallows]
      apply (s.checkStatusCodeFailure_turns ctx _ _ pm).bind
      rintro ⟨failed, s₁⟩ ⟨hs₁, hsame⟩
      simp only
      split
      . exact .ok hs₁
      . next hfailed =>
        obtain ⟨rfl, hpassed⟩ := hsame (Bool.eq_false_iff.mpr hfailed)
        apply (s₁.dispatch_turns ctx _ _ hpm _).mono (fun _ hs' => hs')
          (NullIf.mono (fun h => ⟨pm, hpm, h⟩))
        intro hblocked
        rcases hpassed with hname | hterminates
        . unfold losesInterest
          rcases hname with hname | hname
          all_goals
            rw [hname]
            split
            . rfl
            . rfl
        . simpa [blocks, hallows, hterminates] using hblocked
    . exact s.terminate_turns ctx _ _ .invalidMessage

theorem handle_turns (ctx : Context) (s : Session) (input : Input)
    : Ensures (s.handle ctx input) (Turns ctx input (s.blocks ctx input) s)
        (NullIf (input.Unhandled ctx s)) := by
  cases input with
  | startPeer =>
    unfold handle startPeer
    simp only
    split
    . exact .ok (.refl s)
    . exact s.sendMessageExpectingResponse_turns ctx _ _ _
  | receive signal =>
    have htime : Turns ctx (.receive signal) (s.blocks ctx (.receive signal)) s
        (s.received ctx.env.now) :=
      .one (.other rfl rfl rfl rfl)
    apply htime.andThen
    apply ((s.received ctx.env.now).handlePeerSignal_turns ctx signal).mono (fun _ hs' => hs')
    apply NullIf.mono
    rintro ⟨pm, hpm, hunhandled⟩
    exact ⟨pm, hpm, hunhandled.imp id (fun h => ⟨h.1, h.2.1, h.2.2.of_evolves htime.evolves⟩)⟩
  | endOfFile => exact .ok (.one (.stop (Or.inl rfl)))
  | heartbeatTimeout =>
    unfold handle handleHeartbeatTimeout
    apply Ensures.ok
    split
    . exact .one (.send (.inl (by simp)))
    . exact .refl s
  | acktivityTimeout => exact s.handleAcktivityTimeout_turns ctx _ _
  | destinationUp mac dataItems => exact s.destinationUp_turns ctx _ _ id mac dataItems
  | destinationUpdate mac dataItems =>
    unfold handle destinationUpdate
    simp only
    split
    . exact .ok (.refl s)
    . apply Outgoing.create_neverNull.then_ensures
      intro message hmessage
      obtain rfl := Outgoing.eq_of_create hmessage
      exact .ok (.one (.send (.inl (by simp))))
  | destinationDown mac =>
    exact Outgoing.create_neverNull.then_ensures
      (fun message _ => s.sendMessageExpectingResponse_turns ctx _ _ message)
  | removeDestination mac =>
    apply peerPdp_then id
    intro pdp hpdp
    split
    . next pdp' hremove => exact .ok (.one (.removeDestination hpdp (Or.inl ⟨mac, rfl⟩) hremove))
    . exact .error (fun h => by cases h)
  | peerUpdate dataItems =>
    unfold handle peerUpdate
    simp only
    split
    . exact Outgoing.create_neverNull.then_ensures
        (fun message _ => s.sendMessageExpectingResponse_turns ctx _ _ message)
    . exact .ok (.refl s)
  | linkCharacteristicsRequest mac dataItems =>
    exact Outgoing.create_neverNull.then_ensures
      (fun message _ => s.sendMessageExpectingResponse_turns ctx _ _ message)
  | linkCharacteristicsResponse mac dataItems =>
    exact s.linkCharacteristicsResponse_turns ctx _ _ mac dataItems
  | terminate status => exact s.terminate_turns ctx _ _ status

theorem handle_evolves (ctx : Context) (s : Session) (input : Input)
    : Ensures (s.handle ctx input)
        (Evolves (fun number => input.raises ctx.cfg ∧ number = ctx.self) (input.raises ctx.cfg)
          (input.addsData ctx.cfg) s)
        (NullIf (input.Unhandled ctx s)) := by
  exact (s.handle_turns ctx input).mono (fun _ hs' => hs'.evolves) (fun _ hfault => hfault)

theorem handle_stays (ctx : Context) (s : Session) (input : Input)
    (hinput : ∀ cfg, input.handled cfg = none)
    : Ensures (s.handle ctx input) (Evolves (fun _ => False) False False s)
        (NullIf (input.Unhandled ctx s)) := by
  have hnone : ∀ {P : ProtocolMessage → Prop}, ¬∃ pm, input.handled ctx.cfg = some pm ∧ P pm := by
    rintro P ⟨pm, hpm, _⟩
    rw [hinput] at hpm
    cases hpm
  apply (s.handle_evolves ctx input).mono _ (fun _ hfault => hfault)
  exact fun s' hs' => hs'.mono (fun _ hnews => hnone hnews.1) hnone hnone

theorem handle_reaches (ctx : Context) (s : Session) (input : Input)
    : Ensures (s.handle ctx input) (Reaches ctx input s) (fun _ => True) := by
  exact (s.handle_turns ctx input).mono (fun _ hs' => hs'.reaches) (fun _ _ => trivial)

end Session
end Dlep
end Emane

import Emane.Dlep.Lemmas.Service

/-!
This module contains what holds in every run of a node: which states a session goes through, and
that no data of a peer is used that is not there.
-/

namespace Emane
namespace Dlep
namespace Node

variable (cfg : SessionConfig)

theorem handle_ensures (env : Env) (d : Node) (event : Event)
    : Ensures (handle cfg d env event) (Steps cfg event d) (NullIf (d.ready cfg event = false)) := by
  cases event with
  | connect peerId =>
    exact (connect_ensures cfg env peerId d).mono (fun _ hd' => hd') (NullIf.mono False.elim)
  | receive number signal =>
    apply (receive_ensures cfg env number signal d).mono
    . exact fun _ hd' => hd'.steps cfg
    . apply NullIf.mono
      rintro ⟨pm, hpm, ⟨huses, p, hp, hnone⟩ | ⟨hvalidates, hasks, hunready⟩⟩
      . exact not_ready_of_usesData cfg (p := p) (by simp [Event.usesData, hpm, huses, hp]) hnone
      . exact not_ready_of_usesAll cfg (by simp [Event.usesAll, hpm, hvalidates, hasks]) hunready
  | endOfFile number =>
    apply (withSession_stays cfg env
      (ensures_of_never (fun ctx s => s.handle_stays ctx .endOfFile (fun _ => rfl))) d number).mono
    . exact fun _ hd' => hd'.steps cfg
    . exact NullIf.mono (fun h => h.1.elim)
  | heartbeatTimeout number =>
    apply (withSession_stays cfg env (ensures_of_never
      (fun ctx s => s.handle_stays ctx .heartbeatTimeout (fun _ => rfl))) d number).mono
    . exact fun _ hd' => hd'.steps cfg
    . exact NullIf.mono (fun h => h.1.elim)
  | acktivityTimeout number =>
    apply (withSession_stays cfg env (ensures_of_never
      (fun ctx s => s.handle_stays ctx .acktivityTimeout (fun _ => rfl))) d number).mono
    . exact fun _ hd' => hd'.steps cfg
    . exact NullIf.mono (fun h => h.1.elim)
  | cleanupExPeers => exact .ok ((Stays.steps cfg (.refl _ _ _ d)).of_peers cfg _)
  | destinationUp mac dataItems advert =>
    apply ((destinationUp_ensures cfg env mac dataItems advert d).mono (fun _ hres => hres) ?_).map
    . exact fun _ hd' => hd'.steps cfg
    . exact NullIf.mono (fun h => not_ready_of_usesAll cfg h.1 h.2)
  | destinationUpdate mac dataItems advert =>
    apply ((destinationUpdate_ensures cfg env mac dataItems advert d).mono (fun _ hres => hres) ?_).map
    . exact fun _ hd' => hd'.steps cfg
    . exact NullIf.mono (fun h => not_ready_of_usesAll cfg h.1 h.2)
  | destinationDown mac advert =>
    apply ((destinationDown_ensures cfg env mac advert d).mono (fun _ hres => hres) ?_).map
    . exact fun _ hd' => hd'.steps cfg
    . exact NullIf.mono (fun h => not_ready_of_usesAll cfg (by simp [Event.usesAll, h.1, h.2.1]) h.2.2)
  | peerUpdate dataItems =>
    apply ((peerUpdate_ensures cfg env dataItems d).mono (fun _ hres => hres)
      (NullIf.mono False.elim)).map
    exact fun _ hd' => hd'.steps cfg
  | getPeerInfo peerId =>
    apply ((getPeerInfo_ensures peerId d).mono (fun _ htrue => htrue) ?_).map
    . exact fun _ _ => Stays.steps cfg (.refl _ _ _ d)
    . apply NullIf.mono
      rintro ⟨p, hp, hnone⟩
      exact not_ready_of_usesData cfg hp hnone
  | getDestinationInfo peerId mac =>
    apply ((getDestinationInfo_ensures peerId mac d).mono (fun _ htrue => htrue) ?_).map
    . exact fun _ _ => Stays.steps cfg (.refl _ _ _ d)
    . apply NullIf.mono
      rintro ⟨p, hp, hnone⟩
      exact not_ready_of_usesData cfg hp hnone
  | linkcharRequest mac dataItems =>
    apply ((linkcharRequest_ensures cfg env mac dataItems d).mono (fun _ hres => hres) ?_).map
    . exact fun _ hd' => hd'.steps cfg
    . exact NullIf.mono (fun h => not_ready_of_usesAll cfg rfl h)
  | linkcharReply peerId mac dataItems =>
    apply ((linkcharReply_ensures cfg env peerId mac dataItems d).mono (fun _ hres => hres)
      (NullIf.mono False.elim)).map
    exact fun _ hd' => hd'.steps cfg
  | terminate =>
    have hall := forPeers_stays cfg env
      (ensures_of_never (fun ctx s => s.handle_stays ctx (.terminate .success) (fun _ => rfl))) d
    apply (hall.mono (fun _ hd' => hd') (NullIf.mono (fun h => h.1.elim))).bind
    intro d' hd'
    exact .ok ((hd'.steps cfg).of_peers cfg .empty)

variable {d d' : Node} {e : Env × Event}

theorem step_steps (h : step cfg d e = some d') : Steps cfg e.2 d d' := by
  exact (handle_ensures cfg e.1 d e.2).of_toOption h

def leavesEnded (d : Node) : Event → Bool
  | .receive number signal =>
    match d.objects[number]?, Session.handled cfg signal with
    | some p, some pm => !(decide (p.pstate = .terminating) && pm.name.addsData cfg.modem)
    | _, _ => true
  | _ => true

variable {number : Nat}

theorem not_addsData_of_leavesEnded {event : Event} (h : d.leavesEnded cfg event = true) {p : Peer}
    (hp : d.objects[number]? = some p) (hterminating : p.pstate = .terminating)
    : ¬event.addsData cfg number := by
  rintro ⟨pm, hpm, hadds⟩
  cases event with
  | receive number' signal =>
    simp only [Event.handled] at hpm
    split at hpm
    . next heq =>
      subst heq
      simp [leavesEnded, hp, hpm, hterminating, hadds] at h
    . cases hpm
  | _ => cases hpm

theorem addsData_of_bringsUp {event : Event} (h : event.bringsUp cfg number)
    : event.addsData cfg number := by
  obtain ⟨pm, hpm, hup⟩ := h
  refine ⟨pm, hpm, ?_⟩
  cases hname : pm.name with
  | sessionInitialization => rfl
  | sessionInitializationResponse => rfl
  | _ => simp [hname, MessageName.bringsUp] at hup

def Ended (d₀ : Node) (number : Nat) (p₀ : Peer) (d : Node) : Prop :=
  ∃ p, d.objects[number]? = some p ∧ p.pstate = .terminating ∧ NoNewData p₀.peerPdp p.peerPdp
    ∧ ∀ id, d.infoBase.find? id = some number → d₀.infoBase.find? id = some number

theorem Ended.step {d₀ : Node} {p₀ : Peer} (h : Ended d₀ number p₀ d)
    (hleaves : d.leavesEnded cfg e.2 = true) (hstep : step cfg d e = some d')
    : Ended d₀ number p₀ d' := by
  obtain ⟨p, hp, hterminating, hdata, hinfoBase⟩ := h
  have hadds := not_addsData_of_leavesEnded cfg hleaves hp hterminating
  have hup : ¬e.2.bringsUp cfg number := fun h => hadds (addsData_of_bringsUp cfg h)
  obtain ⟨p', hp', hevolves⟩ := (step_steps cfg hstep).moves number p hp
  refine ⟨p', hp', ?_, ?_, ?_⟩
  . rcases hevolves.pstate with hsame | hterminating' | hin
    . exact hsame.trans hterminating
    . exact hterminating'
    . exact absurd hin.1 hup
  . exact hdata.trans (hevolves.data.resolve_left hadds)
  . intro id hfind
    exact hinfoBase id ((hevolves.infoBase id number hfind).resolve_right hup)

def initializationName : MessageName :=
  if cfg.modem then .sessionInitialization else .sessionInitializationResponse

theorem handled_bringsUp {signal : Option ProtocolMessage} {pm : ProtocolMessage}
    (h : Session.handled cfg signal = some pm)
    (hup : pm.name.bringsUp = true)
    : signal = some pm ∧ cfg.allowsSender pm.name (!cfg.modem) = true
        ∧ pm.name = initializationName cfg := by
  unfold Session.handled at h
  split at h
  . next pm' =>
    split at h
    . next hallows =>
      obtain rfl := Option.some.inj h
      refine ⟨rfl, hallows, ?_⟩
      unfold SessionConfig.allowsSender at hallows
      unfold initializationName
      cases hname : pm'.name with
      | sessionInitialization =>
        cases hmodem : cfg.modem with
        | true => rfl
        | false =>
          rw [hname, hmodem] at hallows
          split at hallows
          . next info hinfo => simp [cfg.initialization_sender info hinfo] at hallows
          . cases hallows
      | sessionInitializationResponse =>
        cases hmodem : cfg.modem with
        | false => rfl
        | true =>
          rw [hname, hmodem] at hallows
          split at hallows
          . next info hinfo => simp [cfg.initializationResponse_sender info hinfo] at hallows
          . cases hallows
      | _ => simp [hname, MessageName.bringsUp] at hup
    . cases h
  . cases h

theorem inSession_origin (hleaves : d.leavesEnded cfg e.2 = true)
    (hstep : step cfg d e = some d') {p' : Peer} (hp' : d'.objects[number]? = some p')
    (hin : p'.pstate = .inSession)
    : ∃ p, d.objects[number]? = some p ∧
        (p.pstate = .inSession ∨ (p.pstate = .connected ∧ ∃ pm, e.2 = .receive number (some pm) ∧
          cfg.allowsSender pm.name (!cfg.modem) = true ∧ pm.name = initializationName cfg)) := by
  have hsteps := step_steps cfg hstep
  cases hobject : d.objects[number]? with
  | none => exact absurd hin (hsteps.fresh number p' hp' hobject)
  | some p =>
    refine ⟨p, rfl, ?_⟩
    obtain ⟨q, hq, hevolves⟩ := hsteps.moves number p hobject
    obtain rfl := Option.some.inj (hq.symm.trans hp')
    rcases hevolves.pstate with hsame | hterminating | hup
    . exact Or.inl (hsame.symm.trans hin)
    . cases hin.symm.trans hterminating
    . cases hpstate : p.pstate with
      | inSession => exact Or.inl rfl
      | terminating =>
        exact absurd (addsData_of_bringsUp cfg hup.1)
          (not_addsData_of_leavesEnded cfg hleaves hobject hpstate)
      | connected =>
        refine Or.inr ⟨rfl, ?_⟩
        obtain ⟨⟨pm, hpm, hbrings⟩, -⟩ := hup
        cases hevent : e.2 with
        | receive number' signal =>
          rw [hevent] at hpm
          simp only [Event.handled] at hpm
          split at hpm
          . next heq =>
            obtain ⟨rfl, hallows, hname⟩ := handled_bringsUp cfg hpm hbrings
            exact ⟨pm, by rw [heq], hallows, hname⟩
          . cases hpm
        | _ =>
          rw [hevent] at hpm
          cases hpm

def rfc8175Signal : MessageName → Option SignalInfo
  | .heartbeat => some ⟨true, true, none, []⟩
  | .sessionInitialization =>
    some ⟨false, true, some .sessionInitializationResponse, [5, 4, 6] ++ addresses⟩
  | .sessionInitializationResponse => some ⟨true, false, none, [1, 4, 5] ++ metrics ++ [6] ++ addresses⟩
  | .sessionUpdate => some ⟨true, true, some .sessionUpdateResponse, addresses ++ metrics⟩
  | .sessionUpdateResponse => some ⟨true, true, none, [1]⟩
  | .sessionTermination => some ⟨true, true, some .sessionTerminationResponse, [1]⟩
  | .sessionTerminationResponse => some ⟨true, true, none, []⟩
  | .destinationUp => some ⟨true, false, some .destinationUpResponse, [7] ++ metrics ++ addresses⟩
  | .destinationUpResponse => some ⟨false, true, none, [7, 1]⟩
  | .destinationAnnounce => some ⟨false, true, some .destinationAnnounceResponse, [7] ++ addresses⟩
  | .destinationAnnounceResponse => some ⟨true, false, none, [7] ++ metrics ++ addresses ++ [1]⟩
  | .destinationDown => some ⟨true, true, some .destinationDownResponse, [7]⟩
  | .destinationDownResponse => some ⟨true, true, none, [7, 1]⟩
  | .destinationUpdate => some ⟨true, false, none, [7] ++ metrics ++ addresses⟩
  | .linkCharacteristicsRequest => some ⟨false, true, some .linkCharacteristicsResponse, [7, 14, 15, 16]⟩
  | .linkCharacteristicsResponse => some ⟨true, false, none, [7] ++ metrics ++ [1]⟩
  | .other _ => none
where
  metrics : List DataItemIdType := [12, 13, 14, 15, 16, 17, 18, 19, 20, 21, 22]
  addresses : List DataItemIdType := [8, 9, 10, 11]

def rfc8175 (modem : Bool) : SessionConfig where
  toMessageConfig := rfc8175Wire
  modem := modem
  metrics := rfc8175Signal.metrics
  dataItemId
    | .status => some 1
    | .peerType => some 4
    | .heartbeatInterval => some 5
    | .extensionsSupported => some 6
    | .macAddress => some 7
    | .experimentalDefinition | .creditRequest | .creditGrant => none
  heartbeatDivisor := 1000
  signalInfo := rfc8175Signal
  statusCodeInfo
    | 0 => some ⟨.success, false⟩
    | 1 => some ⟨.notInterested, false⟩
    | 2 => some ⟨.requestDenied, false⟩
    | 3 => some ⟨.inconsistentData, false⟩
    | 128 => some ⟨.unknownMessage, true⟩
    | 129 => some ⟨.unexpectedMessage, true⟩
    | 130 => some ⟨.invalidData, true⟩
    | 131 => some ⟨.invalidDestination, true⟩
    | 132 => some ⟨.timedOut, true⟩
    | _ => none
  statusCodeId
    | .success => some 0
    | .notInterested => some 1
    | .requestDenied => some 2
    | .inconsistentData => some 3
    | .unknownMessage => some 128
    | .unexpectedMessage => some 129
    | .invalidData => some 130
    | .invalidDestination => some 131
    | .timedOut => some 132
    | .invalidMessage | .other _ => none
  extensionIds := []
  heartbeatThreshold := 4
  ackTimeout := 2
  sendTries := 3
  destAdvertEnabled := false
  initialization_sender := by
    intro info hinfo
    cases hinfo
    rfl
  initializationResponse_sender := by
    intro info hinfo
    cases hinfo
    rfl

def modemNode : Node :=
  .init (.create (rfc8175 true) none [])

def quietEnv : Env where
  now := 0
  sendResponse := true
  clientStatus := .success
  peerMac := none

def initializationMessage : ProtocolMessage where
  name := .sessionInitialization
  dataItems := [⟨5, .div_u32 60000⟩]

def terminationMessage : ProtocolMessage where
  name := .sessionTermination
  dataItems := [⟨1, .div_u8_string 0 []⟩]

def announceMessage (host : UInt8) : ProtocolMessage where
  name := .destinationAnnounce
  dataItems := [⟨7, .div_dlepmac [2, 0, 0, 0, 0, host]⟩]

def updateMessage : ProtocolMessage where
  name := .sessionUpdate
  dataItems := []

def orderlyEvents : List (Env × Event) :=
  [(quietEnv, .connect 1), (quietEnv, .receive 0 (some initializationMessage)),
    (quietEnv, .receive 0 (some (announceMessage 1))), (quietEnv, .receive 0 (some terminationMessage))]

def overview (d : Node) : List (PeerState × Option Nat) :=
  d.objects.map (fun p => (p.pstate, p.peerPdp.map (fun pdp => pdp.destinationData.size)))

def endedNode : Node :=
  (run (step (rfc8175 true)) modemNode orderlyEvents).getD modemNode

/--
In every run in which no peer that is terminating is sent a message that adds to its data: a
session comes up from the connected state and by the message for the role of the node, and a
session that has ended stays so.
-/
theorem run_session_states {d₀ d₁ d₂ : Node} {es : List (Env × Event)} {e : Env × Event}
    (hguarded : Guarded (step cfg) (fun d e => d.leavesEnded cfg e.2 = true) d₀ (es ++ [e]))
    (hrun : run (step cfg) d₀ es = some d₁) (hstep : step cfg d₁ e = some d₂)
    : (∀ number p₂, d₂.objects[number]? = some p₂ → p₂.pstate = .inSession →
        ∃ p₁, d₁.objects[number]? = some p₁ ∧
          (p₁.pstate = .inSession ∨ (p₁.pstate = .connected ∧ ∃ pm, e.2 = .receive number (some pm) ∧
            cfg.allowsSender pm.name (!cfg.modem) = true ∧ pm.name = initializationName cfg)))
      ∧ (∀ number p₀, d₀.objects[number]? = some p₀ → p₀.pstate = .terminating →
        ∃ p₂, d₂.objects[number]? = some p₂ ∧ p₂.pstate = .terminating ∧ NoNewData p₀.peerPdp p₂.peerPdp
          ∧ ∀ id, d₂.infoBase.find? id = some number → d₀.infoBase.find? id = some number) := by
  have hrun₂ : run (step cfg) d₀ (es ++ [e]) = some d₂ := by
    rw [run_append, hrun]
    simp [hstep]
  constructor
  . intro number p₂ hp₂ hin
    have hlast := hguarded.last hrun
    exact inSession_origin cfg hlast hstep hp₂ hin
  . intro number p₀ hp₀ hterminating
    have hended : Ended d₀ number p₀ d₀ := ⟨p₀, hp₀, hterminating, .refl _, fun _ h => h⟩
    have hkeeps : ∀ d e d', Ended d₀ number p₀ d → d.leavesEnded cfg e.2 = true → step cfg d e = some d' →
        Ended d₀ number p₀ d' := fun _ _ _ hd hleaves hstep => Ended.step cfg hd hleaves hstep
    exact run_inv hkeeps hended hguarded hrun₂

theorem run_session_states_ended
    : ∃ d₁ d₂, run (step (rfc8175 true)) endedNode
        [(quietEnv, .receive 0 (some terminationMessage))] = some d₁
        ∧ step (rfc8175 true) d₁ (quietEnv, .acktivityTimeout 0) = some d₂
        ∧ ∃ p₂, d₂.objects[0]? = some p₂ ∧ p₂.pstate = .terminating := by
  have hdefined : (run (step (rfc8175 true)) endedNode
      [(quietEnv, .receive 0 (some terminationMessage)), (quietEnv, .acktivityTimeout 0)]).isSome
          = true := by
    decide +kernel
  obtain ⟨d₂, hrun⟩ := Option.isSome_iff_exists.mp hdefined
  rw [run_cons, Option.bind_eq_some_iff] at hrun
  obtain ⟨d₁, hfirst, hrest⟩ := hrun
  rw [run_cons, Option.bind_eq_some_iff] at hrest
  obtain ⟨d₂', hstep, hrest⟩ := hrest
  obtain rfl := Option.some.inj hrest
  have hrun₁ : run (step (rfc8175 true)) endedNode
      [(quietEnv, .receive 0 (some terminationMessage))] = some d₁ := by
    simp [hfirst]
  have hguarded : Guarded (step (rfc8175 true))
    (fun d e => d.leavesEnded (rfc8175 true) e.2 = true) endedNode
      ([(quietEnv, .receive 0 (some terminationMessage))] ++ [(quietEnv, .acktivityTimeout 0)]) := by
    decide +kernel
  have hended : (endedNode.objects[0]?).map (fun p => p.pstate) = some .terminating := by
    decide +kernel
  obtain ⟨p₀, hp₀, hterminating⟩ := Option.map_eq_some_iff.mp hended
  obtain ⟨p₂, hp₂, hterminating₂, -⟩ := (run_session_states (rfc8175 true) hguarded hrun₁ hstep).2 0
    p₀ hp₀ hterminating
  exact ⟨d₁, d₂', hrun₁, hstep, p₂, hp₂, hterminating₂⟩

theorem session_returns_after_termination
    : (run (step (rfc8175 true)) modemNode orderlyEvents).map overview = some [(.terminating, some 1)]
      ∧ (run (step (rfc8175 true)) modemNode
          (orderlyEvents ++ [(quietEnv, .receive 0 (some initializationMessage))])).map overview
            = some [(.inSession, some 0)]
      ∧ (run (step (rfc8175 true)) modemNode
          (orderlyEvents ++ [(quietEnv, .receive 0 (some (announceMessage 2)))])).map overview
              = some [(.terminating, some 2)] := by
  decide +kernel

def SessionsHaveData (d : Node) : Prop :=
  ∀ (number : Nat) (p : Peer), d.objects[number]? = some p → p.pstate = .inSession → p.peerPdp ≠ none

theorem SessionsHaveData.step (h : d.SessionsHaveData) (hstep : step cfg d e = some d')
    : d'.SessionsHaveData := by
  have hsteps := step_steps cfg hstep
  intro number p' hp' hin
  cases hobject : d.objects[number]? with
  | none => exact absurd hin (hsteps.fresh number p' hp' hobject)
  | some p =>
    obtain ⟨q, hq, hevolves⟩ := hsteps.moves number p hobject
    obtain rfl := Option.some.inj (hq.symm.trans hp')
    rcases hevolves.pstate with hsame | hterminating | hup
    . exact hevolves.peerPdp (h number p hobject (hsame.symm.trans hin))
    . cases hin.symm.trans hterminating
    . exact hup.2.2

theorem run_never_null {localPdp : PeerData} {es : List (Env × Event)} {e : Env × Event} {d : Node}
    (hguarded : Guarded (step cfg) (fun d e => d.ready cfg e.2 = true) (.init localPdp) (es ++ [e]))
    (hrun : run (step cfg) (.init localPdp) es = some d)
    : handle cfg d e.1 e.2 ≠ .error .nullPeerData ∧ d.SessionsHaveData := by
  constructor
  . intro hnull
    have hready : d.ready cfg e.2 = true := hguarded.last hrun
    have hnot : d.ready cfg e.2 = false := (handle_ensures cfg e.1 d e.2).of_error hnull rfl
    rw [hready] at hnot
    cases hnot
  . have hinit : (init localPdp).SessionsHaveData := by
      intro number p hp
      simp [init] at hp
    exact run_inv (fun _ _ _ hd _ hstep => SessionsHaveData.step cfg hd hstep) hinit
      hguarded.of_append hrun

theorem run_never_null_announce
    : ∃ d, run (step (rfc8175 true)) modemNode (orderlyEvents.take 2) = some d
        ∧ handle (rfc8175 true) d quietEnv (.receive 0 (some (announceMessage 1)))
            ≠ .error .nullPeerData := by
  have hdefined : (run (step (rfc8175 true)) modemNode (orderlyEvents.take 2)).isSome = true := by
    decide +kernel
  obtain ⟨d, hrun⟩ := Option.isSome_iff_exists.mp hdefined
  have hguarded : Guarded (step (rfc8175 true)) (fun d e => d.ready (rfc8175 true) e.2 = true) modemNode
      (orderlyEvents.take 2 ++ [(quietEnv, .receive 0 (some (announceMessage 1)))]) := by
    decide +kernel
  exact ⟨d, hrun, (run_never_null (rfc8175 true) hguarded hrun).1⟩

theorem update_before_initialization_null
    : ∃ d, run (step (rfc8175 true)) modemNode [(quietEnv, .connect 1)] = some d
        ∧ handle (rfc8175 true) d quietEnv (.receive 0 (some updateMessage)) = .error .nullPeerData := by
  have hdefined : (run (step (rfc8175 true)) modemNode [(quietEnv, .connect 1)]).isSome = true := by
    decide +kernel
  obtain ⟨d, hrun⟩ := Option.isSome_iff_exists.mp hdefined
  refine ⟨d, hrun, ?_⟩
  have hsame : step (rfc8175 true) modemNode (quietEnv, .connect 1) = some d := by
    simpa using hrun
  cases hsame
  rfl

end Node
end Dlep
end Emane

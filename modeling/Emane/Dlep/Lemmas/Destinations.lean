import Mathlib.Data.Finset.Erase
import Mathlib.Data.Finset.Insert
import Emane.Dlep.Lemmas.Run

/-!
This module contains the agreement between a peer and the client about the destinations of the
peer: which of them are in the table, and what the client has answered about them.
-/

namespace Emane
namespace Dlep

abbrev DestinationMessage :=
  {pm : ProtocolMessage // pm.name = .destinationUp ∨ pm.name = .destinationAnnounce
    ∨ pm.name = .destinationDown}

namespace ProtocolMessage

def passes (cfg : SessionConfig) (pm : ProtocolMessage) : Bool :=
  cfg.allowsSender pm.name (!cfg.modem) && !pm.statusTerminates cfg

def announces (cfg : SessionConfig) (pm : ProtocolMessage) : Bool :=
  pm.name = .destinationAnnounce || (pm.name = .destinationUp && cfg.modem)

end ProtocolMessage

namespace Session

def answeredWithSuccess (ctx : Context) (pm : ProtocolMessage) (mac : DlepMac) : Bool :=
  ctx.env.clientStatus = .success || (pm.announces ctx.cfg && ctx.localPdp.validDestination mac)

def agree (cfg : SessionConfig) (agreed : Finset DlepMac) (e : Surroundings × DestinationMessage)
    : Finset DlepMac :=
  match e.2.val.getMac cfg with
  | .error _ => agreed
  | .ok mac =>
    if !e.2.val.passes cfg then
      agreed
    else if e.2.val.name = .destinationDown then
      agreed.erase mac
    else if answeredWithSuccess (e.1.context cfg) e.2.val mac then
      insert mac agreed
    else
      agreed

def destinationStep (cfg : SessionConfig) (s : Session) (e : Surroundings × DestinationMessage)
    : Option Session :=
  s.step cfg (e.1, .receive (some e.2.val))

def refusesAnnounced (cfg : SessionConfig) (s : Session) (e : Surroundings × DestinationMessage) : Bool :=
  match e.2.val.getMac cfg with
  | .error _ => false
  | .ok mac =>
    e.2.val.passes cfg && e.2.val.announces cfg && !answeredWithSuccess (e.1.context cfg) e.2.val mac
      && s.peer.peerPdp.any (fun pdp => !pdp.validDestination mac)

structure Leaves (pm : ProtocolMessage) (mac : DlepMac) (pdp : PeerData) (held kept asked : Prop)
    (s s' : Session) : Prop where
  table : ∃ pdp', s'.peer.peerPdp = some pdp'
    ∧ ∀ mac', pdp'.validDestination mac' = true
      ↔ if mac' = mac then held else pdp.validDestination mac' = true
  kept : kept → s'.peer.peerPdp = some pdp
  asked : asked → .destinationUp s.peer.peerId mac pm.dataItems ∈ s'.calls.drop s.calls.length

section

variable {pm : ProtocolMessage} {mac : DlepMac} {pdp : PeerData} {held kept asked : Prop}
  {s s₁ s' : Session}

theorem Leaves.of_eq (hpdp : s'.peer.peerPdp = some pdp)
    (hheld : held ↔ pdp.validDestination mac = true) (hasked : ¬ asked)
    : Leaves pm mac pdp held kept asked s s' := by
  constructor
  . refine ⟨pdp, hpdp, ?_⟩
    intro mac'
    split
    . next heq => rw [heq, hheld]
    . rfl
  . exact fun _ => hpdp
  . exact fun h => absurd h hasked

theorem Leaves.congr {held' kept' asked' : Prop} (h : Leaves pm mac pdp held kept asked s s')
    (hheld : held' ↔ held)
    (hkept : kept' → kept) (hasked : asked' → asked)
    : Leaves pm mac pdp held' kept' asked' s s' := by
  constructor
  . rw [hheld]
    exact h.table
  . exact fun h' => h.kept (hkept h')
  . exact fun h' => h.asked (hasked h')

theorem Leaves.response (h : Leaves pm mac pdp held kept asked s s') (ctx : Context)
    (response : MessageName)
    (status : Option StatusName) (mac' : Option DlepMac)
    : Leaves pm mac pdp held kept asked s (s'.sendSimpleResponse ctx response status mac') := by
  constructor
  . rw [peerPdp_sendSimpleResponse]
    exact h.table
  . rw [peerPdp_sendSimpleResponse]
    exact h.kept
  . intro hasked
    have hmem := h.asked hasked
    unfold sendSimpleResponse
    split
    . rw [call, List.drop_append]
      exact List.mem_append_left _ hmem
    . exact hmem

variable (ctx : Context)

theorem acceptDestination_leaves (hpdp : s.peer.peerPdp = some pdp)
    (hnew : pdp.validDestination mac = false)
    : Ensures (s.acceptDestination ctx mac pm.dataItems)
        (Leaves pm mac pdp (ctx.env.clientStatus = .success)
            (ctx.env.clientStatus ≠ .success) True s) (fun _ => True) := by
  have hasked : .destinationUp s.peer.peerId mac pm.dataItems
      ∈ ((s.interested mac).call (.destinationUp s.peer.peerId mac pm.dataItems)).calls.drop
          s.calls.length := by
    simp [call, interested, setNotInterested]
  unfold acceptDestination
  split
  . next hsuccess =>
    apply Ensures.bind_of_eq
      (peerPdp_eq_ok (show ((s.interested mac).call _).peer.peerPdp = some pdp from hpdp))
    split
    . next pdp' hadd =>
      have hvalid := (PeerData.validDestination_addDestination hadd).2
      apply Ensures.ok
      constructor
      . refine ⟨pdp', rfl, ?_⟩
        intro mac'
        rw [hvalid]
        split
        . next heq => simp [heq, hsuccess]
        . next hne => simp [hne]
      . exact fun h => absurd hsuccess h
      . exact fun _ => hasked
    . exact .error trivial
  . next hrefused =>
    apply Ensures.ok
    constructor
    . refine ⟨pdp, hpdp, ?_⟩
      intro mac'
      split
      . next heq => simp [heq, hnew, hrefused]
      . rfl
    . exact fun _ => hpdp
    . exact fun _ => hasked

theorem handleDestinationUp_leaves (hmac : pm.getMac ctx.cfg = .ok mac) (hpdp : s.peer.peerPdp = some pdp)
    : Ensures (s.handleDestinationUp ctx pm)
        (Leaves pm mac pdp (pdp.validDestination mac = true ∨ ctx.env.clientStatus = .success)
          (ctx.env.clientStatus ≠ .success) (pdp.validDestination mac = false) s)
        (fun _ => True) := by
  apply Ensures.bind_of_eq hmac
  apply Ensures.bind_of_eq (peerPdp_eq_ok hpdp)
  split
  . next hvalid =>
    have hleaves : Leaves pm mac pdp (pdp.validDestination mac = true ∨ ctx.env.clientStatus = .success)
        (ctx.env.clientStatus ≠ .success) (pdp.validDestination mac = false) s s := by
      apply Leaves.of_eq hpdp
      . simp [hvalid]
      . simp [hvalid]
    apply Ensures.bind_of_fail (fun _ _ => trivial)
    intro name _
    cases name with
    | none => exact hleaves
    | some responseName => exact hleaves.response ctx _ _ _
  . next hnew =>
    apply Ensures.bind_of_fail (fun _ _ => trivial)
    intro _ _
    apply (acceptDestination_leaves ctx hpdp (Bool.eq_false_iff.mpr hnew)).bind
    intro s₁ hs₁
    have hleaves : Leaves pm mac pdp (pdp.validDestination mac = true ∨ ctx.env.clientStatus = .success)
        (ctx.env.clientStatus ≠ .success) (pdp.validDestination mac = false) s s₁ := by
      constructor
      . simp only [hnew, Bool.false_eq_true, false_or]
        exact hs₁.table
      . exact hs₁.kept
      . exact fun _ => hs₁.asked trivial
    apply Ensures.bind_of_fail (fun _ _ => trivial)
    intro name _
    cases name with
    | none => exact hleaves
    | some responseName => exact hleaves.response ctx _ _ _

theorem answerAnnounce_leaves {responseName : MessageName} {status : StatusName}
    (h : Leaves pm mac pdp held False asked s s₁)
    : Ensures (s₁.answerAnnounce ctx mac responseName status) (Leaves pm mac pdp held False asked s)
        (fun _ => True) := by
  unfold answerAnnounce
  split
  . obtain ⟨pdp₁, hpdp₁, htable⟩ := h.table
    apply Ensures.bind_of_eq (peerPdp_eq_ok hpdp₁)
    apply Ensures.ok
    constructor
    . refine ⟨pdp₁.setNeedsResponse mac (some responseName), rfl, ?_⟩
      intro mac'
      rw [PeerData.validDestination_setNeedsResponse]
      exact htable mac'
    . exact False.elim
    . exact h.asked
  . exact .ok (h.response ctx _ _ _)

theorem handleDestinationAnnounce_leaves (hmac : pm.getMac ctx.cfg = .ok mac)
    (hpdp : s.peer.peerPdp = some pdp)
    : Ensures (s.handleDestinationAnnounce ctx pm)
        (Leaves pm mac pdp True (pdp.validDestination mac = true)
          (pdp.validDestination mac = false ∧ ctx.localPdp.validDestination mac = false) s)
        (fun _ => True) := by
  apply Ensures.bind_of_eq hmac
  apply Ensures.bind_of_fail (fun _ _ => trivial)
  intro name _
  cases name with
  | none => exact .error trivial
  | some responseName =>
    apply Ensures.bind_of_eq (peerPdp_eq_ok hpdp)
    split
    . next hnone =>
      have hvalid : pdp.validDestination mac = true := by
        rw [← Bool.not_eq_false', ← PeerData.addDestination_isSome ctx.cfg pdp mac pm.dataItems, hnone]
        rfl
      apply Ensures.ok
      apply Leaves.response
      apply Leaves.of_eq hpdp
      . simp [hvalid]
      . simp [hvalid]
    . next pdp' hadd =>
      obtain ⟨hnew, hvalid⟩ := PeerData.validDestination_addDestination hadd
      have htable : ∀ mac', pdp'.validDestination mac' = true
          ↔ if mac' = mac then True else pdp.validDestination mac' = true := by
        intro mac'
        rw [hvalid]
        split
        . next heq => simp [heq]
        . next hne => simp [hne]
      split
      . next ddp hlocal =>
        have hours : ctx.localPdp.validDestination mac = true := by
          unfold PeerData.validDestination
          rw [hlocal]
          rfl
        obtain ⟨ddp', hddp'⟩ : ∃ ddp', pdp'.destinationData.find? mac = some ddp' := by
          exact Option.isSome_iff_exists.mp ((htable mac).mpr (by simp))
        have hneeds : (pdp'.setNeedsResponse mac (some responseName)).needsResponse mac
            = some responseName := by
          simp [PeerData.setNeedsResponse, PeerData.needsResponse, hddp', SortedMap.find?_set]
        apply Ensures.bind_of_eq (peerPdp_eq_ok rfl)
        rw [hneeds]
        apply Ensures.bind_of_fail (fun _ _ => trivial)
        intro message _
        apply Ensures.ok
        constructor
        . refine ⟨(pdp'.setNeedsResponse mac (some responseName)).setNeedsResponse mac none, rfl, ?_⟩
          intro mac'
          rw [PeerData.validDestination_setNeedsResponse, PeerData.validDestination_setNeedsResponse]
          exact htable mac'
        . intro h
          rw [hnew] at h
          cases h
        . intro h
          rw [hours] at h
          cases h.2
      . have hleaves : Leaves pm mac pdp True False
          (pdp.validDestination mac = false ∧ ctx.localPdp.validDestination mac = false) s
            (((s.interested mac).setPdp pdp').call (.destinationUp s.peer.peerId mac pm.dataItems)) := by
          constructor
          . exact ⟨pdp', rfl, htable⟩
          . exact False.elim
          . intro _
            simp [call, setPdp, interested, setNotInterested]
        apply (answerAnnounce_leaves ctx hleaves).mono
        . intro s' hs'
          refine ⟨hs'.table, ?_, hs'.asked⟩
          intro h
          rw [hnew] at h
          cases h
        . exact fun _ h => h

theorem handleDestinationDown_leaves (hmac : pm.getMac ctx.cfg = .ok mac)
    (hpdp : s.peer.peerPdp = some pdp)
    : Ensures (s.handleDestinationDown ctx pm) (Leaves pm mac pdp False False False s)
        (fun _ => True) := by
  apply Ensures.bind_of_eq hmac
  apply Ensures.bind_of_eq (peerPdp_eq_ok hpdp)
  split
  . next pdp' hremove =>
    apply Ensures.ok
    apply Leaves.response
    constructor
    . refine ⟨pdp', rfl, ?_⟩
      intro mac'
      rw [(PeerData.validDestination_removeDestination hremove).2]
      split
      . next heq => simp [heq]
      . next hne => simp [hne]
    . exact False.elim
    . exact False.elim
  . next hnone =>
    have hvalid : pdp.validDestination mac = false := by
      rw [← PeerData.removeDestination_isSome pdp mac, hnone]
      rfl
    have hsame : ∀ s', s'.peer.peerPdp = s.peer.peerPdp → Leaves pm mac pdp False False False s s' := by
      intro s' hs'
      apply Leaves.of_eq (hs'.trans hpdp)
      . simp [hvalid]
      . exact not_false
    split
    . apply Ensures.ok
      apply Leaves.response
      exact hsame _ rfl
    . exact (terminate_peerPdp ctx s .invalidDestination).mono hsame (fun _ h => h)

def Handles (ctx : Context) (pm : ProtocolMessage) (mac : DlepMac) (pdp : PeerData) (s s' : Session)
    : Prop :=
  Leaves pm mac pdp
    (pm.name ≠ .destinationDown
      ∧ (pm.announces ctx.cfg = true ∨ pdp.validDestination mac = true ∨ ctx.env.clientStatus = .success))
    (pm.name ≠ .destinationDown ∧ ctx.env.clientStatus ≠ .success
      ∧ (pm.announces ctx.cfg = true → pdp.validDestination mac = true))
    (pm.name ≠ .destinationDown ∧ pdp.validDestination mac = false
      ∧ (pm.announces ctx.cfg = true → ctx.localPdp.validDestination mac = false))
    s s'

theorem dispatch_handles (hname : pm.name = .destinationUp ∨ pm.name = .destinationAnnounce
    ∨ pm.name = .destinationDown)
    (hmac : pm.getMac ctx.cfg = .ok mac) (hpdp : s.peer.peerPdp = some pdp)
    : Ensures (s.dispatch ctx pm) (Handles ctx pm mac pdp s) (fun _ => True) := by
  have hannounce : pm.name ≠ .destinationDown → pm.announces ctx.cfg = true →
      Ensures (s.handleDestinationAnnounce ctx pm) (Handles ctx pm mac pdp s) (fun _ => True) := by
    intro hdown hannounces
    apply (handleDestinationAnnounce_leaves ctx hmac hpdp).mono
    . intro s' hs'
      apply hs'.congr
      . simp [hdown, hannounces]
      . exact fun h => h.2.2 hannounces
      . exact fun h => ⟨h.2.1, h.2.2 hannounces⟩
    . exact fun _ h => h
  unfold dispatch
  rcases hname with hname | hname | hname
  . simp only [hname]
    split
    . next hmodem =>
      apply hannounce
      . simp [hname]
      . simp [ProtocolMessage.announces, hname, hmodem]
    . next hrouter =>
      have hannounces : pm.announces ctx.cfg = false := by
        simp [ProtocolMessage.announces, hname, hrouter]
      apply (handleDestinationUp_leaves ctx hmac hpdp).mono
      . intro s' hs'
        apply hs'.congr
        . simp [hname, hannounces]
        . exact fun h => h.2.1
        . exact fun h => h.2.1
      . exact fun _ h => h
  . simp only [hname]
    apply hannounce
    . simp [hname]
    . simp [ProtocolMessage.announces, hname]
  . simp only [hname]
    apply (handleDestinationDown_leaves ctx hmac hpdp).mono
    . intro s' hs'
      apply hs'.congr
      . simp [hname]
      . exact fun h => h.1 hname
      . exact fun h => h.1 hname
    . exact fun _ h => h

theorem checkStatusCodeFailure_passes
    (hname : pm.name ≠ .sessionTermination ∧ pm.name ≠ .sessionTerminationResponse)
    : Ensures (s.checkStatusCodeFailure ctx pm)
        (fun res => res.1 = pm.statusTerminates ctx.cfg ∧ res.2.peer.peerPdp = s.peer.peerPdp
          ∧ (res.1 = false → res.2 = s))
        (fun _ => True) := by
  unfold checkStatusCodeFailure
  rw [if_neg (fun h => h.elim hname.1 hname.2)]
  apply Ensures.bind_of_fail (fun _ _ => trivial)
  intro status hstatus
  cases status with
  | none =>
    obtain ⟨name, hnone⟩ := optional_eq_none hstatus
    apply Ensures.ok
    simp [ProtocolMessage.statusTerminates, hnone]
  | some info =>
    have hinfo := optional_eq_some hstatus
    simp only
    split
    . next hmode =>
      apply (terminate_peerPdp ctx s info.name).bind
      intro s' hs'
      apply Ensures.ok
      simp [ProtocolMessage.statusTerminates, hinfo, hmode, hs']
    . next hmode =>
      apply Ensures.ok
      simp [ProtocolMessage.statusTerminates, hinfo, hmode]

end

section

variable {cfg : SessionConfig} {s s' : Session} {e : Surroundings × DestinationMessage}
  {pdp : PeerData} {mac : DlepMac}

theorem destinationStep_of_not_passes (hpasses : e.2.val.passes cfg = false)
    (hstep : destinationStep cfg s e = some s')
    : s'.peer.peerPdp = s.peer.peerPdp := by
  have hname : e.2.val.name ≠ .sessionTermination ∧ e.2.val.name ≠ .sessionTerminationResponse := by
    rcases e.2.property with hname | hname | hname
    all_goals
      rw [hname]
      exact ⟨by decide, by decide⟩
  have hensures : Ensures (s.handle (e.1.context cfg) (.receive (some e.2.val)))
    (fun s' => s'.peer.peerPdp = s.peer.peerPdp)
      (fun _ => True) := by
    unfold handle handlePeerSignal
    simp only
    split
    . next hallows =>
      apply (checkStatusCodeFailure_passes (e.1.context cfg) hname).bind
      rintro ⟨failed, s₁⟩ ⟨hfailed, hpdp, _⟩
      have hterminates : e.2.val.statusTerminates cfg = true := by
        unfold ProtocolMessage.passes at hpasses
        rw [show cfg.allowsSender e.2.val.name (!cfg.modem) = true from hallows] at hpasses
        simpa using hpasses
      rw [show failed = true from hfailed.trans hterminates]
      exact .ok hpdp
    . exact terminate_peerPdp _ _ .invalidMessage
  exact hensures.of_toOption hstep

theorem destinationStep_of_passes (hpasses : e.2.val.passes cfg = true)
    (hmac : e.2.val.getMac cfg = .ok mac)
    (hpdp : s.peer.peerPdp = some pdp) (hstep : destinationStep cfg s e = some s')
    : Handles (e.1.context cfg) e.2.val mac pdp s s' := by
  have hname : e.2.val.name ≠ .sessionTermination ∧ e.2.val.name ≠ .sessionTerminationResponse := by
    rcases e.2.property with hname | hname | hname
    all_goals
      rw [hname]
      exact ⟨by decide, by decide⟩
  unfold ProtocolMessage.passes at hpasses
  rw [Bool.and_eq_true, Bool.not_eq_true'] at hpasses
  obtain ⟨hallows, hterminates⟩ := hpasses
  have hensures : Ensures (s.handle (e.1.context cfg) (.receive (some e.2.val)))
      (Handles (e.1.context cfg) e.2.val mac pdp (s.received e.1.env.now)) (fun _ => True) := by
    unfold handle handlePeerSignal
    simp only
    rw [if_pos (show (e.1.context cfg).cfg.allowsSender e.2.val.name (!(e.1.context cfg).cfg.modem)
      = true from hallows)]
    apply (checkStatusCodeFailure_passes (e.1.context cfg) hname).bind
    rintro ⟨failed, s₁⟩ ⟨hfailed, -, hsame⟩
    rw [show failed = false from hfailed.trans hterminates] at hsame ⊢
    rw [show s₁ = _ from hsame rfl]
    exact dispatch_handles (e.1.context cfg) e.2.property hmac hpdp
  have hhandles := hensures.of_toOption hstep
  exact ⟨hhandles.table, hhandles.kept, hhandles.asked⟩

theorem destinationStep_of_error {fault : Fault} (hmac : e.2.val.getMac cfg = .error fault)
    (hstep : destinationStep cfg s e = some s')
    : s'.peer.peerPdp = s.peer.peerPdp := by
  cases hpasses : e.2.val.passes cfg with
  | false => exact destinationStep_of_not_passes hpasses hstep
  | true =>
    have hname : e.2.val.name ≠ .sessionTermination ∧ e.2.val.name ≠ .sessionTerminationResponse := by
      rcases e.2.property with hname | hname | hname
      all_goals
        rw [hname]
        exact ⟨by decide, by decide⟩
    have hfails : ∀ (s : Session), Ensures (s.dispatch (e.1.context cfg) e.2.val) (fun _ => False)
        (fun _ => True) := by
      intro s
      unfold dispatch
      rcases e.2.property with hname | hname | hname
      . simp only [hname]
        split
        . apply Ensures.bind_of_fail (fun _ _ => trivial)
          intro mac hok
          cases hmac.symm.trans hok
        . apply Ensures.bind_of_fail (fun _ _ => trivial)
          intro mac hok
          cases hmac.symm.trans hok
      . simp only [hname]
        apply Ensures.bind_of_fail (fun _ _ => trivial)
        intro mac hok
        cases hmac.symm.trans hok
      . simp only [hname]
        apply Ensures.bind_of_fail (fun _ _ => trivial)
        intro mac hok
        cases hmac.symm.trans hok
    have hensures : Ensures (s.handle (e.1.context cfg) (.receive (some e.2.val)))
      (fun s' => s'.peer.peerPdp = s.peer.peerPdp)
        (fun _ => True) := by
      unfold handle handlePeerSignal
      simp only
      split
      . apply (checkStatusCodeFailure_passes (e.1.context cfg) hname).bind
        rintro ⟨failed, s₁⟩ ⟨-, hpdp, -⟩
        split
        . exact .ok hpdp
        . exact (hfails s₁).mono (fun _ h => h.elim) (fun _ h => h)
      . exact terminate_peerPdp _ _ .invalidMessage
    exact hensures.of_toOption hstep

theorem mem_agree {agreed : Finset DlepMac} (hpasses : e.2.val.passes cfg = true)
    (hmac : e.2.val.getMac cfg = .ok mac)
    (mac' : DlepMac)
    : mac' ∈ agree cfg agreed e
        ↔
      if mac' = mac then
        e.2.val.name ≠ .destinationDown
          ∧ (mac ∈ agreed ∨ answeredWithSuccess (e.1.context cfg) e.2.val mac = true)
      else
        mac' ∈ agreed := by
  unfold agree
  simp only [hmac, hpasses, Bool.not_true, Bool.false_eq_true, if_false]
  by_cases heq : mac' = mac
  . subst heq
    split
    . next hdown => simp [hdown]
    . next hup =>
      split
      . next hanswered => simp [hup, hanswered]
      . next hanswered => simp [hup, hanswered]
  . split
    . simp [heq]
    . split
      . simp [heq]
      . rfl

theorem refusesAnnounced_iff (hpasses : e.2.val.passes cfg = true) (hmac : e.2.val.getMac cfg = .ok mac)
    (hpdp : s.peer.peerPdp = some pdp)
    : refusesAnnounced cfg s e = true
        ↔
      e.2.val.announces cfg = true ∧ answeredWithSuccess (e.1.context cfg) e.2.val mac = false
          ∧ pdp.validDestination mac = false := by
  unfold refusesAnnounced
  simp [hmac, hpasses, hpdp, and_assoc]

theorem not_down_of_announces {pm : ProtocolMessage} (h : pm.announces cfg = true)
    : pm.name ≠ .destinationDown := by
  intro hdown
  simp [ProtocolMessage.announces, hdown] at h

theorem destinationStep_table {agreed : Finset DlepMac} (hpdp : s.peer.peerPdp = some pdp)
    (hagreed : ∀ mac, pdp.validDestination mac = true ↔ mac ∈ agreed)
    (hstep : destinationStep cfg s e = some s')
    : ∃ pdp', s'.peer.peerPdp = some pdp'
        ∧ ∀ mac, pdp'.validDestination mac = true
            ↔ mac ∈ agree cfg agreed e
                ∨ (refusesAnnounced cfg s e = true ∧ e.2.val.getMac cfg = .ok mac) := by
  cases hmac : e.2.val.getMac cfg with
  | error fault =>
    refine ⟨pdp, (destinationStep_of_error hmac hstep).trans hpdp, ?_⟩
    intro mac
    simp [agree, hmac, hagreed]
  | ok mac =>
    cases hpasses : e.2.val.passes cfg with
    | false =>
      refine ⟨pdp, (destinationStep_of_not_passes hpasses hstep).trans hpdp, ?_⟩
      intro mac'
      simp [agree, refusesAnnounced, hmac, hpasses, hagreed]
    | true =>
      obtain ⟨pdp', hpdp', htable⟩ := (destinationStep_of_passes hpasses hmac hpdp hstep).table
      refine ⟨pdp', hpdp', ?_⟩
      intro mac'
      rw [htable, mem_agree hpasses hmac, refusesAnnounced_iff hpasses hmac hpdp, Except.ok.injEq]
      by_cases heq : mac' = mac
      . have hdown := @not_down_of_announces cfg e.2.val
        have hanswered : answeredWithSuccess (e.1.context cfg) e.2.val mac' = true
            ↔ (e.1.context cfg).env.clientStatus = .success
              ∨ (e.2.val.announces cfg = true ∧ e.1.localPdp.validDestination mac' = true) := by
          rw [answeredWithSuccess, Bool.or_eq_true, Bool.and_eq_true, decide_eq_true_iff]
          rfl
        rw [show (e.1.context cfg).cfg = cfg from rfl]
        grind
      . have hne : mac ≠ mac' := fun h => heq h.symm
        simp [heq, hne, hagreed]

def HasAgreed (agreed : Finset DlepMac) (s : Session) : Prop :=
  ∃ pdp, s.peer.peerPdp = some pdp ∧ ∀ mac, pdp.validDestination mac = true ↔ mac ∈ agreed

theorem run_hasAgreed {agreed : Finset DlepMac} {es : List (Surroundings × DestinationMessage)}
    (hagreed : s.HasAgreed agreed)
    (hok : Guarded (destinationStep cfg) (fun s e => s.refusesAnnounced cfg e = false) s es)
    (hrun : run (destinationStep cfg) s es = some s')
    : s'.HasAgreed (es.foldl (agree cfg) agreed) := by
  induction es generalizing s agreed with
  | nil =>
    cases hrun
    exact hagreed
  | cons e es ih =>
    rw [run_cons, Option.bind_eq_some_iff] at hrun
    obtain ⟨s₁, hstep, hrun⟩ := hrun
    obtain ⟨pdp, hpdp, htable⟩ := hagreed
    obtain ⟨pdp₁, hpdp₁, htable₁⟩ := destinationStep_table hpdp htable hstep
    apply ih _ (hok.2 s₁ hstep) hrun
    refine ⟨pdp₁, hpdp₁, ?_⟩
    intro mac
    rw [htable₁, show refusesAnnounced cfg s e = false from hok.1]
    simp

/--
In every run of messages about destinations, none of which announces a new destination that the
client refuses, the table of the peer is what the answers say.
-/
theorem destinations_as_answered {agreed : Finset DlepMac}
    {es : List (Surroundings × DestinationMessage)} (hagreed : s.HasAgreed agreed)
    (hok : Guarded (destinationStep cfg) (fun s e => s.refusesAnnounced cfg e = false) s es)
    (hrun : run (destinationStep cfg) s es = some s')
    : s'.HasAgreed (es.foldl (agree cfg) agreed)
        ∧ ∀ e s'' mac, destinationStep cfg s' e = some s'' → e.2.val.passes cfg = true
          → e.2.val.getMac cfg = .ok mac →
        e.2.val.name ≠ .destinationDown →
          (answeredWithSuccess (e.1.context cfg) e.2.val mac = false →
            (s''.peer.peerPdp = s'.peer.peerPdp ↔ s'.refusesAnnounced cfg e = false))
            ∧ (mac ∉ es.foldl (agree cfg) agreed →
            (e.2.val.announces cfg = true → e.1.localPdp.validDestination mac = false) →
            .destinationUp s'.peer.peerId mac e.2.val.dataItems ∈ s''.calls.drop s'.calls.length) := by
  have hagreed' := run_hasAgreed hagreed hok hrun
  refine ⟨hagreed', ?_⟩
  intro e s'' mac hstep hpasses hmac hup
  obtain ⟨pdp, hpdp, htable⟩ := hagreed'
  have hleaves := destinationStep_of_passes hpasses hmac hpdp hstep
  have hrefuses := refusesAnnounced_iff hpasses hmac hpdp
  constructor
  . intro hanswered
    constructor
    . intro hsame
      rw [← Bool.not_eq_true, hrefuses]
      rintro ⟨hannounces, -, hnew⟩
      obtain ⟨pdp'', hpdp'', htable''⟩ := hleaves.table
      obtain rfl : pdp = pdp'' := Option.some.inj (hpdp.symm.trans (hsame.symm.trans hpdp''))
      have hvalid := (htable'' mac).mpr (by rw [if_pos rfl]; exact ⟨hup, .inl hannounces⟩)
      rw [hnew] at hvalid
      cases hvalid
    . intro hnot
      rw [hpdp]
      apply hleaves.kept
      refine ⟨hup, ?_, ?_⟩
      . intro hsuccess
        simp [answeredWithSuccess, hsuccess] at hanswered
      . intro hannounces
        by_contra hnew
        rw [hrefuses.mpr ⟨hannounces, hanswered, Bool.eq_false_iff.mpr hnew⟩] at hnot
        cases hnot
  . intro hnew hlocal
    apply hleaves.asked
    refine ⟨hup, ?_, hlocal⟩
    rw [← Bool.not_eq_true, htable]
    exact hnew

def answering (modem : Bool) (status : StatusName) : Surroundings where
  env := { Node.quietEnv with clientStatus := status }
  number := 0
  localPdp := .create (Node.rfc8175 modem) none []
  peers := []

def upSession (modem : Bool) : Session where
  peer := { Peer.create 1 0 with
    pstate := .inSession
    peerPdp := some (.create (Node.rfc8175 modem) (some 1) [])
  }
  infoBase := .empty
  calls := []

def announcement (host : UInt8) : DestinationMessage :=
  ⟨Node.announceMessage host, .inr (.inl rfl)⟩

def upMessage (host : UInt8) : DestinationMessage :=
  ⟨{ Node.announceMessage host with name := .destinationUp }, .inl rfl⟩

theorem upSession_hasAgreed (modem : Bool) : (upSession modem).HasAgreed ∅ := by
  refine ⟨_, rfl, ?_⟩
  intro mac
  simp [PeerData.validDestination, PeerData.create]

theorem destinations_as_answered_refused_up
    : ∃ s', run (destinationStep (Node.rfc8175 false)) (upSession false)
          [(answering false .notInterested, upMessage 1), (answering false .success, upMessage 1)]
            = some s'
        ∧ s'.HasAgreed
          ([(answering false .notInterested, upMessage 1),
          (answering false .success, upMessage 1)].foldl
            (agree (Node.rfc8175 false)) ∅) := by
  have hdefined : (run (destinationStep (Node.rfc8175 false)) (upSession false)
      [(answering false .notInterested, upMessage 1),
          (answering false .success, upMessage 1)]).isSome = true := by
    decide +kernel
  obtain ⟨s', hrun⟩ := Option.isSome_iff_exists.mp hdefined
  refine ⟨s', hrun, ?_⟩
  have hguarded : Guarded (destinationStep (Node.rfc8175 false))
      (fun s e => s.refusesAnnounced (Node.rfc8175 false) e = false) (upSession false)
      [(answering false .notInterested, upMessage 1), (answering false .success, upMessage 1)] := by
    decide +kernel
  exact (destinations_as_answered (upSession_hasAgreed false) hguarded hrun).1

theorem refused_announcement_is_held
    : ∃ s₁, (upSession true).HasAgreed ∅
        ∧ (upSession true).destinationStep (Node.rfc8175 true)
          (answering true .notInterested, announcement 1) = some s₁
        ∧ ¬ s₁.HasAgreed (agree (Node.rfc8175 true) ∅ (answering true .notInterested, announcement 1))
        ∧ (s₁.destinationStep (Node.rfc8175 true) (answering true .success, announcement 1)).map
            (fun s₂ =>
            s₂.calls.drop s₁.calls.length)
          = some [.send ⟨.destinationAnnounceResponse, some [2, 0, 0, 0, 0, 1],
              some .invalidMessage, []⟩] := by
  have hstep : ((upSession true).destinationStep (Node.rfc8175 true)
    (answering true .notInterested, announcement 1)).isSome
      = true := by
    decide +kernel
  obtain ⟨s₁, hs₁⟩ := Option.isSome_iff_exists.mp hstep
  refine ⟨s₁, upSession_hasAgreed true, hs₁, ?_, ?_⟩
  . rintro ⟨pdp, hpdp, htable⟩
    have hvalid : pdp.validDestination [2, 0, 0, 0, 0, 1] = true := by
      have hmacs : ((upSession true).destinationStep (Node.rfc8175 true)
        (answering true .notInterested, announcement 1)).map
          (fun s => s.peer.peerPdp.map (fun pdp => pdp.validDestination [2, 0, 0, 0, 0, 1])) = some
              (some true) := by
        decide +kernel
      simpa [hs₁, hpdp] using hmacs
    have hagreed := (htable _).mp hvalid
    rw [show agree (Node.rfc8175 true) ∅ (answering true .notInterested, announcement 1)
      = ∅ by decide +kernel] at hagreed
    simp at hagreed
  . have hcalls : ((upSession true).destinationStep (Node.rfc8175 true)
      (answering true .notInterested, announcement 1)).bind
        (fun s₁ => (s₁.destinationStep (Node.rfc8175 true)
            (answering true .success, announcement 1)).map (fun s₂ =>
          s₂.calls.drop s₁.calls.length))
        = some [.send
            ⟨.destinationAnnounceResponse, some [2, 0, 0, 0, 0, 1], some .invalidMessage, []⟩] := by
      decide +kernel
    simpa [hs₁] using hcalls

end
end Session
end Dlep
end Emane

import Mathlib.Algebra.GroupWithZero.Nat
import Mathlib.Data.Prod.Lex
import Mathlib.Order.WellFounded
import Emane.FlowControl.Impl.Token

/-!
This module contains the safety of the handshake between a transport and a MAC layer: an echo tells
the MAC layer how many packets come behind it.
-/

namespace Emane
namespace FlowControlManager

variable (m : FlowControlManager) (tokens : Nat)

@[simp]
theorem totalTokensAvailable_addToken
    : (m.addToken tokens).2.2.totalTokensAvailable = m.totalTokensAvailable := by
  unfold addToken
  simp only
  split
  all_goals
    split
    . rfl
    . rfl

theorem tokensAvailable_addToken {m : FlowControlManager} {tokens : Nat}
    (htotal : m.totalTokensAvailable < 2^16)
    (hfits : m.tokensAvailable + tokens ≤ m.totalTokensAvailable)
    : (m.addToken tokens).2.2.tokensAvailable = m.tokensAvailable + tokens := by
  have hmod : (m.tokensAvailable + tokens) % 2^16 = m.tokensAvailable + tokens := by
    apply Nat.mod_eq_of_lt
    omega
  unfold addToken
  simp only [hfits, ↓reduceIte]
  split
  . exact hmod
  . exact hmod

@[simp]
theorem totalTokensAvailable_removeToken
    : m.removeToken.2.totalTokensAvailable = m.totalTokensAvailable := by
  unfold removeToken
  split
  . rfl
  . split
    . rfl
    . rfl

theorem tokensAvailable_removeToken {m : FlowControlManager} (h : m.removeToken.1 = true)
    : m.removeToken.2.tokensAvailable + 1 = m.tokensAvailable := by
  unfold removeToken at h ⊢
  split
  . simp_all
  . split
    . simp_all
    . simp only
      omega

@[simp]
theorem tokensAvailable_processFlowControlMessage
    : (m.processFlowControlMessage tokens).2.tokensAvailable = m.tokensAvailable := by
  unfold processFlowControlMessage
  split
  . rfl
  . split
    . rfl
    . rfl

@[simp]
theorem totalTokensAvailable_processFlowControlMessage
    : (m.processFlowControlMessage tokens).2.totalTokensAvailable = m.totalTokensAvailable := by
  unfold processFlowControlMessage
  split
  . rfl
  . split
    . rfl
    . rfl

end FlowControlManager

namespace Handshake

/--
What the two parties promise in every state. The packet of a token that has been taken is one that
is on its way.
-/
structure Safe (totalTokensAvailable : Nat) (s : Handshake) : Prop where
  noWrap : ∀ downstream, s.downstream = .packet :: downstream → s.manager.removeToken.1 = true →
    0 < s.manager.shadowTokenCount
  shadow_le : s.manager.shadowTokenCount ≤ s.manager.tokensAvailable
  tokens_le : s.manager.tokensAvailable ≤ totalTokensAvailable
  quiescent : s.upstream = [] → s.downstream = [] → s.held = 0 →
    s.client.tokensAvailable + s.taken = s.manager.shadowTokenCount
      ∧ (0 < s.manager.tokensAvailable → 0 < s.manager.shadowTokenCount)

def Settled (s : Handshake) : Event → Prop
  | .start => s.taken = 0
  | .deliverUpstream => s.taken = 0
  | _ => True

instance (s : Handshake) (event : Event) : Decidable (s.Settled event) := by
  unfold Settled
  split
  . infer_instance
  . infer_instance
  . infer_instance

def Allows (credit : Nat) : Nat → List DownstreamMessage → Prop
  | tokens, [] => credit = tokens
  | _, .flowControl _ :: _ => True
  | tokens, .packet :: downstream => 0 < tokens ∧ Allows credit (tokens - 1) downstream

def Announces (credit : Nat) : List DownstreamMessage → Prop
  | [] => True
  | .flowControl tokens :: downstream => Allows credit tokens downstream ∧ Announces credit downstream
  | .packet :: downstream => Announces credit downstream

section

variable {credit : Nat} {downstream : List DownstreamMessage}

theorem Allows.echo {tokens : Nat} (h : Allows credit tokens downstream) (credit' tokens' : Nat)
    : Allows credit' tokens (downstream ++ [.flowControl tokens']) := by
  induction downstream generalizing tokens with
  | nil => trivial
  | cons message downstream ih =>
    cases message with
    | flowControl _ => trivial
    | packet => exact ⟨h.1, ih h.2⟩

theorem Allows.packet {tokens : Nat} (h : Allows (credit + 1) tokens downstream)
    : Allows credit tokens (downstream ++ [.packet]) := by
  induction downstream generalizing tokens with
  | nil =>
    rw [← h]
    exact ⟨Nat.succ_pos _, rfl⟩
  | cons message downstream ih =>
    cases message with
    | flowControl _ => trivial
    | packet => exact ⟨h.1, ih h.2⟩

theorem Announces.echo (h : Announces credit downstream) (tokens : Nat)
    : Announces tokens (downstream ++ [.flowControl tokens]) := by
  induction downstream with
  | nil => exact ⟨rfl, trivial⟩
  | cons message downstream ih =>
    cases message with
    | flowControl _ => exact ⟨h.1.echo _ _, ih h.2⟩
    | packet => exact ih h

theorem Announces.packet (h : Announces (credit + 1) downstream)
    : Announces credit (downstream ++ [.packet]) := by
  induction downstream with
  | nil => trivial
  | cons message downstream ih =>
    cases message with
    | flowControl _ => exact ⟨h.1.packet, ih h.2⟩
    | packet => exact ih h

end

structure Inv (totalTokensAvailable : Nat) (s : Handshake) : Prop where
  total : s.manager.totalTokensAvailable = totalTokensAvailable
  tokens : s.manager.tokensAvailable + s.held = totalTokensAvailable
  shadow_le : s.manager.shadowTokenCount ≤ s.manager.tokensAvailable
  shadow_pos : s.held = 0 → 0 < s.manager.tokensAvailable → 0 < s.manager.shadowTokenCount
  announces : Announces (s.client.tokensAvailable + s.taken) s.downstream
  allows : s.manager.ackPending = false →
    Allows (s.client.tokensAvailable + s.taken) s.manager.shadowTokenCount s.downstream
  last : s.manager.ackPending = true → s.manager.lastTokensUpdate = s.manager.shadowTokenCount
  pending : s.manager.ackPending = true → s.upstream ≠ [] ∨ ∃ tokens, .flowControl tokens ∈ s.downstream

theorem Inv.respond {totalTokensAvailable : Nat} {s : Handshake}
    (htotal : s.manager.totalTokensAvailable = totalTokensAvailable)
    (htokens : s.manager.tokensAvailable + s.held = totalTokensAvailable)
    (hannounces : Announces (s.client.tokensAvailable + s.taken) s.downstream)
    : Inv totalTokensAvailable
        { s with
          upstream := s.upstream ++ s.manager.sendFlowControlResponseMessage.1
          manager := s.manager.sendFlowControlResponseMessage.2 } where
  total := htotal
  tokens := htokens
  shadow_le := Nat.le_refl _
  shadow_pos := fun _ h => h
  announces := hannounces
  allows := by simp [FlowControlManager.sendFlowControlResponseMessage]
  last := fun _ => rfl
  pending := fun _ => Or.inl (by simp [FlowControlManager.sendFlowControlResponseMessage])

theorem Inv.of_init (totalTokensAvailable : Nat)
    : Inv totalTokensAvailable (init totalTokensAvailable) := by
  let s : Handshake := ⟨.init, 0, [], [], ⟨totalTokensAvailable, totalTokensAvailable, 0, 0, true⟩, 0⟩
  have htotal : s.manager.totalTokensAvailable = totalTokensAvailable := rfl
  exact Inv.respond htotal rfl trivial

section

variable {totalTokensAvailable : Nat} {s : Handshake}

theorem Inv.echo (h : Inv totalTokensAvailable s) {upstream : List Nat} {tokens : Nat}
    (htaken : s.taken = 0)
    : Inv totalTokensAvailable
        { s with
          client := ⟨tokens⟩
          upstream := upstream
          downstream := s.downstream ++ [.flowControl tokens] } where
  total := h.total
  tokens := h.tokens
  shadow_le := h.shadow_le
  shadow_pos := h.shadow_pos
  announces := by
    simp only [htaken, Nat.add_zero]
    exact h.announces.echo tokens
  allows := fun hack => (h.allows hack).echo _ _
  last := h.last
  pending := fun _ => Or.inr ⟨tokens, by simp⟩

theorem Inv.removeToken (h : Inv totalTokensAvailable s) {client : FlowControlClient}
    (heq : s.client.removeToken = some client)
    : Inv totalTokensAvailable { s with client := client, taken := s.taken + 1 } := by
  have hcredit : client.tokensAvailable + (s.taken + 1) = s.client.tokensAvailable + s.taken := by
    unfold FlowControlClient.removeToken at heq
    split at heq
    . simp at heq
    . rw [Option.some.injEq] at heq
      rw [← heq]
      simp only
      omega
  constructor
  . exact h.total
  . exact h.tokens
  . exact h.shadow_le
  . exact h.shadow_pos
  . simp only [hcredit]
    exact h.announces
  . simp only [hcredit]
    exact h.allows
  . exact h.last
  . exact h.pending

theorem Inv.sendDownstreamPacket (h : Inv totalTokensAvailable s) (htaken : s.taken ≠ 0)
    : Inv totalTokensAvailable
        { s with taken := s.taken - 1, downstream := s.downstream ++ [.packet] } := by
  have hcredit : s.client.tokensAvailable + s.taken = s.client.tokensAvailable + (s.taken - 1)
    + 1 := by omega
  constructor
  . exact h.total
  . exact h.tokens
  . exact h.shadow_le
  . exact h.shadow_pos
  . have hannounces := h.announces
    rw [hcredit] at hannounces
    exact hannounces.packet
  . intro hack
    have hallows := h.allows hack
    rw [hcredit] at hallows
    exact hallows.packet
  . exact h.last
  . intro hack
    cases h.pending hack with
    | inl hup => exact Or.inl hup
    | inr hdown =>
      obtain ⟨tokens, hmem⟩ := hdown
      exact Or.inr ⟨tokens, List.mem_append_left _ hmem⟩

theorem Inv.processFlowControl (h : Inv totalTokensAvailable s) {tokens : Nat}
    {downstream : List DownstreamMessage}
    (hdown : s.downstream = .flowControl tokens :: downstream)
    : Inv totalTokensAvailable
        ({ s with downstream := downstream }.processDownstream (.flowControl tokens)) := by
  have hannounces := h.announces
  rw [hdown] at hannounces
  unfold processDownstream FlowControlManager.processFlowControlMessage
  simp only
  split
  . exact Inv.respond (s := { s with downstream := downstream }) h.total h.tokens hannounces.2
  . next hack =>
    rw [Bool.not_eq_false] at hack
    split
    . next hlast =>
      constructor
      . exact h.total
      . exact h.tokens
      . exact h.shadow_le
      . exact h.shadow_pos
      . exact hannounces.2
      . intro _
        rw [← h.last hack, ← hlast]
        exact hannounces.1
      . simp
      . simp
    . exact Inv.respond (s := { s with downstream := downstream }) h.total h.tokens hannounces.2

theorem Inv.processPacket (h : Inv totalTokensAvailable s) (htotal : totalTokensAvailable < 2^16)
    {downstream : List DownstreamMessage} (hdown : s.downstream = .packet :: downstream)
    : Inv totalTokensAvailable ({ s with downstream := downstream }.processDownstream .packet) := by
  have hannounces := h.announces
  have hallows := h.allows
  have hpending := h.pending
  rw [hdown] at hannounces hallows hpending
  have hle := h.shadow_le
  have htokens := h.tokens
  unfold processDownstream FlowControlManager.removeToken
  cases hack : s.manager.ackPending with
  | true =>
    constructor
    . exact h.total
    . exact h.tokens
    . exact h.shadow_le
    . exact h.shadow_pos
    . exact hannounces
    . simp [hack]
    . exact h.last
    . intro _
      cases hpending hack with
      | inl hup => exact Or.inl hup
      | inr hmem =>
        obtain ⟨tokens, hmem⟩ := hmem
        rw [List.mem_cons] at hmem
        cases hmem with
        | inl hmem => simp at hmem
        | inr hmem => exact Or.inr ⟨tokens, hmem⟩
  | false =>
    have hallows := hallows hack
    have hpos := hallows.1
    have hshadow : (s.manager.shadowTokenCount + (2^16 - 1)) % 2^16 = s.manager.shadowTokenCount
      - 1 := by omega
    have hsome : ¬ s.manager.tokensAvailable = 0 := by omega
    simp only [Bool.false_eq_true, hsome, ↓reduceIte, hshadow]
    constructor
    . exact h.total
    . simp only
      omega
    . simp only
      omega
    . simp
    . exact hannounces
    . intro _
      exact hallows.2
    . simp
    . simp

theorem Inv.addToken (h : Inv totalTokensAvailable s) (htotal : totalTokensAvailable < 2^16)
    {tokens : Nat}
    (hpos : 0 < tokens) (hheld : tokens ≤ s.held)
    : Inv totalTokensAvailable (s.addToken tokens) := by
  have htokens := h.tokens
  have hle := h.shadow_le
  have hfits : s.manager.tokensAvailable + tokens ≤ s.manager.totalTokensAvailable := by
    rw [h.total]
    omega
  have hmod : (s.manager.tokensAvailable + tokens) % 2^16 = s.manager.tokensAvailable + tokens := by
    apply Nat.mod_eq_of_lt
    omega
  let s' : Handshake :=
    { s with
      manager := { s.manager with tokensAvailable := s.manager.tokensAvailable + tokens }
      held := s.held - tokens }
  have htokens' : s'.manager.tokensAvailable + s'.held = totalTokensAvailable := by
    simp only [s']
    omega
  unfold Handshake.addToken FlowControlManager.addToken
  simp only [hfits, ↓reduceIte, hmod]
  split
  . exact Inv.respond (s := s') h.total htokens' h.announces
  . next hshadow =>
    simp only [List.append_nil]
    constructor
    . exact h.total
    . exact htokens'
    . simp only
      omega
    . intro _ _
      simp only at hshadow ⊢
      omega
    . exact h.announces
    . exact h.allows
    . exact h.last
    . exact h.pending

theorem Inv.step (h : Inv totalTokensAvailable s) (htotal : totalTokensAvailable < 2^16)
    {event : Event} {s' : Handshake}
    (hsettled : s.Settled event) (heq : s.step event = some s')
    : Inv totalTokensAvailable s' := by
  unfold Handshake.step at heq
  cases event with
  | start =>
    rw [Option.some.injEq] at heq
    rw [← heq]
    exact h.echo hsettled
  | removeToken =>
    simp only [Option.bind_eq_bind, Option.bind_eq_some_iff, Option.pure_def, Option.some.injEq] at heq
    obtain ⟨client, hclient, heq⟩ := heq
    rw [← heq]
    exact h.removeToken hclient
  | sendDownstreamPacket =>
    simp only at heq
    split at heq
    . simp at heq
    . next htaken =>
      rw [Option.some.injEq] at heq
      rw [← heq]
      exact h.sendDownstreamPacket htaken
  | deliverUpstream =>
    simp only at heq
    split at heq
    . simp at heq
    . rw [Option.some.injEq] at heq
      rw [← heq]
      exact h.echo hsettled
  | deliverDownstream =>
    simp only at heq
    split at heq
    . simp at heq
    . next message downstream hdown =>
      rw [Option.some.injEq] at heq
      rw [← heq]
      cases message with
      | flowControl tokens => exact h.processFlowControl hdown
      | packet => exact h.processPacket htotal hdown
  | addToken tokens =>
    simp only at heq
    split at heq
    . next hheld =>
      rw [Option.some.injEq] at heq
      rw [← heq]
      exact h.addToken htotal hheld.1 hheld.2
    . simp at heq

theorem Inv.safe (h : Inv totalTokensAvailable s) : Safe totalTokensAvailable s := by
  have htokens := h.tokens
  constructor
  . intro downstream hdown hstatus
    have hack : s.manager.ackPending = false := by
      unfold FlowControlManager.removeToken at hstatus
      split at hstatus
      . simp at hstatus
      . next hack => simpa using hack
    have hallows := h.allows hack
    rw [hdown] at hallows
    exact hallows.1
  . exact h.shadow_le
  . omega
  . intro hup hdown hheld
    have hack : s.manager.ackPending = false := by
      rw [← Bool.not_eq_true]
      intro hack
      have hpending := h.pending hack
      simp [hup, hdown] at hpending
    have hallows := h.allows hack
    rw [hdown] at hallows
    exact ⟨hallows, h.shadow_pos hheld⟩

end

theorem safe_of_settled {totalTokensAvailable : Nat} (htotal : totalTokensAvailable < 2^16)
    {events : List Event}
    {s : Handshake} (hsettled : Guarded step Settled (init totalTokensAvailable) events)
    (hrun : run step (init totalTokensAvailable) events = some s)
    : Safe totalTokensAvailable s := by
  apply Inv.safe
  apply run_inv _ (Inv.of_init totalTokensAvailable) hsettled hrun
  intro s event s' h hok heq
  exact h.step htotal hok heq

theorem safe_of_settled_example
    : run step (init 2)
        [
          .deliverUpstream, .deliverDownstream, .removeToken, .sendDownstreamPacket, .start,
            .deliverDownstream,
          .deliverDownstream, .addToken 1, .deliverUpstream, .removeToken, .deliverDownstream
        ]
        =
      some ⟨⟨0⟩, 1, [], [], ⟨2, 2, 1, 1, false⟩, 0⟩
        ∧ Safe 2 ⟨⟨0⟩, 1, [], [], ⟨2, 2, 1, 1, false⟩, 0⟩ := by
  have hrun : run step (init 2)
      [
        .deliverUpstream, .deliverDownstream, .removeToken, .sendDownstreamPacket, .start,
          .deliverDownstream,
        .deliverDownstream, .addToken 1, .deliverUpstream, .removeToken, .deliverDownstream
      ] = some ⟨⟨0⟩, 1, [], [], ⟨2, 2, 1, 1, false⟩, 0⟩ := by decide
  exact ⟨hrun, safe_of_settled (by decide) (by decide) hrun⟩

theorem not_safe_of_restart
    : run step (init 2)
        [
          .deliverUpstream, .deliverDownstream, .start, .removeToken, .deliverDownstream,
            .deliverUpstream,
          .sendDownstreamPacket, .deliverDownstream, .deliverDownstream, .addToken 1, .removeToken,
            .sendDownstreamPacket,
          .deliverDownstream, .removeToken, .sendDownstreamPacket, .deliverDownstream
        ]
        =
      some ⟨⟨0⟩, 0, [], [], ⟨0, 2, 65535, 2, false⟩, 2⟩
        ∧ ¬ Safe 2 ⟨⟨0⟩, 0, [], [], ⟨0, 2, 65535, 2, false⟩, 2⟩ := by
  constructor
  . decide
  . intro h
    have hle := h.shadow_le
    simp at hle

def Proceeds (s : Handshake) (event : Event) : Prop :=
  event ≠ .start ∧ event ≠ .removeToken ∧ s.Settled event

instance (s : Handshake) (event : Event) : Decidable (s.Proceeds event) :=
  inferInstanceAs (Decidable (_ ∧ _ ∧ _))

section

variable {s s' : Handshake}

def stale (s : Handshake) (tokens : Nat) : Nat :=
  if tokens = s.manager.tokensAvailable then 0 else 2

def outstanding (s : Handshake) : Nat × Nat :=
  (
    3 * s.taken + 2 * s.downstream.count .packet + s.held,
    (s.upstream.map (fun tokens => s.stale tokens + 4)).sum
      + (s.downstream.map (fun | .flowControl tokens => s.stale tokens + 3 | .packet => 0)).sum
      + if s.manager.ackPending then s.stale s.manager.lastTokensUpdate else 2
  )

theorem outstanding_processFlowControl {tokens : Nat} {downstream : List DownstreamMessage}
    (hdown : s.downstream = .flowControl tokens :: downstream)
    : Prod.Lex (· < ·) (· < ·)
        ({ s with downstream := downstream }.processDownstream (.flowControl tokens)).outstanding
        s.outstanding := by
  rw [Prod.lex_def]
  right
  unfold processDownstream FlowControlManager.processFlowControlMessage
    FlowControlManager.sendFlowControlResponseMessage
  unfold outstanding stale
  rw [hdown]
  cases hack : s.manager.ackPending with
  | false =>
    simp
    omega
  | true =>
    by_cases hlast : tokens = s.manager.lastTokensUpdate
    . simp [← hlast]
      split
      . omega
      . omega
    . simp [hlast]
      split
      . split
        . omega
        . omega
      . split
        . omega
        . omega

theorem outstanding_step {event : Event} (hproceeds : s.Proceeds event) (hstep : s.step event = some s')
    : Prod.Lex (· < ·) (· < ·) s'.outstanding s.outstanding := by
  unfold step at hstep
  cases event with
  | start => exact absurd rfl hproceeds.1
  | removeToken => exact absurd rfl hproceeds.2.1
  | sendDownstreamPacket =>
    simp only [Option.ite_none_left_eq_some, Option.some.injEq] at hstep
    obtain ⟨htaken, rfl⟩ := hstep
    left
    simp
    omega
  | deliverUpstream =>
    cases hup : s.upstream with
    | nil => simp [hup] at hstep
    | cons tokens upstream =>
      simp only [hup, Option.some.injEq] at hstep
      subst hstep
      rw [Prod.lex_def]
      right
      simp [outstanding, stale, processUpstream, FlowControlClient.processFlowControlMessage, hup]
      omega
  | deliverDownstream =>
    cases hdown : s.downstream with
    | nil => simp [hdown] at hstep
    | cons message downstream =>
      simp only [hdown, Option.some.injEq] at hstep
      subst hstep
      cases message with
      | flowControl tokens => exact outstanding_processFlowControl hdown
      | packet =>
        left
        simp [processDownstream, hdown]
        split
        . simp
          omega
        . simp
  | addToken tokens =>
    simp only [Option.ite_none_right_eq_some, Option.some.injEq] at hstep
    obtain ⟨⟨hpos, hheld⟩, rfl⟩ := hstep
    left
    simp [Handshake.addToken]
    omega

theorem exhausted_of_stuck (hstuck : ∀ event, s.Proceeds event → s.step event = none)
    : s.upstream = [] ∧ s.downstream = [] ∧ s.held = 0 ∧ s.taken = 0 := by
  have htaken : s.taken = 0 := by
    have hsend := hstuck .sendDownstreamPacket ⟨by simp, by simp, trivial⟩
    simpa [step] using hsend
  have hup := hstuck .deliverUpstream ⟨by simp, by simp, htaken⟩
  have hdown := hstuck .deliverDownstream ⟨by simp, by simp, trivial⟩
  have hadd := hstuck (.addToken s.held) ⟨by simp, by simp, trivial⟩
  refine ⟨?_, ?_, ?_, htaken⟩
  . cases hcases : s.upstream with
    | nil => rfl
    | cons tokens upstream => simp [step, hcases] at hup
  . cases hcases : s.downstream with
    | nil => rfl
    | cons message downstream => simp [step, hcases] at hdown
  . simpa [step] using hadd

end

/--
A transport that waits gets a token, whatever the order of what goes on.
-/
theorem token_comes {totalTokensAvailable : Nat} (hpos : 0 < totalTokensAvailable)
    (htotal : totalTokensAvailable < 2^16)
    {events : List Event} {s : Handshake}
    (hsettled : Guarded step Settled (init totalTokensAvailable) events)
    (hrun : run step (init totalTokensAvailable) events = some s)
    : (¬ ∃ states : Nat → Handshake,
        states 0 = s ∧ ∀ n, ∃ event, (states n).Proceeds event
          ∧ (states n).step event = some (states (n + 1)))
        ∧ ∀ later s', Guarded step Proceeds s later → run step s later = some s' →
          (∀ event, s'.Proceeds event → s'.step event = none) → 0 < s'.client.tokensAvailable := by
  have hstep : ∀ s event s', Inv totalTokensAvailable s → Settled s event → step s event = some s'
      → Inv totalTokensAvailable s' :=
    fun s event s' h hok heq => h.step htotal hok heq
  have hinv : Inv totalTokensAvailable s := run_inv hstep (Inv.of_init totalTokensAvailable) hsettled hrun
  constructor
  . rintro ⟨states, _, hstates⟩
    obtain ⟨n, hn⟩ := @WellFounded.not_rel_apply_succ _ (Prod.Lex (· < ·) (· < ·)) inferInstance
      (fun n => (states n).outstanding)
    obtain ⟨event, hproceeds, heq⟩ := hstates n
    exact hn (outstanding_step hproceeds heq)
  . intro later s' hproceeds hlater hstuck
    have hinv' := run_inv hstep hinv (hproceeds.mono (fun _ _ h => h.2.2)) hlater
    obtain ⟨hup, hdown, hheld, htaken⟩ := exhausted_of_stuck hstuck
    have hquiescent := hinv'.safe.quiescent hup hdown hheld
    have htokens := hinv'.tokens
    omega

theorem token_comes_example
    : ∃ s s',
        run step (init 2)
            [
              .deliverUpstream, .deliverDownstream, .removeToken, .removeToken,
                .sendDownstreamPacket, .sendDownstreamPacket,
              .deliverDownstream, .deliverDownstream
            ]
            =
          some s
          ∧ s.client.tokensAvailable = 0
          ∧ run step s [.addToken 1, .addToken 1, .deliverUpstream, .deliverDownstream] = some s'
          ∧ 0 < s'.client.tokensAvailable := by
  have hrun : run step (init 2)
      [
        .deliverUpstream, .deliverDownstream, .removeToken, .removeToken, .sendDownstreamPacket,
          .sendDownstreamPacket,
        .deliverDownstream, .deliverDownstream
      ] = some ⟨⟨0⟩, 0, [], [], ⟨0, 2, 0, 2, false⟩, 2⟩ := by decide
  have hlater : run step ⟨⟨0⟩, 0, [], [], ⟨0, 2, 0, 2, false⟩, 2⟩
    [.addToken 1, .addToken 1, .deliverUpstream, .deliverDownstream]
      = some ⟨⟨1⟩, 0, [], [], ⟨2, 2, 1, 1, false⟩, 0⟩ := by decide
  refine ⟨_, _, hrun, rfl, hlater, (token_comes (by decide) (by decide) (by decide) hrun).2 _ _
    (by decide) hlater ?_⟩
  intro event hproceeds
  cases event with
  | start => exact absurd rfl hproceeds.1
  | removeToken => exact absurd rfl hproceeds.2.1
  | sendDownstreamPacket => rfl
  | deliverUpstream => rfl
  | deliverDownstream => rfl
  | addToken tokens =>
    simp [step]
    omega

end Handshake
end Emane

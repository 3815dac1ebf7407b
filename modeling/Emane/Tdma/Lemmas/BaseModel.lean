import Emane.FlowControl.Lemmas.Handshake
import Emane.Lib.Outcome
import Emane.Tdma.Impl.BaseModel
import Emane.Tdma.Lemmas.Completion

/-!
This module contains the balance of tokens: those of the flow control manager and those of the
packets in the queues.
-/

namespace Emane
namespace Tdma
namespace BaseModel

open BasicQueueManager

structure Balance (total n : Nat) (b : BaseModel) : Prop where
  enabled : b.flowControlEnable = true
  total : b.flowControlManager.totalTokensAvailable = total
  depth : 0 < b.queueManager.queueDepth
  manages : ∃ es, Manages b.queueManager.toQueueManagerConfig b.queueManager.queues es
  tokens : b.flowControlManager.tokensAvailable + b.dataPackets = n

/--
The state of a guarded run before the event. A packet that takes a token has a priority that the
texts of the mapping can be read for, and no transmit opportunity unbalances the tokens.
-/
def Balances (b : BaseModel) : Event → Prop
  | .downstreamPacket pkt =>
    b.flowControlManager.removeToken.1 = true
      → (b.queueMapping.priorityToQueue pkt.info.priority).toOption.isSome = true
  | .txOpportunity slot => b.queueManager.Balances slot.queueId slot.bytesAvailable slot.destination
  | _ => True

instance (b : BaseModel) (event : Event) : Decidable (b.Balances event) := by
  unfold Balances
  split
  . infer_instance
  . infer_instance
  . infer_instance

variable {b : BaseModel}

theorem dataPackets_eq {cfg : QueueManagerConfig} {es : QueueIndex → List Entry}
    (h : Manages cfg b.queueManager.queues es)
    : b.dataPackets = userPackets es := by
  unfold dataPackets userPackets
  congr 1
  apply List.map_congr_left
  intro i _
  exact (h.holds i.castSucc).size_eq

variable {total n : Nat}

theorem Balance.addToken (h : Balance total n b) (tokens : Nat) (htotal : total < 2^16)
    (hfits : n + tokens ≤ total)
    : Balance total (n + tokens) (b.addToken tokens).2 := by
  have htokens := h.tokens
  have hmod : tokens % 2^16 = tokens := Nat.mod_eq_of_lt (by omega)
  constructor
  . exact h.enabled
  . simpa [BaseModel.addToken] using h.total
  . exact h.depth
  . exact h.manages
  . simp only [BaseModel.addToken, hmod]
    rw [FlowControlManager.tokensAvailable_addToken]
    . change _ + b.dataPackets = _
      omega
    . rw [h.total]
      exact htotal
    . rw [h.total]
      omega

theorem Balance.replaceTokens (h : Balance total n b) (packetsDropped : Nat)
    (htotal : total < 2^16) (hfits : n + packetsDropped ≤ total)
    : Balance total (n + packetsDropped) (b.replaceTokens packetsDropped).2 := by
  induction packetsDropped generalizing b n with
  | zero => exact h
  | succ packetsDropped ih =>
    have hnext := ih (h.addToken 1 htotal (by omega)) (by omega)
    rw [Nat.add_assoc, Nat.add_comm 1] at hnext
    exact hnext

theorem Balance.enqueue {b : BaseModel} {total n queueIndex packetsDropped : Nat} {pkt : DownstreamPacket}
    {reports : List Report} {queueManager : BasicQueueManager} (h : Balance total n b)
    (heq : b.queueManager.enqueue queueIndex pkt = some (packetsDropped, reports, queueManager))
    : packetsDropped ≤ 1
        ∧ Balance total (n + (if queueIndex < 4 then 1 - packetsDropped else 0))
        { b with queueManager := queueManager } := by
  obtain ⟨es, hmanages⟩ := h.manages
  obtain ⟨hconfig, hle, es', hmanages', hlength⟩ := hmanages.enqueue heq
  have hpackets := userPackets_enqueue hlength
  have htokens := h.tokens
  rw [dataPackets_eq hmanages] at htokens
  refine ⟨hle, ?_⟩
  constructor
  . exact h.enabled
  . exact h.total
  . rw [hconfig]
    exact h.depth
  . rw [hconfig]
    exact ⟨es', hmanages'⟩
  . rw [dataPackets_eq hmanages']
    simp only
    split
    . next hlt =>
      simp only [hlt, ↓reduceIte] at hpackets
      omega
    . next hlt =>
      simp only [hlt, ↓reduceIte] at hpackets
      omega

theorem Balance.removeToken (h : Balance total n b)
    (hstatus : b.flowControlManager.removeToken.1 = true)
    : 0 < n ∧ Balance total (n - 1)
        { b with flowControlManager := b.flowControlManager.removeToken.2 } := by
  have htokens := h.tokens
  have hremove := FlowControlManager.tokensAvailable_removeToken hstatus
  refine ⟨by omega, ?_⟩
  constructor
  . exact h.enabled
  . simpa using h.total
  . exact h.depth
  . exact h.manages
  . change _ + b.dataPackets = _
    simp only
    omega

theorem Balance.processDownstreamPacket (h : Balance total total b)
    (htotal : total < 2^16) {pkt : DownstreamPacket} (hbalances : b.Balances (.downstreamPacket pkt))
    : ∃ outputs b', b.processDownstreamPacket pkt = some (outputs, b') ∧ Balance total total b' := by
  obtain ⟨es, hmanages⟩ := h.manages
  unfold BaseModel.processDownstreamPacket
  simp only [h.enabled, ↓reduceIte]
  split
  . next hstatus =>
    obtain ⟨queue, hqueue⟩ := Option.isSome_iff_exists.mp (hbalances hstatus)
    rw [toOption_eq_some_iff.mp hqueue]
    obtain ⟨⟨packetsDropped, reports, queueManager⟩, heq⟩ := hmanages.exists_enqueue h.depth queue pkt
    obtain ⟨hpos, hremoved⟩ := h.removeToken hstatus
    obtain ⟨hle, henqueued⟩ := hremoved.enqueue heq
    have hreplaced := henqueued.replaceTokens packetsDropped htotal
    simp only [Fin.is_lt, ↓reduceIte, h.enabled] at hreplaced
    have hsum : total - 1 + (1 - packetsDropped) + packetsDropped = total := by omega
    rw [hsum] at hreplaced
    dsimp only
    rw [heq]
    exact ⟨_, _, rfl, hreplaced (Nat.le_refl _)⟩
  . exact ⟨_, b, rfl, h⟩

theorem Balance.processSchedulerPacket (h : Balance total total b) (pkt : DownstreamPacket)
    : ∃ outputs b', b.processSchedulerPacket pkt = some (outputs, b') ∧ Balance total total b' := by
  obtain ⟨es, hmanages⟩ := h.manages
  obtain ⟨⟨packetsDropped, reports, queueManager⟩, heq⟩ := hmanages.exists_enqueue h.depth 4 pkt
  unfold BaseModel.processSchedulerPacket
  rw [heq]
  exact ⟨_, _, rfl, (h.enqueue heq).2⟩

theorem Balance.setSequenceNumber (h : Balance total n b) (sequenceNumber : Nat)
    : Balance total n { b with sequenceNumber := sequenceNumber } where
  enabled := h.enabled
  total := h.total
  depth := h.depth
  manages := h.manages
  tokens := h.tokens

theorem Balance.sendDownstreamPacket (h : Balance total total b)
    (htotal : total < 2^16) {slot : TxSlotInfo}
    (hbalances : b.queueManager.Balances slot.queueId slot.bytesAvailable slot.destination)
    : ∃ outputs b', b.sendDownstreamPacket slot = some (outputs, b') ∧ Balance total total b' := by
  obtain ⟨es, hmanages⟩ := h.manages
  obtain ⟨d, queueManager, fs, heq, hspends⟩ :=
    exists_spends hmanages slot.queueId slot.bytesAvailable slot.destination
  have hcompleted := hspends.completed hmanages hbalances
  have htokens := h.tokens
  rw [dataPackets_eq hmanages] at htokens
  -- the completed packets have left the queues, their tokens are still to come
  have hspent : Balance total (total - d.components.completed)
      { b with queueManager := queueManager } := by
    constructor
    . exact h.enabled
    . exact h.total
    . rw [hspends.config]
      exact h.depth
    . rw [hspends.config]
      exact ⟨_, hspends.manages⟩
    . rw [dataPackets_eq hspends.manages]
      simp only
      omega
  have hback : total - d.components.completed + d.components.completed = total := by omega
  unfold BaseModel.sendDownstreamPacket
  rw [heq]
  simp only [Option.bind_eq_bind, Option.bind_some]
  split
  . refine ⟨_, _, rfl, Balance.setSequenceNumber ?_ _⟩
    split
    . have hadded := hspent.addToken d.components.completed htotal (by omega)
      rw [hback] at hadded
      exact hadded
    . next hzero =>
      simp only [h.enabled, Bool.true_and, ne_eq, decide_not, Bool.not_eq_true',
        decide_eq_false_iff_not, not_not] at hzero
      change d.components.completed = 0 at hzero
      rw [hzero] at hspent
      exact hspent
  . next hlength =>
    have hnil := hspends.components_eq_nil
    have hbound := hspends.bound
    have hzero : d.totalLength = 0 := by
      simp only [ne_eq, decide_not, Bool.and_eq_true, Bool.not_eq_true', decide_eq_false_iff_not,
        decide_eq_true_eq,
        not_and, Nat.not_le] at hlength
      omega
    rw [hnil hzero] at hspent
    exact ⟨_, _, rfl, hspent⟩

theorem Balance.processFlowControlMessage (h : Balance total total b) (tokens : Nat)
    : Balance total total (b.processFlowControlMessage tokens).2 := by
  unfold BaseModel.processFlowControlMessage
  rw [if_pos h.enabled]
  constructor
  . exact h.enabled
  . simpa using h.total
  . exact h.depth
  . exact h.manages
  . change _ + b.dataPackets = _
    simpa using h.tokens

theorem Balance.exists_step (h : Balance total total b) (htotal : total < 2^16)
    {event : Event} (hbalances : b.Balances event)
    : ∃ b', b.step event = some b' ∧ Balance total total b' := by
  cases event with
  | downstreamPacket pkt =>
    obtain ⟨outputs, b', heq, hb'⟩ := h.processDownstreamPacket htotal hbalances
    exact ⟨b', by simp [step, heq], hb'⟩
  | schedulerPacket pkt =>
    obtain ⟨outputs, b', heq, hb'⟩ := h.processSchedulerPacket pkt
    exact ⟨b', by simp [step, heq], hb'⟩
  | txOpportunity slot =>
    obtain ⟨outputs, b', heq, hb'⟩ := h.sendDownstreamPacket htotal hbalances
    exact ⟨b', by simp [step, heq], hb'⟩
  | flowControlMessage tokens => exact ⟨_, rfl, h.processFlowControlMessage tokens⟩

def started (id : NEMId) (mapping : QueueTexts) (cfg : QueueManagerConfig) (flowControlTokens : Nat)
    : BaseModel :=
  ((configure id mapping true cfg).postStart flowControlTokens).2

theorem Balance.of_started (id : NEMId) (mapping : QueueTexts) {cfg : QueueManagerConfig}
    (hdepth : 0 < cfg.queueDepth)
    (flowControlTokens : Nat)
    : Balance flowControlTokens flowControlTokens (started id mapping cfg flowControlTokens) where
  enabled := rfl
  total := rfl
  depth := hdepth
  manages := ⟨_, Manages.of_configure id cfg⟩
  tokens := by rfl

end BaseModel
end Tdma
end Emane

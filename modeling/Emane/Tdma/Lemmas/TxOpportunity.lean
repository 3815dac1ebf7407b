import Emane.Tdma.Impl.TxOpportunity
import Emane.Tdma.Lemmas.Exchange
import Emane.Tdma.Lemmas.TxSlots

/-!
This module contains what becomes of the slots that the scheduler enumerates: a slot is used while
the clock is in it or is recorded as missed.
-/

namespace Emane
namespace Tdma

namespace EventScheduler

def slotAt (s : EventScheduler) (time : Nat) : Nat :=
  time / 1000 / s.slotStructure.slotDuration

def HasTx (s : EventScheduler) : Prop :=
  ∃ info ∈ s.slotInfos, info.type = .TX

instance (s : EventScheduler) : Decidable s.HasTx :=
  inferInstanceAs (Decidable (∃ info ∈ s.slotInfos, info.type = .TX))

theorem multiFrameAfter_eq (s : EventScheduler) (time : Nat)
    : s.multiFrameAfter time = s.slotAt time / s.slotsPerMultiFrame + 1 := by
  unfold multiFrameAfter slotsPerMultiFrame
  rw [Nat.mul_comm, ← Nat.div_div_eq_div_mul]
  rfl

theorem txSlots_of_not_hasTx {s : EventScheduler} (h : ¬ s.HasTx) (first count : Nat)
    : s.txSlots first count = [] := by
  rw [List.eq_nil_iff_forall_not_mem]
  intro tx htx
  obtain ⟨info, hinfo, htype, _⟩ := txSlot_eq_some (mem_txSlots htx).2.2
  exact h ⟨info, List.mem_of_getElem? hinfo, htype⟩

theorem txSlots_eq_cons {s : EventScheduler} {first count : Nat} {tx : Scheduler.TxSlotInfo}
    {rest : Scheduler.TxSlotInfos}
    (h : s.txSlots first count = tx :: rest)
    : s.txSlots first (tx.absoluteSlotIndex - first) = []
        ∧ rest = s.txSlots (tx.absoluteSlotIndex + 1) (first + count - (tx.absoluteSlotIndex + 1)) := by
  induction count generalizing first with
  | zero => simp [txSlots] at h
  | succ count ih =>
    rw [txSlots_succ] at h
    cases hslot : s.txSlot first with
    | none =>
      rw [hslot, Option.toList_none, List.nil_append] at h
      have hle : first + 1 ≤ tx.absoluteSlotIndex := by
        have hmem : tx ∈ s.txSlots (first + 1) count := by simp [h]
        exact (mem_txSlots hmem).1
      obtain ⟨hnil, hrest⟩ := ih h
      refine ⟨?_, ?_⟩
      . have hcount : tx.absoluteSlotIndex - first = (tx.absoluteSlotIndex - (first + 1)) + 1 := by omega
        rw [hcount, txSlots_succ, hslot, hnil]
        rfl
      . rw [hrest]
        congr 1
        omega
    | some tx' =>
      rw [hslot, Option.toList_some, List.singleton_append, List.cons.injEq] at h
      obtain ⟨rfl, rfl⟩ := h
      rw [absoluteSlotIndex_of_txSlot hslot]
      refine ⟨?_, ?_⟩
      . rw [Nat.sub_self]
        rfl
      . congr 1
        omega

namespace Usable

variable {s : EventScheduler}

theorem le_slotAt_iff (h : s.Usable) (a time : Nat) : a ≤ s.slotAt time ↔ s.slotTime a ≤ time := by
  unfold slotAt slotTime
  rw [Nat.le_div_iff_mul_le h.duration, Nat.le_div_iff_mul_le (by decide)]

theorem slotAt_lt_iff (h : s.Usable) (a time : Nat) : s.slotAt time < a ↔ time < s.slotTime a := by
  rw [← Nat.not_le, h.le_slotAt_iff, Nat.not_le]

theorem slotTime_lt (h : s.Usable) {a b : Nat} (hlt : a < b) : s.slotTime a < s.slotTime b := by
  apply Nat.mul_lt_mul_of_pos_right _ (by decide)
  exact Nat.mul_lt_mul_of_pos_right hlt h.duration

theorem timePoint_eq {tx : Scheduler.TxSlotInfo} (hslot : s.txSlot tx.absoluteSlotIndex = some tx)
    : tx.timePoint = s.slotTime tx.absoluteSlotIndex := by
  obtain ⟨_, _, _, heq⟩ := txSlot_eq_some hslot
  exact congrArg Scheduler.TxSlotInfo.timePoint heq

theorem lt_of_txSlots_eq_nil (h : s.Usable) (htx : s.HasTx) {first count : Nat}
    (hnil : s.txSlots first count = [])
    : count < s.slotsPerMultiFrame := by
  apply Nat.lt_of_not_le
  intro hle
  obtain ⟨info, hmem, htype⟩ := htx
  obtain ⟨i, hi, hinfo⟩ := List.getElem_of_mem hmem
  have hlength : s.slotInfos.length = s.slotsPerMultiFrame := h.stored.length
  have hmod := Nat.mod_lt first h.slots
  generalize hb : first
    + (i + s.slotsPerMultiFrame - first % s.slotsPerMultiFrame) % s.slotsPerMultiFrame = b
  have hbmod : b % s.slotsPerMultiFrame = i := by
    have hsum : first + (i + s.slotsPerMultiFrame - first % s.slotsPerMultiFrame)
        = i + s.slotsPerMultiFrame * (first / s.slotsPerMultiFrame + 1) := by
      have hdiv := Nat.div_add_mod first s.slotsPerMultiFrame
      rw [Nat.mul_add, Nat.mul_one]
      omega
    rw [← hb, Nat.add_mod_mod, hsum, Nat.add_mul_mod_self_left, Nat.mod_eq_of_lt (by omega)]
  have hrange := Nat.mod_lt (i + s.slotsPerMultiFrame - first % s.slotsPerMultiFrame) h.slots
  have hmem' : b ∈ (s.txSlots first count).map (fun tx => tx.absoluteSlotIndex) := by
    rw [mem_map_txSlots, hbmod, List.getElem?_eq_getElem hi, hinfo]
    exact ⟨by omega, by omega, by simp [htype]⟩
  rw [hnil] at hmem'
  simp at hmem'

theorem getSlotInfoAt_eq (h : s.Usable) (hsmall : s.slotsPerMultiFrame < 2^32) {time : Nat}
    (hlt : time < 2^63)
    : ∃ info, s.getSlotInfoAt time = some info ∧ info.absoluteSlotIndex = s.slotAt time := by
  have hslotter := h.stored.slotter
  have hempty : s.slotInfos.isEmpty = false := by
    rw [List.isEmpty_eq_false_iff]
    exact h.slotInfos_ne_nil
  have htime : s.slotTime (s.slotAt time) < 2^63 := by
    have hle := (h.le_slotAt_iff _ _).mp (Nat.le_refl (s.slotAt time))
    omega
  obtain ⟨info, _, hget⟩ := h.getSlotInfo_eq hsmall htime
  have habsolute := @Slotter.getAbsoluteIndex_of_lt s.slotter (by rw [hslotter]; exact h.duration)
    (by rw [hslotter]; exact h.slotsPerFrame_pos)
      (by rw [hslotter]; exact h.framesPerMultiFrame_pos) time hlt
  have hat : s.getSlotInfoAt time = s.getSlotInfo (s.slotAt time) := by
    unfold getSlotInfoAt
    rw [hempty, if_neg (by decide), habsolute]
    change s.getSlotInfo (time / 1000 / s.slotter.slotSizeMicroseconds) = _
    rw [hslotter]
    rfl
  rw [hat, hget]
  exact ⟨_, rfl, rfl⟩

theorem multiFrameTime_lt (h : s.Usable) {multiFrameIndex now n : Nat}
    (hle : multiFrameIndex * s.slotsPerMultiFrame ≤ s.slotAt now + (n + 1) * s.slotsPerMultiFrame)
    (hlt : s.multiFrameTime (s.multiFrameAfter now + (n + 1)) < 2^63)
    : s.multiFrameTime (multiFrameIndex + 1) < 2^63 := by
  have hindex : multiFrameIndex ≤ s.multiFrameAfter now + n := by
    rw [← Nat.le_div_iff_mul_le h.slots, Nat.add_mul_div_right _ _ h.slots] at hle
    rw [multiFrameAfter_eq]
    omega
  exact Nat.lt_of_le_of_lt (multiFrameTime_le s (by omega)) hlt

end Usable
end EventScheduler

namespace BaseModel

def Managed (b : BaseModel) : Prop :=
  ∃ es, BasicQueueManager.Manages b.queueManager.toQueueManagerConfig b.queueManager.queues es

variable {b : BaseModel}

theorem Managed.of_dequeue {b' : BaseModel} (h : b.Managed) {queueIndex requestedBytes : Nat}
    {destination : NEMId}
    {d : BasicQueueManager.Dequeued}
    (hdequeue : b.queueManager.dequeue queueIndex requestedBytes destination = some (d, b'.queueManager))
    : b'.Managed := by
  obtain ⟨es, hes⟩ := h
  obtain ⟨d', m', fs, heq, hspends⟩ := BasicQueueManager.exists_spends hes queueIndex
    requestedBytes destination
  rw [hdequeue, Option.some.injEq, Prod.mk.injEq] at heq
  obtain ⟨_, rfl⟩ := heq
  unfold Managed
  rw [hspends.config]
  exact ⟨_, hspends.manages⟩

theorem Managed.react {b' : BaseModel} {event : Event} {outputs : List Output} (h : b.Managed)
    (hreact : b.react event = some (outputs, b'))
    : b'.Managed := by
  cases htarget : b.target event with
  | some target =>
    obtain ⟨i, pkt⟩ := target
    obtain ⟨es, hes⟩ := h
    obtain ⟨dropped, queue, hqueue, heq⟩ := (Enqueues.of_react hreact htarget).2.queue
    obtain ⟨rest, hholds, hconfig, _⟩ := (hes.holds i).of_enqueue hqueue
    rw [hes.config] at hconfig
    unfold Managed
    rw [heq]
    exact ⟨_, hes.update hholds hconfig⟩
  | none =>
    rcases (Drains.of_react hreact htarget).1.queue with ⟨heq, _⟩ | ⟨_, _, _, d, hdequeue, _⟩
    . unfold Managed
      rw [heq]
      exact h
    . exact h.of_dequeue hdequeue

theorem Managed.sendDownstreamPacket (h : b.Managed) (slot : TxSlotInfo)
    : ∃ (d : BasicQueueManager.Dequeued) (queueManager : BasicQueueManager) (outputs : List Output) (b' : BaseModel),
        b.queueManager.dequeue slot.queueId slot.bytesAvailable slot.destination = some (d, queueManager)
          ∧ d.totalLength ≤ slot.bytesAvailable
          ∧ b.sendDownstreamPacket slot = some (outputs, b')
          ∧ b'.Managed
          ∧ (outputs.filterMap Output.message = []
          ∨ ∃ message : BaseModelMessage,
          outputs.filterMap Output.message = [message]
              ∧ message.absoluteSlotIndex = slot.absoluteSlotIndex) := by
  have hmanaged := h
  obtain ⟨es, hes⟩ := hmanaged
  obtain ⟨d, m', fs, heq, hspends⟩ := BasicQueueManager.exists_spends hes slot.queueId
    slot.bytesAvailable slot.destination
  refine ⟨d, m', ?_⟩
  unfold BaseModel.sendDownstreamPacket
  simp only [heq, Option.bind_eq_bind, Option.bind_some]
  split
  . split
    . refine ⟨_, _, trivial, hspends.bound, rfl, h.of_dequeue heq, Or.inr ?_⟩
      simp [List.filterMap_append, List.filterMap_map, Function.comp_def, Output.message, addToken]
    . refine ⟨_, _, trivial, hspends.bound, rfl, h.of_dequeue heq, Or.inr ?_⟩
      simp [List.filterMap_append, List.filterMap_map, Function.comp_def, Output.message]
  . exact ⟨_, _, trivial, hspends.bound, rfl, h.of_dequeue heq, Or.inl (filterMap_message_reports _)⟩

end BaseModel

/--
A message is sent while the clock is in its slot, and the schedule of that time says that the slot
is one to transmit in.
-/
structure Transmission.Timely (t : Transmission) : Prop where
  message : t.message.absoluteSlotIndex = t.slot.absoluteSlotIndex
  txSlot : t.scheduler.txSlot t.slot.absoluteSlotIndex = some t.slot
  start : t.scheduler.slotTime t.slot.absoluteSlotIndex ≤ t.now
  now : t.now ≤ t.time
  time : t.time < t.scheduler.slotTime (t.slot.absoluteSlotIndex + 1)

namespace Transmitter

def recorded (s : Transmitter) : Scheduler.TxSlotInfos :=
  (s.statuses.filter (fun update => update.scheduleIndex = s.scheduleIndex)).map SlotStatusUpdate.slot

def firstSlot (s : Transmitter) : Nat :=
  s.scheduler.multiFrameAfter s.start * s.scheduler.slotsPerMultiFrame

structure Logged (s : Transmitter) : Prop where
  managed : s.model.Managed
  indexes : ∀ update ∈ s.statuses, update.scheduleIndex ≤ s.scheduleIndex
  past : ∀ update ∈ s.statuses, update.slot.timePoint ≤ s.clock
  increasing : (s.statuses.map (fun update => update.slot.timePoint)).Pairwise (· < ·)
  timely : ∀ t ∈ s.transmissions, t.Timely
  used : (s.transmissions.map (fun t => (t.scheduleIndex, t.slot))).Sublist
    ((s.statuses.filter (fun update => update.status = .TX_GOOD)).map
      (fun update => (update.scheduleIndex, update.slot)))

structure Ahead (s : Transmitter) (a k : Nat) (rest : Scheduler.TxSlotInfos) : Prop where
  usable : s.scheduler.Usable
  small : s.scheduler.slotsPerMultiFrame < 2^32
  hasTx : s.scheduler.HasTx
  asked : s.scheduler.waitingFirstTxSlotInfoRequest = false
  next : s.nextMultiFrameTime = s.scheduler.multiFrameTime k
  first_le : s.firstSlot ≤ a
  le : a ≤ k * s.scheduler.slotsPerMultiFrame
  bound : k * s.scheduler.slotsPerMultiFrame ≤ a + 2 * s.scheduler.slotsPerMultiFrame
  recorded : s.recorded = s.scheduler.txSlots s.firstSlot (a - s.firstSlot)
  rest : rest = s.scheduler.txSlots a (k * s.scheduler.slotsPerMultiFrame - a)
  past : ∀ update ∈ s.statuses, update.slot.timePoint < s.scheduler.slotTime a

variable {s s' : Transmitter}

theorem Logged.frame (h : Logged s) (hmanaged : s'.model.Managed)
    (hindex : s'.scheduleIndex = s.scheduleIndex)
    (hclock : s.clock ≤ s'.clock) (hstatuses : s'.statuses = s.statuses)
    (htransmissions : s'.transmissions = s.transmissions)
    : Logged s' := by
  constructor
  . exact hmanaged
  . rw [hstatuses, hindex]
    exact h.indexes
  . rw [hstatuses]
    intro update hupdate
    exact Int.le_trans (h.past update hupdate) (Int.ofNat_le.mpr hclock)
  . rw [hstatuses]
    exact h.increasing
  . rw [htransmissions]
    exact h.timely
  . rw [hstatuses, htransmissions]
    exact h.used

theorem Ahead.frame {a k : Nat} {rest : Scheduler.TxSlotInfos} (h : Ahead s a k rest)
    (hscheduler : s'.scheduler = s.scheduler) (hnext : s'.nextMultiFrameTime = s.nextMultiFrameTime)
    (hstart : s'.start = s.start)
    (hindex : s'.scheduleIndex = s.scheduleIndex) (hstatuses : s'.statuses = s.statuses)
    : Ahead s' a k rest := by
  have hfirst : s'.firstSlot = s.firstSlot := by
    unfold firstSlot
    rw [hscheduler, hstart]
  have hrecorded : s'.recorded = s.recorded := by
    unfold Transmitter.recorded
    rw [hstatuses, hindex]
  constructor
  . rw [hscheduler]
    exact h.usable
  . rw [hscheduler]
    exact h.small
  . rw [hscheduler]
    exact h.hasTx
  . rw [hscheduler]
    exact h.asked
  . rw [hscheduler, hnext]
    exact h.next
  . rw [hfirst]
    exact h.first_le
  . rw [hscheduler]
    exact h.le
  . rw [hscheduler]
    exact h.bound
  . rw [hscheduler, hfirst, hrecorded]
    exact h.recorded
  . rw [hscheduler]
    exact h.rest
  . rw [hscheduler, hstatuses]
    exact h.past

def handle (s : Transmitter) (model : BaseModel) (status : SlotStatus) (sent : List Transmission)
    : Transmitter :=
  { s with
    model := model
    transmissions := s.transmissions ++ sent
    statuses := s.statuses ++ [⟨s.scheduleIndex, s.pendingTxSlotInfo, status⟩] }

inductive Sends (s : Transmitter) (now time : Nat) : SlotStatus → List Transmission → Prop where
  | nothing (status : SlotStatus) : Sends s now time status []
  | message (message : BaseModelMessage)
    (hmessage : message.absoluteSlotIndex = s.pendingTxSlotInfo.absoluteSlotIndex)
    (hslot : s.scheduler.slotAt now = s.pendingTxSlotInfo.absoluteSlotIndex)
    : Sends s now time .TX_GOOD [⟨s.scheduleIndex, s.scheduler, s.pendingTxSlotInfo, message, now, time⟩]

structure Same (s s' : Transmitter) : Prop where
  scheduler : s'.scheduler = s.scheduler
  scheduleIndex : s'.scheduleIndex = s.scheduleIndex
  start : s'.start = s.start
  callbacks : s'.callbacks = s.callbacks
  clock : s'.clock = s.clock

theorem Same.refl (s : Transmitter) : Same s s := by
  constructor <;> rfl

theorem Same.trans {s'' : Transmitter} (h : Same s s') (h' : Same s' s'') : Same s s'' where
  scheduler := h'.scheduler.trans h.scheduler
  scheduleIndex := h'.scheduleIndex.trans h.scheduleIndex
  start := h'.start.trans h.start
  callbacks := h'.callbacks.trans h.callbacks
  clock := h'.clock.trans h.clock

structure Moment (s : Transmitter) (now time : Nat) : Prop where
  clock : s.clock = time
  le : now ≤ time
  slot : s.scheduler.slotAt time = s.scheduler.slotAt now
  fits : s.scheduler.multiFrameTime (s.scheduler.multiFrameAfter now + 2) < 2^63

theorem Moment.of_same {now time : Nat} (h : Moment s now time) (hsame : Same s s')
    : Moment s' now time := by
  constructor
  . rw [hsame.clock, h.clock]
  . exact h.le
  . rw [hsame.scheduler, h.slot]
  . rw [hsame.scheduler]
    exact h.fits

section

variable {s : Transmitter} {a k : Nat} {tx : Scheduler.TxSlotInfo} {rest : Scheduler.TxSlotInfos}

theorem Ahead.head (h : Ahead s a k (tx :: rest))
    : a ≤ tx.absoluteSlotIndex
        ∧ tx.absoluteSlotIndex < k * s.scheduler.slotsPerMultiFrame
        ∧ s.scheduler.txSlot tx.absoluteSlotIndex = some tx := by
  have hmem : tx ∈ s.scheduler.txSlots a (k * s.scheduler.slotsPerMultiFrame - a) := by
    rw [← h.rest]
    exact List.mem_cons_self
  obtain ⟨hfirst, hlast, hslot⟩ := EventScheduler.mem_txSlots hmem
  exact ⟨hfirst, by omega, hslot⟩

theorem Ahead.past_head (h : Ahead s a k (tx :: rest))
    : ∀ update ∈ s.statuses, update.slot.timePoint < tx.timePoint := by
  intro update hupdate
  obtain ⟨hle, _, hslot⟩ := h.head
  rw [EventScheduler.Usable.timePoint_eq hslot]
  apply Int.lt_of_lt_of_le (h.past update hupdate)
  exact_mod_cast EventScheduler.slotTime_le s.scheduler hle

theorem Ahead.recorded_of_le (h : Ahead s a k (tx :: rest)) {b : Nat} (hle : a ≤ b)
    (hb : b ≤ tx.absoluteSlotIndex)
    : s.recorded = s.scheduler.txSlots s.firstSlot (b - s.firstSlot) := by
  have hfirst := h.first_le
  have hnil := (EventScheduler.txSlots_eq_cons h.rest.symm).1
  have hsplit : tx.absoluteSlotIndex - a = (b - a) + (tx.absoluteSlotIndex - b) := by omega
  rw [hsplit, EventScheduler.txSlots_append, List.append_eq_nil_iff] at hnil
  have hcount : b - s.firstSlot = (a - s.firstSlot) + (b - a) := by omega
  have hstart : s.firstSlot + (a - s.firstSlot) = a := by omega
  rw [h.recorded, hcount, EventScheduler.txSlots_append, hstart, hnil.1, List.append_nil]

theorem Ahead.advance (h : Ahead s a k (tx :: rest)) : Ahead s tx.absoluteSlotIndex k (tx :: rest) := by
  obtain ⟨hle, hlt, hslot⟩ := h.head
  have hcons := EventScheduler.txSlots_eq_cons h.rest.symm
  constructor
  . exact h.usable
  . exact h.small
  . exact h.hasTx
  . exact h.asked
  . exact h.next
  . exact Nat.le_trans h.first_le hle
  . omega
  . have hbound := h.bound
    omega
  . exact h.recorded_of_le hle (Nat.le_refl _)
  . have hrest := h.rest
    have hsplit : k * s.scheduler.slotsPerMultiFrame - a
        = (tx.absoluteSlotIndex - a)
          + (k * s.scheduler.slotsPerMultiFrame - tx.absoluteSlotIndex) := by omega
    have hstart : a + (tx.absoluteSlotIndex - a) = tx.absoluteSlotIndex := by omega
    rw [hsplit, EventScheduler.txSlots_append, hcons.1, hstart, List.nil_append] at hrest
    exact hrest
  . intro update hupdate
    rw [← EventScheduler.Usable.timePoint_eq hslot]
    exact h.past_head update hupdate

theorem recorded_handle (s : Transmitter) (model : BaseModel) (status : SlotStatus)
    (sent : List Transmission)
    : (s.handle model status sent).recorded = s.recorded ++ [s.pendingTxSlotInfo] := by
  unfold recorded handle
  simp

theorem Ahead.handle (h : Ahead s a k (s.pendingTxSlotInfo :: rest)) (model : BaseModel)
    (status : SlotStatus)
    (sent : List Transmission)
    : Ahead (s.handle model status sent) (s.pendingTxSlotInfo.absoluteSlotIndex + 1) k rest := by
  obtain ⟨hle, hlt, hslot⟩ := h.head
  have hfirst := h.first_le
  have hrest := (EventScheduler.txSlots_eq_cons h.rest.symm).2
  constructor
  . exact h.usable
  . exact h.small
  . exact h.hasTx
  . exact h.asked
  . exact h.next
  . exact Nat.le_trans hfirst (by omega)
  . exact hlt
  . have hbound := h.bound
    change k * s.scheduler.slotsPerMultiFrame ≤ _ + 2 * s.scheduler.slotsPerMultiFrame
    omega
  . have hcount : s.pendingTxSlotInfo.absoluteSlotIndex + 1 - s.firstSlot
        = (s.pendingTxSlotInfo.absoluteSlotIndex - s.firstSlot) + 1 := by omega
    have hstart : s.firstSlot + (s.pendingTxSlotInfo.absoluteSlotIndex - s.firstSlot)
        = s.pendingTxSlotInfo.absoluteSlotIndex := by omega
    change _ = s.scheduler.txSlots s.firstSlot (s.pendingTxSlotInfo.absoluteSlotIndex + 1 - s.firstSlot)
    rw [recorded_handle, h.advance.recorded, hcount, EventScheduler.txSlots_append, hstart,
      EventScheduler.txSlots_succ, hslot]
    rfl
  . have hend : a + (k * s.scheduler.slotsPerMultiFrame - a) = k * s.scheduler.slotsPerMultiFrame := by
      omega
    rw [hend] at hrest
    exact hrest
  . intro update hupdate
    have hnext : s.pendingTxSlotInfo.timePoint < s.scheduler.slotTime
        (s.pendingTxSlotInfo.absoluteSlotIndex + 1) := by
      rw [EventScheduler.Usable.timePoint_eq hslot]
      exact_mod_cast h.usable.slotTime_lt (Nat.lt_succ_self s.pendingTxSlotInfo.absoluteSlotIndex)
    change update ∈ s.statuses ++ [_] at hupdate
    rw [List.mem_append, List.mem_singleton] at hupdate
    cases hupdate with
    | inl hupdate => exact Int.lt_trans (h.past_head update hupdate) hnext
    | inr hupdate =>
      rw [hupdate]
      exact hnext

variable {now time : Nat}

theorem Sends.timely {status : SlotStatus} {sent : List Transmission} (h : Sends s now time status sent)
    (hahead : Ahead s a k (s.pendingTxSlotInfo :: rest)) (hmoment : Moment s now time)
    : ∀ t ∈ sent, t.Timely := by
  cases h with
  | nothing status => simp
  | message message hmessage hslot =>
    intro t ht
    rw [List.mem_singleton] at ht
    subst ht
    constructor
    . exact hmessage
    . exact hahead.head.2.2
    . exact (hahead.usable.le_slotAt_iff _ _).mp (Nat.le_of_eq hslot.symm)
    . exact hmoment.le
    . apply (hahead.usable.slotAt_lt_iff _ _).mp
      rw [hmoment.slot, hslot]
      exact Nat.lt_succ_self _

theorem Logged.handle {model : BaseModel} {status : SlotStatus} {sent : List Transmission} (h : Logged s)
    (hahead : Ahead s a k (s.pendingTxSlotInfo :: rest)) (hmoment : Moment s now time)
    (hmanaged : model.Managed)
    (hsends : Sends s now time status sent)
    (hle : s.pendingTxSlotInfo.absoluteSlotIndex ≤ s.scheduler.slotAt now)
    : Logged (s.handle model status sent) := by
  have htime := EventScheduler.Usable.timePoint_eq hahead.head.2.2
  constructor
  . exact hmanaged
  . intro update hupdate
    change update ∈ s.statuses ++ [_] at hupdate
    rw [List.mem_append, List.mem_singleton] at hupdate
    cases hupdate with
    | inl hupdate => exact h.indexes update hupdate
    | inr hupdate =>
      rw [hupdate]
      exact Nat.le_refl _
  . intro update hupdate
    change update ∈ s.statuses ++ [_] at hupdate
    rw [List.mem_append, List.mem_singleton] at hupdate
    cases hupdate with
    | inl hupdate => exact h.past update hupdate
    | inr hupdate =>
      rw [hupdate]
      change s.pendingTxSlotInfo.timePoint ≤ s.clock
      rw [htime, hmoment.clock]
      have hnow := (hahead.usable.le_slotAt_iff _ _).mp hle
      exact_mod_cast Nat.le_trans hnow hmoment.le
  . change ((s.statuses ++ [_]).map _).Pairwise _
    rw [List.map_append, List.pairwise_append]
    refine ⟨h.increasing, List.pairwise_singleton _ _, ?_⟩
    intro t ht t' ht'
    rw [List.mem_map] at ht
    obtain ⟨update, hupdate, rfl⟩ := ht
    rw [List.map_singleton, List.mem_singleton] at ht'
    rw [ht']
    exact hahead.past_head update hupdate
  . intro t ht
    change t ∈ s.transmissions ++ sent at ht
    rw [List.mem_append] at ht
    cases ht with
    | inl ht => exact h.timely t ht
    | inr ht => exact hsends.timely hahead hmoment t ht
  . change ((s.transmissions ++ sent).map _).Sublist (((s.statuses ++ [_]).filter _).map _)
    rw [List.map_append, List.filter_append, List.map_append]
    apply List.Sublist.append h.used
    cases hsends with
    | nothing status => simp
    | message message hmessage hslot => simp

theorem sendDownstreamPacket_eq {now time : Nat} (hmanaged : s.model.Managed)
    (hslot : s.scheduler.slotAt now = s.pendingTxSlotInfo.absoluteSlotIndex)
    : ∃ (model : BaseModel) (sent : List Transmission),
        s.sendDownstreamPacket now time = some (s.handle model .TX_GOOD sent)
          ∧ model.Managed
          ∧ Sends s now time .TX_GOOD sent := by
  obtain ⟨d, queueManager, outputs, model, hdequeue, hbound, hsend, hmodel, hmessages⟩ :=
    hmanaged.sendDownstreamPacket
    ⟨s.pendingTxSlotInfo.absoluteSlotIndex, s.pendingTxSlotInfo.dataRate, s.pendingTxSlotInfo.queueId,
      s.pendingTxSlotInfo.destination,
        s.bytesAvailable s.slotDuration s.slotOverhead s.pendingTxSlotInfo.dataRate⟩
  refine ⟨model, (outputs.filterMap BaseModel.Output.message).map (fun message =>
    ⟨s.scheduleIndex, s.scheduler, s.pendingTxSlotInfo, message, now, time⟩), ?_, hmodel, ?_⟩
  . unfold sendDownstreamPacket
    simp only [hdequeue, hsend, Option.bind_eq_bind, Option.bind_some, if_pos hbound]
    rfl
  . rcases hmessages with hnil | ⟨message, hone, hmessage⟩
    . rw [hnil]
      exact .nothing _
    . rw [hone]
      exact .message message hmessage hslot

theorem update_eq (s : Transmitter) (status : SlotStatus)
    : s.update status = s.handle s.model status [] := by
  unfold update handle
  rw [List.append_nil]

theorem same_handle (s : Transmitter) (model : BaseModel) (status : SlotStatus) (sent : List Transmission)
    : Same s (s.handle model status sent) := by
  constructor <;> rfl

def refilled (s : Transmitter) (k : Nat) : Transmitter :=
  { s with
    txSlotInfos := s.scheduler.txSlots (k * s.scheduler.slotsPerMultiFrame) s.scheduler.slotsPerMultiFrame
    nextMultiFrameTime := s.scheduler.multiFrameTime (k + 1) }

theorem Ahead.requestTxSlotInfo (h : Ahead s a k rest) (hlt : s.scheduler.multiFrameTime (k + 1) < 2^63)
    : s.requestTxSlotInfo s.nextMultiFrameTime = some (s.refilled k) := by
  have hrequest := EventScheduler.requestTime_of_not_waiting h.asked s.nextMultiFrameTime
  rw [h.next] at hrequest
  have hscheduler : ({ s.scheduler with waitingFirstTxSlotInfoRequest := false } : EventScheduler)
      = s.scheduler := by
    rw [← h.asked]
  unfold Transmitter.requestTxSlotInfo
  rw [h.next, h.usable.getTxSlotInfo_eq h.small hlt hrequest, hscheduler]
  rfl

theorem Ahead.refilled (h : Ahead s a k rest)
    (hshort : k * s.scheduler.slotsPerMultiFrame ≤ a + s.scheduler.slotsPerMultiFrame)
    : Ahead (s.refilled k) a (k + 1) (rest ++ (s.refilled k).txSlotInfos) := by
  have hle := h.le
  constructor
  . exact h.usable
  . exact h.small
  . exact h.hasTx
  . exact h.asked
  . rfl
  . exact h.first_le
  . change a ≤ (k + 1) * s.scheduler.slotsPerMultiFrame
    rw [Nat.add_mul]
    omega
  . change (k + 1) * s.scheduler.slotsPerMultiFrame ≤ a + 2 * s.scheduler.slotsPerMultiFrame
    rw [Nat.add_mul]
    omega
  . exact h.recorded
  . change _ ++ s.scheduler.txSlots _ _ = s.scheduler.txSlots a
      ((k + 1) * s.scheduler.slotsPerMultiFrame - a)
    have hcount : (k + 1) * s.scheduler.slotsPerMultiFrame - a
        = (k * s.scheduler.slotsPerMultiFrame - a) + s.scheduler.slotsPerMultiFrame := by
      rw [Nat.add_mul]
      omega
    have hstart : a + (k * s.scheduler.slotsPerMultiFrame - a) = k
      * s.scheduler.slotsPerMultiFrame := by omega
    rw [hcount, EventScheduler.txSlots_append, hstart, ← h.rest]
  . exact h.past

theorem same_refilled (s : Transmitter) (k : Nat) : Same s (s.refilled k) := by
  constructor <;> rfl

theorem Logged.refilled (h : Logged s) (k : Nat) : Logged (s.refilled k) :=
  h.frame h.managed rfl (Nat.le_refl _) rfl rfl

theorem Ahead.refill (h : Ahead s a k s.txSlotInfos) (hlog : Logged s) (hmoment : Moment s now time)
    (hle : a ≤ s.scheduler.slotAt now + 1)
    : ∃ (s' : Transmitter) (k' : Nat),
        processTxOpportunity.refill s = some s'
          ∧ Same s s'
          ∧ Logged s'
          ∧ s'.timers = s.timers
          ∧ Ahead s' a k' s'.txSlotInfos
          ∧ s'.txSlotInfos ≠ [] := by
  unfold processTxOpportunity.refill
  cases hslots : s.txSlotInfos with
  | cons tx txSlotInfos =>
    refine ⟨s, k, rfl, Same.refl s, hlog, rfl, h, ?_⟩
    rw [hslots]
    exact List.cons_ne_nil _ _
  | nil =>
    have hrest := h.rest
    rw [hslots] at hrest
    have hwindow := h.usable.lt_of_txSlots_eq_nil h.hasTx hrest.symm
    have hnext : s.scheduler.multiFrameTime (k + 1) < 2^63 := by
      apply @EventScheduler.Usable.multiFrameTime_lt s.scheduler h.usable k now 1 _ hmoment.fits
      omega
    have hahead := h.refilled (by omega)
    rw [hslots, List.nil_append] at hahead
    refine ⟨s.refilled k, k + 1, h.requestTxSlotInfo hnext, same_refilled s k, hlog.refilled k,
      rfl, hahead, ?_⟩
    intro hnil
    exact absurd (h.usable.lt_of_txSlots_eq_nil h.hasTx hnil) (Nat.lt_irrefl _)

structure Found (s s' : Transmitter) (nowSlotIndex k : Nat) : Prop where
  same : Same s s'
  logged : Logged s'
  ahead : ∃ a ≤ nowSlotIndex + 1, Ahead s' a k (s'.pendingTxSlotInfo :: s'.txSlotInfos)
  future : nowSlotIndex < s'.pendingTxSlotInfo.absoluteSlotIndex
  timers : s'.timers = s.timers
    ++ [⟨s'.transmitTimedEventId, s'.scheduleIndex, s'.pendingTxSlotInfo.timePoint⟩]
  id_ne_zero : s'.transmitTimedEventId ≠ 0

structure Exhausted (s s' : Transmitter) (nowSlotIndex a k : Nat) (rest : Scheduler.TxSlotInfos)
    : Prop where
  same : Same s s'
  logged : Logged s'
  ahead : ∃ a' ≤ nowSlotIndex + 1, Ahead s' a' k [] ∧ a ≤ a' ∧ ∀ tx ∈ rest, tx.absoluteSlotIndex < a'
  txSlotInfos : s'.txSlotInfos = []
  timers : s'.timers = s.timers

theorem Ahead.setPending (h : Ahead s a k rest) (tx : Scheduler.TxSlotInfo)
    (txSlotInfos : Scheduler.TxSlotInfos)
    : Ahead { s with pendingTxSlotInfo := tx, txSlotInfos := txSlotInfos } a k rest :=
  h.frame rfl rfl rfl rfl rfl

theorem Logged.setPending (h : Logged s) (tx : Scheduler.TxSlotInfo) (txSlotInfos : Scheduler.TxSlotInfos)
    : Logged { s with pendingTxSlotInfo := tx, txSlotInfos := txSlotInfos } :=
  h.frame h.managed rfl (Nat.le_refl _) rfl rfl

theorem same_setPending (s : Transmitter) (tx : Scheduler.TxSlotInfo)
    (txSlotInfos : Scheduler.TxSlotInfos)
    : Same s { s with pendingTxSlotInfo := tx, txSlotInfos := txSlotInfos } := by
  constructor <;> rfl

theorem found_schedule (hahead : Ahead s a k (s.pendingTxSlotInfo :: s.txSlotInfos))
    (hlog : Logged s) {nowSlotIndex : Nat}
    (hle : a ≤ nowSlotIndex + 1) (hfuture : nowSlotIndex < s.pendingTxSlotInfo.absoluteSlotIndex)
    : Found s s.schedule nowSlotIndex k where
  same := ⟨rfl, rfl, rfl, rfl, rfl⟩
  logged := hlog.frame hlog.managed rfl (Nat.le_refl _) rfl rfl
  ahead := ⟨a, hle, hahead.frame rfl rfl rfl rfl rfl⟩
  future := hfuture
  timers := rfl
  id_ne_zero := Nat.succ_ne_zero s.lastTimerId

variable {s' : Transmitter}

theorem Found.of_same {s'' : Transmitter} {nowSlotIndex : Nat} (h : Found s' s'' nowSlotIndex k)
    (hsame : Same s s')
    (htimers : s'.timers = s.timers)
    : Found s s'' nowSlotIndex k := by
  refine ⟨hsame.trans h.same, h.logged, h.ahead, h.future, ?_, h.id_ne_zero⟩
  rw [h.timers, htimers]

theorem Exhausted.cons {s' s'' : Transmitter} {nowSlotIndex : Nat}
    (h : Exhausted s' s'' nowSlotIndex (tx.absoluteSlotIndex + 1) k rest) (hsame : Same s s')
    (htimers : s'.timers = s.timers)
    (hle : a ≤ tx.absoluteSlotIndex)
    : Exhausted s s'' nowSlotIndex a k (tx :: rest) := by
  obtain ⟨a', ha', hahead, hstart, hall⟩ := h.ahead
  refine ⟨hsame.trans h.same, h.logged, ⟨a', ha', hahead, by omega, ?_⟩, h.txSlotInfos, ?_⟩
  . intro tx' htx'
    rw [List.mem_cons] at htx'
    cases htx' with
    | inl heq =>
      rw [heq]
      exact hstart
    | inr hmem => exact hall tx' hmem
  . rw [h.timers, htimers]

theorem catchUp_eq (hahead : Ahead s a k rest) (hlog : Logged s) (hmoment : Moment s now time)
    (hle : a ≤ s.scheduler.slotAt now + 1)
    : ∃ s',
        processTxOpportunity.catchUp (s.scheduler.slotAt now) now time rest s = some (true, s')
          ∧ Found s s' (s.scheduler.slotAt now) k
          ∨ processTxOpportunity.catchUp (s.scheduler.slotAt now) now time rest s = some (false, s')
          ∧ Exhausted s s' (s.scheduler.slotAt now) a k rest := by
  induction rest generalizing s a with
  | nil =>
    refine ⟨_, Or.inr ⟨rfl, ⟨rfl, rfl, rfl, rfl, rfl⟩, hlog.setPending _ _,
      ⟨a, hle, hahead.setPending _ _, Nat.le_refl _, ?_⟩,
      rfl, rfl⟩⟩
    simp
  | cons tx rest ih =>
    unfold processTxOpportunity.catchUp
    simp only
    have hhead := hahead.head.1
    have hahead' := hahead.setPending tx rest
    have hlog' := hlog.setPending tx rest
    have hsame' := same_setPending s tx rest
    have hmoment' := hmoment.of_same hsame'
    generalize hs₁ : ({ s with pendingTxSlotInfo := tx, txSlotInfos := rest } : Transmitter) = s₁ at *
    have hscheduler := hsame'.scheduler
    have hpending : s₁.pendingTxSlotInfo = tx := by rw [← hs₁]
    have hslots : s₁.txSlotInfos = rest := by rw [← hs₁]
    have htimers : s₁.timers = s.timers := by rw [← hs₁]
    rw [← hpending] at hahead'
    -- the slot is dealt with now, and the rest of them after it
    have hhandle : ∀ (model : BaseModel) (status : SlotStatus) (sent : List Transmission), model.Managed →
        Sends s₁ now time status sent → tx.absoluteSlotIndex ≤ s.scheduler.slotAt now →
        ∃ s',
          processTxOpportunity.catchUp (s.scheduler.slotAt now) now time rest
            (s₁.handle model status sent) = some (true, s')
            ∧ Found s s' (s.scheduler.slotAt now) k
            ∨ processTxOpportunity.catchUp (s.scheduler.slotAt now) now time rest
              (s₁.handle model status sent) = some (false, s')
            ∧ Exhausted s s' (s.scheduler.slotAt now) a k (tx :: rest) := by
      intro model status sent hmanaged hsends hpast
      rw [← hpending, ← hscheduler] at hpast
      have hsame'' := hsame'.trans (same_handle s₁ model status sent)
      have hnext := ih (hahead'.handle model status sent)
        (hlog'.handle hahead' hmoment' hmanaged hsends hpast)
        (hmoment.of_same hsame'') (Nat.succ_le_succ hpast)
      rw [hsame''.scheduler, hpending] at hnext
      obtain ⟨s', ⟨heq, hfound⟩ | ⟨heq, hexhausted⟩⟩ := hnext
      . exact ⟨s', Or.inl ⟨heq, hfound.of_same hsame'' htimers⟩⟩
      . exact ⟨s', Or.inr ⟨heq, hexhausted.cons hsame'' htimers hhead⟩⟩
    split
    . next hfuture =>
      refine ⟨s₁.schedule, Or.inl ⟨rfl, ?_⟩⟩
      apply Found.of_same _ hsame' htimers
      rw [← hslots] at hahead'
      apply found_schedule hahead' hlog' hle
      rw [hpending]
      exact hfuture
    . next hpresent =>
      split
      . next hmissed =>
        rw [update_eq]
        exact hhandle _ _ _ hlog'.managed (.nothing _) (Nat.le_of_lt hmissed)
      . next hnow =>
        have hslot : s₁.scheduler.slotAt now = s₁.pendingTxSlotInfo.absoluteSlotIndex := by
          rw [hscheduler, hpending]
          omega
        obtain ⟨model, sent, hsend, hmanaged, hsends⟩ :=
          @sendDownstreamPacket_eq s₁ now time hlog'.managed hslot
        simp only [hsend, Option.bind_eq_bind, Option.bind_some]
        exact hhandle _ _ _ hmanaged hsends (by omega)

structure Landed (s s' : Transmitter) (now : Nat) : Prop where
  same : Same s s'
  logged : Logged s'
  ahead : ∃ k, Ahead s' s'.pendingTxSlotInfo.absoluteSlotIndex k (s'.pendingTxSlotInfo :: s'.txSlotInfos)
  recorded : s'.recorded = s'.scheduler.txSlots s'.firstSlot (s'.scheduler.slotAt now + 1 - s'.firstSlot)
  timers : s'.timers = s.timers
    ++ [⟨s'.transmitTimedEventId, s'.scheduleIndex, s'.pendingTxSlotInfo.timePoint⟩]
  id_ne_zero : s'.transmitTimedEventId ≠ 0

theorem Landed.of_same {s'' : Transmitter} (h : Landed s' s'' now) (hsame : Same s s')
    (htimers : s'.timers = s.timers)
    : Landed s s'' now := by
  refine ⟨hsame.trans h.same, h.logged, h.ahead, h.recorded, ?_, h.id_ne_zero⟩
  rw [h.timers, htimers]

theorem Found.landed (h : Found s s' (s.scheduler.slotAt now) k) (hmoment : Moment s now time)
    : ∃ s'', processTxOpportunity.refill s' = some s'' ∧ Landed s s'' now := by
  obtain ⟨a, hle, hahead⟩ := h.ahead
  have hscheduler := h.same.scheduler
  have hfuture := h.future
  rw [← hscheduler] at hle hfuture
  have hrecorded := hahead.recorded_of_le hle hfuture
  have hstart := (EventScheduler.txSlots_eq_cons hahead.rest.symm).1
  have hwindow := hahead.usable.lt_of_txSlots_eq_nil hahead.hasTx hstart
  have hadvance := hahead.advance
  unfold processTxOpportunity.refill
  cases hslots : s'.txSlotInfos with
  | cons tx txSlotInfos =>
    exact ⟨s', rfl, h.same, h.logged, ⟨k, hadvance⟩, hrecorded, h.timers, h.id_ne_zero⟩
  | nil =>
    rw [hslots] at hadvance
    have hbehind := hadvance.usable.lt_of_txSlots_eq_nil hadvance.hasTx
      (EventScheduler.txSlots_eq_cons hadvance.rest.symm).2.symm
    have hnext : s'.scheduler.multiFrameTime (k + 1) < 2^63 := by
      apply @EventScheduler.Usable.multiFrameTime_lt s'.scheduler hahead.usable k now 1 _
        (hmoment.of_same h.same).fits
      omega
    have hrefilled := hadvance.refilled (by omega)
    refine ⟨s'.refilled k, hadvance.requestTxSlotInfo hnext, ?_⟩
    exact ⟨h.same.trans (same_refilled s' k), h.logged.refilled k, ⟨k + 1, hrefilled⟩, hrecorded,
      h.timers, h.id_ne_zero⟩

theorem findNext_eq {now time fuel : Nat} (hahead : Ahead s a k s.txSlotInfos) (hlog : Logged s)
    (hmoment : Moment s now time)
    (hle : a ≤ s.scheduler.slotAt now + 1) (hnonempty : s.txSlotInfos ≠ [])
    (hfuel : s.scheduler.slotAt now + 1 < a + fuel)
    : ∃ s', processTxOpportunity.findNext (s.scheduler.slotAt now) now time fuel s = some s'
        ∧ Landed s s' now := by
  induction fuel generalizing s a k with
  | zero => omega
  | succ fuel ih =>
    unfold processTxOpportunity.findNext
    rw [if_neg (by simpa using hnonempty)]
    obtain ⟨s₁, ⟨heq, hfound⟩ | ⟨heq, hexhausted⟩⟩ := catchUp_eq hahead hlog hmoment hle
    . obtain ⟨s₂, hrefill, hlanded⟩ := hfound.landed hmoment
      simp only [heq, hrefill, Option.bind_eq_bind, Option.bind_some, ↓reduceIte]
      exact ⟨s₂, rfl, hlanded⟩
    . obtain ⟨a₁, hle₁, hahead₁, _, hall⟩ := hexhausted.ahead
      rw [← hexhausted.txSlotInfos] at hahead₁
      have hmore : a < a₁ := by
        obtain ⟨tx, txSlotInfos, hslots⟩ := List.exists_cons_of_ne_nil hnonempty
        rw [hslots] at hahead hall
        have hhead := hahead.head.1
        have hlt := hall tx List.mem_cons_self
        omega
      have hmoment₁ := hmoment.of_same hexhausted.same
      rw [← hexhausted.same.scheduler] at hle₁
      obtain ⟨s₂, k₂, hrefill, hsame, hlog₂, htimers, hahead₂, hnonempty₂⟩ :=
        hahead₁.refill hexhausted.logged hmoment₁ hle₁
      have hsame₂ := hexhausted.same.trans hsame
      have hnext := @ih s₂ a₁ k₂ hahead₂ hlog₂ (hmoment.of_same hsame₂)
      rw [hsame₂.scheduler] at hnext
      rw [hexhausted.same.scheduler] at hle₁
      obtain ⟨s₃, hfind, hlanded⟩ := hnext hle₁ hnonempty₂ (by omega)
      simp only [heq, hrefill, Option.bind_eq_bind, Option.bind_some, Bool.false_eq_true, ↓reduceIte]
      refine ⟨s₃, hfind, hlanded.of_same hsame₂ ?_⟩
      rw [htimers, hexhausted.timers]

theorem processTxOpportunity_eq {now time : Nat}
    (hahead : Ahead s a k (s.pendingTxSlotInfo :: s.txSlotInfos)) (hlog : Logged s)
    (hmoment : Moment s now time) (hle : s.pendingTxSlotInfo.absoluteSlotIndex ≤ s.scheduler.slotAt now)
    : ∃ s', s.processTxOpportunity s.scheduleIndex now time = some s' ∧ Landed s s' now := by
  have hnow : now < 2^63 := by
    have hlt := hahead.usable.lt_multiFrameTime now
    have hle := EventScheduler.multiFrameTime_le s.scheduler
      (Nat.le_add_right (s.scheduler.multiFrameAfter now) 2)
    have hfits := hmoment.fits
    omega
  obtain ⟨nowSlotInfo, hinfo, hindex⟩ := hahead.usable.getSlotInfoAt_eq hahead.small hnow
  have hfirst : ∃ (model : BaseModel) (status : SlotStatus) (sent : List Transmission),
      (if nowSlotInfo.absoluteSlotIndex = s.pendingTxSlotInfo.absoluteSlotIndex
        then s.sendDownstreamPacket now time
        else some (s.update .TX_MISSED)) = some (s.handle model status sent)
        ∧ model.Managed
        ∧ Sends s now time status sent := by
    rw [hindex]
    split
    . next hslot =>
      obtain ⟨model, sent, hsend, hmanaged, hsends⟩ :=
        @sendDownstreamPacket_eq s now time hlog.managed hslot
      exact ⟨model, _, sent, hsend, hmanaged, hsends⟩
    . rw [update_eq]
      exact ⟨_, _, _, rfl, hlog.managed, .nothing _⟩
  obtain ⟨model, status, sent, heq, hmanaged, hsends⟩ := hfirst
  have hahead₁ : Ahead (s.handle model status sent) _ k (s.handle model status sent).txSlotInfos :=
    hahead.handle model status sent
  have hlog₁ := hlog.handle hahead hmoment hmanaged hsends hle
  have hsame₁ := same_handle s model status sent
  have hmoment₁ := hmoment.of_same hsame₁
  obtain ⟨s₂, k₂, hrefill, hsame, hlog₂, htimers, hahead₂, hnonempty₂⟩ :=
    hahead₁.refill hlog₁ hmoment₁ (Nat.succ_le_succ hle)
  have hsame₂ := hsame₁.trans hsame
  have hnext := @findNext_eq s₂ _ k₂ now time (s.scheduler.slotAt now + 2) hahead₂ hlog₂
    (hmoment.of_same hsame₂)
  rw [hsame₂.scheduler] at hnext
  obtain ⟨s₃, hfind, hlanded⟩ := hnext (Nat.succ_le_succ hle) hnonempty₂ (by omega)
  refine ⟨s₃, ?_, hlanded.of_same hsame₂ htimers⟩
  unfold processTxOpportunity
  simp only [ne_eq, not_true_eq_false, ↓reduceIte, hinfo, Option.bind_eq_bind, Option.bind_some]
  split at heq
  . next hslot =>
    simp only [if_pos hslot, heq, hrefill, Option.bind_some]
    rw [hindex]
    exact hfind
  . next hslot =>
    rw [Option.some.injEq] at heq
    simp only [if_neg hslot, heq, hrefill, Option.bind_some]
    rw [hindex]
    exact hfind

end

structure Idle (s : Transmitter) : Prop where
  hasTx : ¬ s.scheduler.HasTx
  recorded : s.recorded = []
  timers : s.timers = []
  callbacks : s.scheduleIndex ∉ s.callbacks

structure Waiting (s : Transmitter) : Prop where
  ahead : ∃ k, Ahead s s.pendingTxSlotInfo.absoluteSlotIndex k (s.pendingTxSlotInfo :: s.txSlotInfos)
  timers : ∀ t ∈ s.timers,
    t = ⟨s.transmitTimedEventId, s.scheduleIndex, s.pendingTxSlotInfo.timePoint⟩
      ∧ s.transmitTimedEventId ≠ 0
  outstanding : s.timers.length + s.callbacks.count s.scheduleIndex = 1
  due : s.scheduleIndex ∈ s.callbacks → s.pendingTxSlotInfo.timePoint ≤ s.clock

structure Inv (s : Transmitter) : Prop where
  scheduler : s.scheduler.Cleared ∨ EventScheduler.Stored s.scheduler.Small s.scheduler
  logged : Logged s
  callbacks : ∀ index ∈ s.callbacks, index ≤ s.scheduleIndex
  paced : Idle s ∨ Waiting s

def TimesFit (scheduler : EventScheduler) (now : Nat) : Prop :=
  scheduler.slotInfos = []
    ∨ 0 < scheduler.slotStructure.slotDuration
    ∧ scheduler.slotsPerMultiFrame < 2^32
    ∧ scheduler.multiFrameTime (scheduler.multiFrameAfter now + 1) < 2^63

section

variable {s : Transmitter}

theorem cancelTimedEvent_eq (h : ∀ t ∈ s.timers, t.id = s.transmitTimedEventId ∧ t.id ≠ 0)
    : s.cancelTimedEvent = { s with timers := [], transmitTimedEventId := 0 } := by
  unfold cancelTimedEvent
  split
  . have hnil : s.timers.filter (fun t => t.id ≠ s.transmitTimedEventId) = [] := by
      rw [List.filter_eq_nil_iff]
      intro t ht
      simp [(h t ht).1]
    rw [hnil]
  . next hzero =>
    have hid : s.transmitTimedEventId = 0 := by simpa using hzero
    have hnil : s.timers = [] := by
      rw [List.eq_nil_iff_forall_not_mem]
      intro t ht
      have ht := h t ht
      omega
    rw [← hnil, ← hid]

theorem Inv.timers (h : Inv s) : ∀ t ∈ s.timers, t.id = s.transmitTimedEventId ∧ t.id ≠ 0 := by
  intro t ht
  cases h.paced with
  | inl hidle =>
    rw [hidle.timers] at ht
    simp at ht
  | inr hwaiting =>
    obtain ⟨heq, hid⟩ := hwaiting.timers t ht
    rw [heq]
    exact ⟨rfl, hid⟩

def changed (s : Transmitter) (scheduler : EventScheduler) (change : Scheduler.ScheduleChange)
    (now : Nat) : Transmitter :=
  { s with
    scheduler := scheduler
    clock := now
    scheduleIndex := s.scheduleIndex + 1
    timers := []
    transmitTimedEventId := 0
    frequencies := change.frequencies
    bandwidth := change.bandwidth
    slotDuration := change.slotDuration
    slotOverhead := change.slotOverhead
    start := now }

theorem notifyScheduleChange_eq (h : Inv s) (scheduler : EventScheduler)
    (change : Scheduler.ScheduleChange) (now : Nat)
    : notifyScheduleChange { s with scheduler := scheduler, clock := now } change now
        =
      ((s.changed scheduler change now).requestTxSlotInfo now).bind (fun s =>
        match s.txSlotInfos with
        | [] => some s
        | tx :: txSlotInfos =>
            some { s with pendingTxSlotInfo := tx, txSlotInfos := txSlotInfos }.schedule) := by
  have hcancel := @cancelTimedEvent_eq
    { s with scheduler := scheduler, clock := now, scheduleIndex := s.scheduleIndex + 1 } h.timers
  unfold notifyScheduleChange
  simp only [hcancel]
  rfl

theorem Inv.recorded_changed (h : Inv s) (scheduler : EventScheduler)
    (change : Scheduler.ScheduleChange) (now : Nat)
    : (s.changed scheduler change now).recorded = [] := by
  have hnil : s.statuses.filter (fun update => update.scheduleIndex = s.scheduleIndex + 1) = [] := by
    rw [List.filter_eq_nil_iff]
    intro update hupdate
    have hle := h.logged.indexes update hupdate
    rw [decide_eq_true_iff]
    omega
  unfold recorded changed
  simp only [hnil, List.map_nil]

variable {now : Nat}

theorem Inv.logged_changed (h : Inv s) (scheduler : EventScheduler) (change : Scheduler.ScheduleChange)
    (hclock : s.clock ≤ now)
    : Logged (s.changed scheduler change now) where
  managed := h.logged.managed
  indexes := fun update hupdate => Nat.le_succ_of_le (h.logged.indexes update hupdate)
  past := fun update hupdate => Int.le_trans (h.logged.past update hupdate) (Int.ofNat_le.mpr hclock)
  increasing := h.logged.increasing
  timely := h.logged.timely
  used := h.logged.used

theorem Inv.callbacks_changed (h : Inv s) : s.scheduleIndex + 1 ∉ s.callbacks := by
  intro hmem
  have hle := h.callbacks _ hmem
  omega

def answered (s : Transmitter) (now : Nat) : Transmitter :=
  { s with
    scheduler := { s.scheduler with waitingFirstTxSlotInfoRequest := false }
    txSlotInfos :=
      s.scheduler.txSlots (s.scheduler.multiFrameAfter now * s.scheduler.slotsPerMultiFrame)
        s.scheduler.slotsPerMultiFrame
    nextMultiFrameTime := s.scheduler.multiFrameTime (s.scheduler.multiFrameAfter now + 1) }

theorem requestTxSlotInfo_eq (husable : s.scheduler.Usable)
    (hwaiting : s.scheduler.waitingFirstTxSlotInfoRequest = true)
    (hsmall : s.scheduler.slotsPerMultiFrame < 2^32) {now : Nat}
    (hlt : s.scheduler.multiFrameTime (s.scheduler.multiFrameAfter now + 1) < 2^63)
    : s.requestTxSlotInfo now = some (s.answered now) := by
  have hle := EventScheduler.multiFrameTime_le s.scheduler (Nat.le_succ (s.scheduler.multiFrameAfter now))
  have hrequest := husable.requestTime_eq hwaiting (Nat.lt_of_le_of_lt hle hlt)
  unfold requestTxSlotInfo
  rw [husable.getTxSlotInfo_eq hsmall hlt hrequest]
  rfl

theorem Inv.ahead_changed (h : Inv s) {scheduler : EventScheduler} (change : Scheduler.ScheduleChange)
    (hclock : s.clock ≤ now) (husable : scheduler.Usable)
    (hsmall : scheduler.slotsPerMultiFrame < 2^32) (hasTx : scheduler.HasTx)
    : Ahead ((s.changed scheduler change now).answered now)
        (scheduler.multiFrameAfter now * scheduler.slotsPerMultiFrame)
        (scheduler.multiFrameAfter now + 1)
            ((s.changed scheduler change now).answered now).txSlotInfos := by
  constructor
  . exact ⟨⟨husable.stored.length, husable.stored.addressed, husable.stored.slotter⟩, husable.slots,
      husable.duration⟩
  . exact hsmall
  . exact hasTx
  . rfl
  . rfl
  . exact Nat.le_refl _
  . exact Nat.mul_le_mul_right _ (Nat.le_succ _)
  . change (scheduler.multiFrameAfter now + 1) * scheduler.slotsPerMultiFrame
      ≤ _ + 2 * scheduler.slotsPerMultiFrame
    rw [Nat.add_mul]
    omega
  . rw [show ((s.changed scheduler change now).answered now).firstSlot
      = scheduler.multiFrameAfter now * scheduler.slotsPerMultiFrame from rfl, Nat.sub_self]
    exact h.recorded_changed scheduler change now
  . change scheduler.txSlots _ _ = scheduler.txSlots _
      ((scheduler.multiFrameAfter now + 1) * scheduler.slotsPerMultiFrame - _)
    rw [Nat.add_mul, Nat.add_sub_cancel_left, Nat.one_mul]
    rfl
  . intro update hupdate
    have hpast := h.logged.past update hupdate
    have hlt := Nat.lt_of_le_of_lt hclock (husable.lt_multiFrameTime now)
    exact Int.lt_of_le_of_lt hpast (Int.ofNat_lt.mpr hlt)

theorem Waiting.of_schedule {a k : Nat} {tx : Scheduler.TxSlotInfo} {txSlotInfos : Scheduler.TxSlotInfos}
    (hahead : Ahead s a k (tx :: txSlotInfos)) (htimers : s.timers = [])
    (hcallbacks : s.scheduleIndex ∉ s.callbacks)
    : Waiting { s with pendingTxSlotInfo := tx, txSlotInfos := txSlotInfos }.schedule := by
  have hadvance := hahead.advance
  constructor
  . exact ⟨k, hadvance.frame rfl rfl rfl rfl rfl⟩
  . intro t ht
    simp only [schedule, htimers, List.nil_append, List.mem_singleton] at ht
    rw [ht]
    exact ⟨rfl, Nat.succ_ne_zero _⟩
  . simp only [schedule, htimers, List.nil_append, List.length_singleton,
      List.count_eq_zero_of_not_mem hcallbacks]
  . intro hmem
    exact absurd hmem hcallbacks

theorem Inv.notifyScheduleChange (h : Inv s) {scheduler : EventScheduler}
    (change : Scheduler.ScheduleChange)
    (hclock : s.clock ≤ now)
    (hscheduler : scheduler.Cleared ∨ EventScheduler.Stored scheduler.Small scheduler)
    (hwaiting : scheduler.slotInfos ≠ [] → scheduler.waitingFirstTxSlotInfoRequest = true)
    (hfit : TimesFit scheduler now)
    : ∃ s',
        Transmitter.notifyScheduleChange { s with scheduler := scheduler, clock := now }
          change now = some s'
          ∧ Inv s' := by
  have hlog := h.logged_changed scheduler change hclock
  have hrecorded := h.recorded_changed scheduler change now
  have hcallbacks := h.callbacks_changed
  have hle : ∀ index ∈ s.callbacks, index ≤ s.scheduleIndex + 1 := fun index hindex =>
    Nat.le_succ_of_le (h.callbacks index hindex)
  rw [notifyScheduleChange_eq h]
  by_cases hempty : scheduler.slotInfos = []
  . have hget : scheduler.getTxSlotInfo now 1 = some (([], .min), scheduler) := by
      unfold EventScheduler.getTxSlotInfo
      rw [if_pos (by simp [hempty])]
    have hrequest : (s.changed scheduler change now).requestTxSlotInfo now
        = some { s.changed scheduler change now with txSlotInfos := [], nextMultiFrameTime := .min } := by
      unfold requestTxSlotInfo
      rw [show (s.changed scheduler change now).scheduler = scheduler from rfl, hget]
      rfl
    rw [hrequest]
    refine ⟨_, rfl, hscheduler, ?_, hle, Or.inl ⟨?_, hrecorded, rfl, hcallbacks⟩⟩
    . exact hlog.frame hlog.managed rfl (Nat.le_refl _) rfl rfl
    . rintro ⟨info, hinfo, _⟩
      change info ∈ scheduler.slotInfos at hinfo
      rw [hempty] at hinfo
      simp at hinfo
  . obtain ⟨hduration, hsmall, hlt⟩ := hfit.resolve_left hempty
    have hstored := hscheduler.resolve_left (fun hcleared => hempty hcleared.slotInfos)
    have husable : scheduler.Usable := by
      refine ⟨hstored, ?_, hduration⟩
      have hlength : scheduler.slotInfos.length = scheduler.slotsPerMultiFrame := hstored.length
      rw [← hlength]
      exact List.length_pos_iff.mpr hempty
    rw [@requestTxSlotInfo_eq (s.changed scheduler change now) husable
      (hwaiting hempty) hsmall now hlt, Option.bind_some]
    have hlog' : Logged ((s.changed scheduler change now).answered now) :=
      hlog.frame hlog.managed rfl (Nat.le_refl _) rfl rfl
    have hscheduler' : EventScheduler.Stored
      ((s.changed scheduler change now).answered now).scheduler.Small
        ((s.changed scheduler change now).answered now).scheduler :=
          ⟨hstored.length, hstored.addressed, hstored.slotter⟩
    by_cases hasTx : scheduler.HasTx
    . have hahead := h.ahead_changed change hclock husable hsmall hasTx
      have hnonempty : ((s.changed scheduler change now).answered now).txSlotInfos ≠ [] := by
        intro hnil
        exact absurd (husable.lt_of_txSlots_eq_nil hasTx hnil) (Nat.lt_irrefl _)
      obtain ⟨tx, txSlotInfos, hslots⟩ := List.exists_cons_of_ne_nil hnonempty
      rw [hslots] at hahead ⊢
      refine ⟨_, rfl, Or.inr hscheduler', ?_, hle, Or.inr (Waiting.of_schedule hahead rfl hcallbacks)⟩
      exact hlog'.frame hlog'.managed rfl (Nat.le_refl _) rfl rfl
    . have hnil : ((s.changed scheduler change now).answered now).txSlotInfos = [] :=
        EventScheduler.txSlots_of_not_hasTx hasTx _ _
      rw [hnil]
      exact ⟨_, rfl, Or.inr hscheduler', hlog', hle, Or.inl ⟨hasTx, hrecorded, rfl, hcallbacks⟩⟩

theorem Logged.setClock (h : Logged s) (hclock : s.clock ≤ now) : Logged { s with clock := now } :=
  h.frame h.managed rfl hclock rfl rfl

theorem Inv.setClock (h : Inv s) (hclock : s.clock ≤ now) : Inv { s with clock := now } := by
  refine ⟨h.scheduler, h.logged.setClock hclock, h.callbacks, ?_⟩
  cases h.paced with
  | inl hidle => exact Or.inl ⟨hidle.hasTx, hidle.recorded, hidle.timers, hidle.callbacks⟩
  | inr hwaiting =>
    obtain ⟨k, hahead⟩ := hwaiting.ahead
    refine Or.inr ⟨⟨k, ?_⟩, hwaiting.timers, hwaiting.outstanding, ?_⟩
    . exact hahead.frame rfl rfl rfl rfl rfl
    . intro hmem
      exact Int.le_trans (hwaiting.due hmem) (Int.ofNat_le.mpr hclock)

theorem Inv.expire (h : Inv s) {timer : Timer} (hclock : s.clock ≤ now) (htimer : timer ∈ s.timers)
    (hdue : timer.timePoint ≤ now)
    : Inv { s with clock := now, timers := s.timers.erase timer, callbacks :=
        s.callbacks ++ [timer.scheduleIndex] } := by
  have hset := h.setClock hclock
  cases hset.paced with
  | inl hidle =>
    have htimers : s.timers = [] := hidle.timers
    rw [htimers] at htimer
    simp at htimer
  | inr hwaiting =>
    have hmem := (hwaiting.timers timer htimer).1
    have hindex : timer.scheduleIndex = s.scheduleIndex := by rw [hmem]
    have htime : timer.timePoint = s.pendingTxSlotInfo.timePoint := by rw [hmem]
    have hlog := hset.logged
    refine ⟨h.scheduler, hlog.frame hlog.managed rfl (Nat.le_refl _) rfl rfl, ?_, Or.inr ?_⟩
    . intro index hmem
      rw [List.mem_append, List.mem_singleton] at hmem
      cases hmem with
      | inl hmem => exact h.callbacks index hmem
      | inr heq =>
        rw [heq, hindex]
    . obtain ⟨k, hahead⟩ := hwaiting.ahead
      constructor
      . exact ⟨k, hahead.frame rfl rfl rfl rfl rfl⟩
      . intro t ht
        exact hwaiting.timers t (List.mem_of_mem_erase ht)
      . have hone := hwaiting.outstanding
        have hlength := List.length_erase_of_mem htimer
        have hpos := List.length_pos_of_mem htimer
        simp only [hindex, List.count_append, List.count_singleton_self, hlength] at hone ⊢
        omega
      . intro _
        rw [← htime]
        exact hdue

theorem Inv.staleCallback (h : Inv s) {scheduleIndex now time : Nat} (hclock : s.clock ≤ time)
    (hstale : scheduleIndex ≠ s.scheduleIndex)
    : processTxOpportunity { s with clock := time, callbacks := s.callbacks.erase scheduleIndex }
        scheduleIndex now time
        =
      some { s with clock := time, callbacks := s.callbacks.erase scheduleIndex }
        ∧ Inv { s with clock := time, callbacks := s.callbacks.erase scheduleIndex } := by
  refine ⟨?_, ?_⟩
  . unfold processTxOpportunity
    rw [if_pos hstale]
  . have hset := h.setClock hclock
    have hlog := hset.logged
    refine ⟨h.scheduler, hlog.frame hlog.managed rfl (Nat.le_refl _) rfl rfl, ?_, ?_⟩
    . intro index hindex
      exact h.callbacks index (List.mem_of_mem_erase hindex)
    . cases hset.paced with
      | inl hidle =>
        refine Or.inl ⟨hidle.hasTx, hidle.recorded, hidle.timers, ?_⟩
        intro hmem
        exact hidle.callbacks (List.mem_of_mem_erase hmem)
      | inr hwaiting =>
        obtain ⟨k, hahead⟩ := hwaiting.ahead
        refine Or.inr ⟨⟨k, ?_⟩, hwaiting.timers, ?_, ?_⟩
        . exact hahead.frame rfl rfl rfl rfl rfl
        . have hone := hwaiting.outstanding
          simp only [List.count_erase_of_ne hstale.symm] at hone ⊢
          exact hone
        . intro hmem
          exact hwaiting.due (List.mem_of_mem_erase hmem)

theorem Inv.currentCallback (h : Inv s) {time : Nat} (hclock : s.clock ≤ now) (hle : now ≤ time)
    (hmem : s.scheduleIndex ∈ s.callbacks) (hslot : s.scheduler.slotAt time = s.scheduler.slotAt now)
    (hfits : s.scheduler.multiFrameTime (s.scheduler.multiFrameAfter now + 2) < 2^63)
    : ∃ s',
        processTxOpportunity { s with clock := time, callbacks := s.callbacks.erase s.scheduleIndex
          } s.scheduleIndex now time
          =
        some s'
          ∧ Inv s'
          ∧ Landed { s with clock := time, callbacks := s.callbacks.erase s.scheduleIndex } s' now
          ∧ s'.timers.length = 1
          ∧ s'.scheduleIndex ∉ s'.callbacks := by
  rcases h.paced with hidle | hwaiting
  . exact absurd hmem hidle.callbacks
  . obtain ⟨k, hahead⟩ := hwaiting.ahead
    have hlog := h.logged.setClock (Nat.le_trans hclock hle)
    have hpast : s.pendingTxSlotInfo.absoluteSlotIndex ≤ s.scheduler.slotAt now := by
      rw [hahead.usable.le_slotAt_iff]
      have hdue := hwaiting.due hmem
      rw [EventScheduler.Usable.timePoint_eq hahead.head.2.2] at hdue
      exact Nat.le_trans (Int.ofNat_le.mp hdue) hclock
    have hcount : s.callbacks.count s.scheduleIndex = 1 ∧ s.timers = [] := by
      have hone := hwaiting.outstanding
      have hpos := List.count_pos_iff.mpr hmem
      exact ⟨by omega, List.length_eq_zero_iff.mp (by omega)⟩
    obtain ⟨s', heq, hlanded⟩ := @processTxOpportunity_eq
      { s with clock := time, callbacks := s.callbacks.erase s.scheduleIndex } _ k now time
      (hahead.frame rfl rfl rfl rfl rfl) (hlog.frame hlog.managed rfl (Nat.le_refl _) rfl rfl)
        ⟨rfl, hle, hslot, hfits⟩ hpast
    have htimers : s'.timers
        = [⟨s'.transmitTimedEventId, s'.scheduleIndex, s'.pendingTxSlotInfo.timePoint⟩] := by
      rw [hlanded.timers]
      simp only [hcount.2, List.nil_append]
    have hcallbacks : s'.callbacks.count s'.scheduleIndex = 0 := by
      rw [hlanded.same.callbacks, hlanded.same.scheduleIndex]
      simp only [List.count_erase_self, hcount.1]
    have hnotin := List.count_eq_zero.mp hcallbacks
    refine ⟨s', heq, ⟨?_, hlanded.logged, ?_, Or.inr ⟨hlanded.ahead, ?_, ?_, ?_⟩⟩,
      hlanded, by simp [htimers], hnotin⟩
    . rw [hlanded.same.scheduler]
      exact h.scheduler
    . intro index hindex
      rw [hlanded.same.callbacks] at hindex
      rw [hlanded.same.scheduleIndex]
      exact h.callbacks index (List.mem_of_mem_erase hindex)
    . intro t ht
      rw [htimers, List.mem_singleton] at ht
      exact ⟨ht, hlanded.id_ne_zero⟩
    . rw [htimers, hcallbacks]
      rfl
    . intro hin
      exact absurd hin hnotin

theorem Inv.setModel (h : Inv s) {model : BaseModel} (hmodel : model.Managed)
    : Inv { s with model := model } := by
  have hlog := h.logged
  refine ⟨h.scheduler, hlog.frame hmodel rfl (Nat.le_refl _) rfl rfl, h.callbacks, ?_⟩
  cases h.paced with
  | inl hidle => exact Or.inl ⟨hidle.hasTx, hidle.recorded, hidle.timers, hidle.callbacks⟩
  | inr hwaiting =>
    obtain ⟨k, hahead⟩ := hwaiting.ahead
    refine Or.inr ⟨⟨k, ?_⟩, hwaiting.timers, hwaiting.outstanding, hwaiting.due⟩
    exact hahead.frame rfl rfl rfl rfl rfl

end

def Enabled (s : Transmitter) : Event → Prop
  | .scheduleEvent _ now => s.clock ≤ now
  | .expire timer now => s.clock ≤ now ∧ timer ∈ s.timers ∧ timer.timePoint ≤ now
  | .callback scheduleIndex now time => s.clock ≤ now ∧ now ≤ time ∧ scheduleIndex ∈ s.callbacks
  | .model (.txOpportunity _) => False
  | .model event => (s.model.react event).isSome

/--
The slots of a new schedule have a duration, and all times that are computed fit into 64 bits. A
callback is over before the next slot starts.
-/
def Fits (s : Transmitter) : Event → Prop
  | .scheduleEvent msg now =>
    match s.scheduler.processEvent msg with
    | some (_, _, scheduler) => TimesFit scheduler now
    | none => False
  | .callback scheduleIndex now time =>
    scheduleIndex = s.scheduleIndex
      →
    s.scheduler.slotAt time = s.scheduler.slotAt now
      ∧ s.scheduler.multiFrameTime (s.scheduler.multiFrameAfter now + 2) < 2^63
  | .expire _ _ => True
  | .model _ => True

instance (scheduler : EventScheduler) (now : Nat) : Decidable (TimesFit scheduler now) :=
  inferInstanceAs (Decidable (_ ∨ _))

instance (s : Transmitter) : (event : Event) → Decidable (s.Fits event)
  | .scheduleEvent msg now =>
    match h : s.scheduler.processEvent msg with
    | some (_, _, scheduler) => decidable_of_iff (TimesFit scheduler now) (by simp [Fits, h])
    | none => isFalse (by simp [Fits, h])
  | .callback _ _ _ => inferInstanceAs (Decidable (_ → _ ∧ _))
  | .expire _ _ => isTrue trivial
  | .model _ => isTrue trivial

def Answers (s : Transmitter) (event : Event) (s' : Transmitter) : Prop :=
  match event with
  | .callback scheduleIndex now time =>
    if scheduleIndex = s.scheduleIndex then
      s'.scheduleIndex = s.scheduleIndex
        ∧ s'.recorded = s.scheduler.txSlots s.firstSlot (s.scheduler.slotAt now + 1 - s.firstSlot)
        ∧ s'.timers.length = 1
        ∧ s'.scheduleIndex ∉ s'.callbacks
    else
      s' = { s with clock := time, callbacks := s.callbacks.erase scheduleIndex }
  | _ => True

theorem waiting_of_effect {s s' : EventScheduler} {msg : Option Events.TDMAScheduleEvent.Message}
    {outcome : EventScheduler.Outcome}
    {change : Scheduler.ScheduleChange} (h : EventScheduler.Effect s msg outcome (some change) s')
    : s'.slotInfos ≠ [] → s'.waitingFirstTxSlotInfoRequest = true := by
  intro hnonempty
  cases h with
  | full m slotStructure event hmsg hstructure hevent accepted haccepted =>
    rw [haccepted]
    rfl
  | update m event hmsg hstructure hevent hnonempty' hrange hassign accepted haccepted =>
    rw [haccepted]
    rfl
  | rejected outcome houtcome => exact absurd rfl hnonempty

theorem enabled_of_step {event : Event} (h : s.step event = some s') : s.Enabled event := by
  cases event with
  | scheduleEvent msg now =>
    simp only [step] at h
    split at h
    . next hclock => exact hclock
    . simp at h
  | expire timer now =>
    simp only [step] at h
    split at h
    . next henabled => exact henabled
    . simp at h
  | callback scheduleIndex now time =>
    simp only [step] at h
    split at h
    . next henabled => exact henabled
    . simp at h
  | model event =>
    cases event with
    | txOpportunity slot => simp [step] at h
    | downstreamPacket pkt =>
      obtain ⟨res, hreact, _⟩ := Option.bind_eq_some_iff.mp h
      exact Option.isSome_of_eq_some hreact
    | schedulerPacket pkt =>
      obtain ⟨res, hreact, _⟩ := Option.bind_eq_some_iff.mp h
      exact Option.isSome_of_eq_some hreact
    | flowControlMessage tokens => rfl

theorem Inv.scheduleEvent (h : Inv s) {msg : Option Events.TDMAScheduleEvent.Message} {now : Nat}
    (hclock : s.clock ≤ now) (hfits : s.Fits (.scheduleEvent msg now))
    : ∃ s', s.step (.scheduleEvent msg now) = some s' ∧ Inv s' := by
  simp only [Fits] at hfits
  split at hfits
  . next outcome change scheduler hevent =>
    have heffect := EventScheduler.Effect.of_processEvent hevent
    have hscheduler := EventScheduler.cleared_or_stored h.scheduler heffect
    simp only [step, if_pos hclock, hevent, Option.bind_eq_bind, Option.bind_some]
    cases change with
    | some change =>
      exact h.notifyScheduleChange change hclock hscheduler (waiting_of_effect heffect) hfits
    | none =>
      -- an update before the first full schedule
      cases heffect with
      | beforeFull hempty => exact ⟨_, rfl, h.setClock hclock⟩
  . exact absurd hfits id

theorem Inv.model (h : Inv s) {event : BaseModel.Event} (henabled : s.Enabled (.model event))
    : ∃ s', s.step (.model event) = some s' ∧ Inv s' := by
  have hreact : ∀ {event : BaseModel.Event}, (s.model.react event).isSome →
      ∃ s', ((s.model.react event).bind (fun res => some { s with model := res.2 })) = some s'
          ∧ Inv s' := by
    intro event hsome
    obtain ⟨res, hres⟩ := Option.isSome_iff_exists.mp hsome
    rw [hres]
    exact ⟨_, rfl, h.setModel (h.logged.managed.react hres)⟩
  cases event with
  | txOpportunity slot => exact absurd henabled id
  | downstreamPacket pkt => exact hreact henabled
  | schedulerPacket pkt => exact hreact henabled
  | flowControlMessage tokens => exact hreact henabled

theorem Inv.step (h : Inv s) {event : Event} (henabled : s.Enabled event) (hfits : s.Fits event)
    : ∃ s', s.step event = some s' ∧ Inv s' ∧ Answers s event s' := by
  cases event with
  | scheduleEvent msg now =>
    obtain ⟨s', heq, hinv⟩ := h.scheduleEvent henabled hfits
    exact ⟨s', heq, hinv, trivial⟩
  | expire timer now =>
    obtain ⟨hclock, htimer, hdue⟩ := henabled
    refine ⟨_, ?_, h.expire hclock htimer hdue, trivial⟩
    simp only [Transmitter.step, hclock, htimer, hdue, and_self, ↓reduceIte]
  | callback scheduleIndex now time =>
    have hstep : s.step (.callback scheduleIndex now time)
        = processTxOpportunity { s with clock := time, callbacks := s.callbacks.erase scheduleIndex
            } scheduleIndex now time :=
      if_pos henabled
    obtain ⟨hclock, hle, hmem⟩ := henabled
    rw [hstep]
    by_cases hindex : scheduleIndex = s.scheduleIndex
    . subst hindex
      obtain ⟨hslot, hlt⟩ := hfits rfl
      obtain ⟨s', heq, hinv, hlanded, htimers, hcallbacks⟩ := h.currentCallback hclock hle hmem hslot hlt
      refine ⟨s', heq, hinv, ?_⟩
      simp only [Answers, ↓reduceIte]
      have hrecorded := hlanded.recorded
      unfold firstSlot at hrecorded
      rw [hlanded.same.scheduler, hlanded.same.start] at hrecorded
      exact ⟨hlanded.same.scheduleIndex, hrecorded, htimers, hcallbacks⟩
    . obtain ⟨heq, hinv⟩ := @Inv.staleCallback s h scheduleIndex now time (Nat.le_trans hclock hle) hindex
      refine ⟨_, heq, hinv, ?_⟩
      simp only [Answers, if_neg hindex]
  | model event =>
    obtain ⟨s', heq, hinv⟩ := h.model henabled
    exact ⟨s', heq, hinv, trivial⟩

/--
No two messages are sent in the same slot, and all slots from the first one on that have been dealt
with are in the table, each of them once.
-/
structure Sound (s : Transmitter) : Prop where
  once : s.transmissions.Pairwise (fun t t' => t.slot.timePoint < t'.slot.timePoint)
  absolute : s.transmissions.Pairwise (fun t t' =>
    t.scheduler.slotStructure.slotDuration = t'.scheduler.slotStructure.slotDuration →
    t.message.absoluteSlotIndex < t'.message.absoluteSlotIndex)
  timely : ∀ t ∈ s.transmissions, t.Timely
  used : ∀ t ∈ s.transmissions, ⟨t.scheduleIndex, t.slot, .TX_GOOD⟩ ∈ s.statuses
  statuses : s.statuses.Pairwise (fun update update' => update.slot.timePoint < update'.slot.timePoint)
  recorded : ∃ count, s.recorded = s.scheduler.txSlots s.firstSlot count
  outstanding : s.timers.length + s.callbacks.count s.scheduleIndex = if s.scheduler.HasTx then 1 else 0

theorem Logged.once (h : Logged s)
    : s.transmissions.Pairwise (fun t t' => t.slot.timePoint < t'.slot.timePoint) := by
  have hsublist : (s.transmissions.map (fun t => t.slot.timePoint)).Sublist
      (s.statuses.map (fun update => update.slot.timePoint)) := by
    have hused := h.used.map (fun key => key.2.timePoint)
    rw [List.map_map, List.map_map] at hused
    exact hused.trans (List.filter_sublist.map _)
  exact List.pairwise_map.mp (h.increasing.sublist hsublist)

theorem Transmission.Timely.lt_of_timePoint_lt {t t' : Transmission} (h : t.Timely) (h' : t'.Timely)
    (hlt : t.slot.timePoint < t'.slot.timePoint)
    (hduration : t.scheduler.slotStructure.slotDuration = t'.scheduler.slotStructure.slotDuration)
    : t.message.absoluteSlotIndex < t'.message.absoluteSlotIndex := by
  rw [h.message, h'.message]
  apply Nat.lt_of_not_le
  intro hle
  have htime := EventScheduler.slotTime_le t.scheduler hle
  have hsame : t.scheduler.slotTime t'.slot.absoluteSlotIndex
      = t'.scheduler.slotTime t'.slot.absoluteSlotIndex := by
    unfold EventScheduler.slotTime
    rw [hduration]
  rw [EventScheduler.Usable.timePoint_eq h.txSlot,
    EventScheduler.Usable.timePoint_eq h'.txSlot, ← hsame] at hlt
  exact absurd (Int.ofNat_lt.mp hlt) (Nat.not_lt.mpr htime)

theorem Inv.sound (h : Inv s) : Sound s := by
  have honce := h.logged.once
  constructor
  . exact honce
  . apply List.Pairwise.imp_of_mem _ honce
    intro t t' ht ht' hlt
    exact Transmission.Timely.lt_of_timePoint_lt (h.logged.timely t ht) (h.logged.timely t' ht') hlt
  . exact h.logged.timely
  . intro t ht
    have hmem := h.logged.used.subset (List.mem_map_of_mem ht)
    rw [List.mem_map] at hmem
    obtain ⟨update, hupdate, heq⟩ := hmem
    rw [List.mem_filter, decide_eq_true_iff] at hupdate
    rw [Prod.mk.injEq] at heq
    rw [← heq.1, ← heq.2, ← hupdate.2]
    exact hupdate.1
  . exact List.pairwise_map.mp h.logged.increasing
  . cases h.paced with
    | inl hidle => exact ⟨0, hidle.recorded⟩
    | inr hwaiting =>
      obtain ⟨k, hahead⟩ := hwaiting.ahead
      exact ⟨_, hahead.recorded⟩
  . cases h.paced with
    | inl hidle => rw [hidle.timers, List.count_eq_zero_of_not_mem hidle.callbacks,
      if_neg hidle.hasTx, List.length_nil]
    | inr hwaiting =>
      obtain ⟨k, hahead⟩ := hwaiting.ahead
      rw [hwaiting.outstanding, if_pos hahead.hasTx]

section

variable (id : NEMId) (mapping : QueueTexts) (flowControlEnable : Bool) (cfg : QueueManagerConfig)
  (flowControlTokens : Nat)
  (bytesAvailable : Nat → Nat → Nat → Nat)

def started : Transmitter :=
  init ((BaseModel.configure id mapping flowControlEnable cfg).postStart flowControlTokens).2
    bytesAvailable

theorem Inv.of_started
    : Inv (started id mapping flowControlEnable cfg flowControlTokens bytesAvailable) := by
  have hmanaged : ((BaseModel.configure id mapping flowControlEnable cfg).postStart
      flowControlTokens).2.Managed := by
    unfold BaseModel.postStart
    split
    . exact ⟨_, BasicQueueManager.Manages.of_configure id cfg⟩
    . exact ⟨_, BasicQueueManager.Manages.of_configure id cfg⟩
  refine ⟨Or.inl ⟨rfl, rfl, rfl, rfl⟩, ⟨hmanaged, ?_, ?_, ?_, ?_, ?_⟩, ?_, Or.inl ⟨?_, rfl, rfl, ?_⟩⟩
  . simp [started, init]
  . simp [started, init]
  . simp [started, init]
  . simp [started, init]
  . simp [started, init]
  . simp [started, init]
  . simp [started, init, EventScheduler.HasTx]
  . simp [started, init]

variable {id mapping flowControlEnable cfg flowControlTokens bytesAvailable} {events : List Event}
  {s : Transmitter}

/--
In every state that a run gets to the log is sound, and a callback of the current schedule deals
with all slots up to the one that the clock is in.
-/
theorem run_sound
    (hrun : run step (started id mapping flowControlEnable cfg flowControlTokens bytesAvailable)
      events = some s)
    (hfits : Guarded step Fits
      (started id mapping flowControlEnable cfg flowControlTokens bytesAvailable) events)
    : s.Sound
        ∧ ∀ event, s.Enabled event → s.Fits event → ∃ s', s.step event = some s' ∧ s'.Sound
        ∧ Answers s event s' := by
  have hstep : ∀ (s : Transmitter) (event : Event) (s' : Transmitter), Inv s → s.Fits event
      → s.step event = some s' → Inv s' := by
    intro s event s' hinv hfits hs'
    obtain ⟨s'', heq, hinv', _⟩ := hinv.step (enabled_of_step hs') hfits
    rw [hs', Option.some.injEq] at heq
    rw [heq]
    exact hinv'
  have hinv : Inv s :=
    run_inv hstep
      (Inv.of_started id mapping flowControlEnable cfg flowControlTokens bytesAvailable) hfits hrun
  refine ⟨hinv.sound, ?_⟩
  intro event henabled hfits
  obtain ⟨s', heq, hinv', hanswers⟩ := hinv.step henabled hfits
  exact ⟨s', heq, hinv'.sound, hanswers⟩

def twoSlots (slotDuration : Nat) : Events.TDMAScheduleEvent.Message where
  slotStructure := some ⟨1, 1, 2, slotDuration, 0⟩
  frames := [{
    index := 0
    frequencyHz := some 5
    dataRatebps := some 7
    serviceClass := some 0
    powerdBm := some 0
    slots := [{ index := 0, type := .TX }]
  }]

theorem run_sound_example
    : ∃ s : Transmitter,
        run step (started 1 .empty false ⟨10, true, true, true, fun n => n⟩ 0 (fun _ _ _ => 100)) [
          .scheduleEvent (some (twoSlots 1000)) 5,
            .model (.downstreamPacket ⟨⟨1, 2, 0, 0, 0⟩, [[1, 2, 3]]⟩),
          .expire ⟨1, 1, 2000000⟩ 2000007, .callback 1 2000009 2000011, .expire ⟨2, 1, 4000000⟩ 9000000,
          .scheduleEvent (some (twoSlots 1000)) 9000005, .callback 1 9000006 9000006
        ] = some s
          ∧ s.Sound
          ∧ s.transmissions.length = 1 := by
  have hall : (run step (started 1 .empty false ⟨10, true, true, true, fun n => n⟩ 0 (fun _ _ _ => 100)) [
      .scheduleEvent (some (twoSlots 1000)) 5, .model (.downstreamPacket ⟨⟨1, 2, 0, 0, 0⟩, [[1, 2, 3]]⟩),
      .expire ⟨1, 1, 2000000⟩ 2000007, .callback 1 2000009 2000011, .expire ⟨2, 1, 4000000⟩ 9000000,
      .scheduleEvent (some (twoSlots 1000)) 9000005, .callback 1 9000006 9000006
    ]).any (fun s => s.transmissions.length = 1) := by decide +kernel
  rw [Option.any_eq_true] at hall
  obtain ⟨s, hrun, hlength⟩ := hall
  exact ⟨s, hrun, (run_sound hrun (by decide +kernel)).1, of_decide_eq_true hlength⟩

theorem not_sound_of_duration
    : (∃ change scheduler,
        EventScheduler.processEvent {} (some (twoSlots 0)) = some
          (.scheduleAcceptFull, some change, scheduler)
          ∧ scheduler.HasTx
          ∧ step (started 1 .empty false ⟨10, true, true, true, fun n => n⟩ 0 (fun _ _ _ => 100))
          (.scheduleEvent (some (twoSlots 0)) 5) = none)
        ∧ ∃ s : Transmitter,
        run step (started 1 .empty false ⟨10, true, true, true, fun n => n⟩ 0 (fun _ _ _ => 100)) [
          .scheduleEvent (some (twoSlots 1000)) 5,
            .model (.downstreamPacket ⟨⟨1, 2, 0, 0, 0⟩, [[1, 2, 3]]⟩),
          .expire ⟨1, 1, 2000000⟩ 2000007, .callback 1 2999999 3000001
        ] = some s
          ∧ ¬ s.Sound := by
  have hdivision : (EventScheduler.processEvent {} (some (twoSlots 0))).any (fun res =>
      res.1 = .scheduleAcceptFull ∧ res.2.1.isSome ∧ res.2.2.HasTx) := by decide +kernel
  have hlate : (run step
    (started 1 .empty false ⟨10, true, true, true, fun n => n⟩ 0 (fun _ _ _ => 100)) [
      .scheduleEvent (some (twoSlots 1000)) 5, .model (.downstreamPacket ⟨⟨1, 2, 0, 0, 0⟩, [[1, 2, 3]]⟩),
      .expire ⟨1, 1, 2000000⟩ 2000007, .callback 1 2999999 3000001
    ]).any (fun s => ∃ t ∈ s.transmissions, t.scheduler.slotTime (t.slot.absoluteSlotIndex + 1)
      ≤ t.time) := by decide +kernel
  rw [Option.any_eq_true] at hdivision hlate
  refine ⟨?_, ?_⟩
  . obtain ⟨⟨outcome, change, scheduler⟩, hevent, hall⟩ := hdivision
    obtain ⟨houtcome, hchange, htx⟩ := of_decide_eq_true hall
    obtain ⟨change, rfl⟩ := Option.isSome_iff_exists.mp hchange
    subst houtcome
    exact ⟨change, scheduler, hevent, htx, by decide +kernel⟩
  . obtain ⟨s, hrun, hall⟩ := hlate
    obtain ⟨t, ht, hle⟩ := of_decide_eq_true hall
    refine ⟨s, hrun, ?_⟩
    intro hsound
    exact absurd (hsound.timely t ht).time (Nat.not_lt.mpr hle)

end

end Transmitter
end Tdma
end Emane

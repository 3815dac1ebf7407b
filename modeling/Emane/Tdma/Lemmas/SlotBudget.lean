import Mathlib.Algebra.Order.Field.Rat
import Mathlib.Tactic.Positivity
import Emane.Tdma.Impl.SlotBudget
import Emane.Tdma.Lemmas.Frequencies

/-!
This module contains when an accepted event lets the scheduler or its user divide by zero, or lets
the number of bytes that a slot has room for become negative.
-/

namespace Emane
namespace Tdma

namespace Arithmetic

@[simp]
theorem defined_divide_iff (divisor : Nat) : Defined (.divide divisor) ↔ divisor ≠ 0 := by
  rfl

@[simp]
theorem result_div (n divisor : Nat)
    : (div n divisor).result = if divisor = 0 then none else some (n / divisor) := by
  unfold div
  split
  . rfl
  . rfl

@[simp]
theorem result_mod (n divisor : Nat)
    : (mod n divisor).result = if divisor = 0 then none else some (n % divisor) := by
  unfold mod
  split
  . rfl
  . rfl

@[simp]
theorem within_div_iff (n divisor : Nat) : (div n divisor).Within Defined ↔ divisor ≠ 0 := by
  unfold div
  split
  . simp
  . simp

@[simp]
theorem within_mod_iff (n divisor : Nat) : (mod n divisor).Within Defined ↔ divisor ≠ 0 := by
  unfold mod
  split
  . simp
  . simp

end Arithmetic

namespace Slotter

variable (s : Slotter)

@[simp]
theorem result_getAbsoluteIndex (time : TimePoint)
    : (getAbsoluteIndex.noted s time).result = s.getAbsoluteIndex time := by
  unfold getAbsoluteIndex.noted getAbsoluteIndex
  by_cases hsize : s.slotSizeMicroseconds = 0
  . simp [hsize]
  . by_cases hslots : s.slotsPerFrame = 0
    . simp [hslots]
    . by_cases hframes : s.framesPerMultiFrame = 0
      . simp [hframes]
      . simp [hsize, hslots, hframes]

@[simp]
theorem result_getRelativeIndex (slotIndex : Nat)
    : (getRelativeIndex.noted s slotIndex).result = s.getRelativeIndex slotIndex := by
  unfold getRelativeIndex.noted getRelativeIndex
  by_cases hslots : s.slotsPerFrame = 0
  . simp [hslots]
  . by_cases hframes : s.framesPerMultiFrame = 0
    . simp [hframes]
    . simp [hslots, hframes]

structure Usable : Prop where
  slotSizeMicroseconds : s.slotSizeMicroseconds ≠ 0
  slotsPerFrame : s.slotsPerFrame ≠ 0
  framesPerMultiFrame : s.framesPerMultiFrame ≠ 0

variable {s}

theorem within_getAbsoluteIndex_iff (time : TimePoint)
    : (getAbsoluteIndex.noted s time).Within Arithmetic.Defined ↔ s.Usable := by
  unfold getAbsoluteIndex.noted
  simp only [Attempt.within_bind_iff, Attempt.within_pure, Arithmetic.within_div_iff,
    Arithmetic.result_div]
  constructor
  . rintro ⟨hsize, hrest⟩
    rw [if_neg hsize] at hrest
    obtain ⟨hslots, hrest⟩ := hrest _ rfl
    rw [if_neg hslots] at hrest
    exact ⟨hsize, hslots, (hrest _ rfl).1⟩
  . rintro ⟨hsize, hslots, hframes⟩
    exact ⟨hsize, fun _ _ => ⟨hslots, fun _ _ => ⟨hframes, fun _ _ => trivial⟩⟩⟩

theorem Usable.within_getRelativeIndex (h : s.Usable) (slotIndex : Nat)
    : (getRelativeIndex.noted s slotIndex).Within Arithmetic.Defined := by
  unfold getRelativeIndex.noted
  simp only [Attempt.within_bind_iff, Attempt.within_pure, Arithmetic.within_div_iff,
    Arithmetic.within_mod_iff]
  exact ⟨h.slotsPerFrame,
    fun _ _ => ⟨h.slotsPerFrame, fun _ _ => ⟨h.framesPerMultiFrame, fun _ _ => trivial⟩⟩⟩

end Slotter

namespace EventScheduler

variable (s : EventScheduler)

@[simp]
theorem result_getSlotInfo (absoluteSlotIndex : Nat)
    : (getSlotInfo.noted s absoluteSlotIndex).result = s.getSlotInfo absoluteSlotIndex := by
  unfold getSlotInfo.noted getSlotInfo
  split
  . rfl
  . simp only [Attempt.result_bind, Attempt.result_pure, Attempt.result_ofOption,
      Slotter.result_getRelativeIndex]
    rfl

@[simp]
theorem result_getSlotInfoAt (time : TimePoint)
    : (getSlotInfoAt.noted s time).result = s.getSlotInfoAt time := by
  unfold getSlotInfoAt.noted getSlotInfoAt
  split
  . rfl
  . simp only [Attempt.result_bind, result_getSlotInfo, Slotter.result_getAbsoluteIndex]
    rfl

@[simp]
theorem result_getRxSlotInfo (time : TimePoint)
    : (getRxSlotInfo.noted s time).result = s.getRxSlotInfo time := by
  unfold getRxSlotInfo.noted getRxSlotInfo
  split
  . rfl
  . simp only [Attempt.result_bind, Attempt.result_pure, Attempt.result_ofOption,
      Slotter.result_getAbsoluteIndex,
      Slotter.result_getRelativeIndex]
    rfl

@[simp]
theorem result_requestTime (time : TimePoint)
    : (getTxSlotInfo.requestTime.noted s time).result = getTxSlotInfo.requestTime s time := by
  unfold getTxSlotInfo.requestTime.noted getTxSlotInfo.requestTime
  split
  . simp only [Attempt.result_bind, Attempt.result_ofOption, Slotter.result_getAbsoluteIndex]
    rfl
  . rfl

@[simp]
theorem result_getTxSlotInfo (time : TimePoint) (multiframes : Nat)
    : (getTxSlotInfo.noted s time multiframes).result = s.getTxSlotInfo time multiframes := by
  unfold getTxSlotInfo.noted getTxSlotInfo
  split
  . rfl
  . simp only [Attempt.result_bind, Attempt.result_pure, Attempt.result_ofOption,
      Slotter.result_getAbsoluteIndex,
      Slotter.result_getRelativeIndex, result_requestTime]
    rfl

variable {s}

theorem within_getSlotInfo (h : s.slotInfos ≠ [] → s.slotter.Usable) (absoluteSlotIndex : Nat)
    : (getSlotInfo.noted s absoluteSlotIndex).Within Arithmetic.Defined := by
  unfold getSlotInfo.noted
  split
  . exact Attempt.within_pure _ _
  . next hempty =>
    have husable := h (by simpa using hempty)
    simp only [Attempt.within_bind_iff, Attempt.within_pure, Attempt.within_ofOption]
    exact ⟨husable.within_getRelativeIndex absoluteSlotIndex, by simp⟩

theorem within_getSlotInfoAt (h : s.slotInfos ≠ [] → s.slotter.Usable) (time : TimePoint)
    : (getSlotInfoAt.noted s time).Within Arithmetic.Defined := by
  unfold getSlotInfoAt.noted
  split
  . exact Attempt.within_pure _ _
  . next hempty =>
    have husable := h (by simpa using hempty)
    rw [Attempt.within_bind_iff]
    exact ⟨(Slotter.within_getAbsoluteIndex_iff time).mpr husable,
      fun absolute _ => within_getSlotInfo h absolute.1⟩

theorem within_getRxSlotInfo (h : s.slotInfos ≠ [] → s.slotter.Usable) (time : TimePoint)
    : (getRxSlotInfo.noted s time).Within Arithmetic.Defined := by
  unfold getRxSlotInfo.noted
  split
  . exact Attempt.within_pure _ _
  . next hempty =>
    have husable := h (by simpa using hempty)
    simp only [Attempt.within_bind_iff, Attempt.within_pure, Attempt.within_ofOption]
    refine ⟨(Slotter.within_getAbsoluteIndex_iff time).mpr husable, ?_⟩
    intro absolute _
    exact ⟨husable.within_getRelativeIndex absolute.1, by simp⟩

theorem within_getTxSlotInfo (h : s.slotInfos ≠ [] → s.slotter.Usable) (time : TimePoint)
    (multiframes : Nat)
    : (getTxSlotInfo.noted s time multiframes).Within Arithmetic.Defined := by
  unfold getTxSlotInfo.noted
  split
  . exact Attempt.within_pure _ _
  . next hempty =>
    have husable := h (by simpa using hempty)
    have hrequest : (getTxSlotInfo.requestTime.noted s time).Within Arithmetic.Defined := by
      unfold getTxSlotInfo.requestTime.noted
      split
      . simpa only [Attempt.within_bind_iff, Attempt.within_ofOption, implies_true, and_true] using
          (Slotter.within_getAbsoluteIndex_iff time).mpr husable
      . exact Attempt.within_pure _ _
    simp only [Attempt.within_bind_iff, Attempt.within_pure, Attempt.within_ofOption]
    refine ⟨hrequest, ?_⟩
    intro requestTime _
    refine ⟨(Slotter.within_getAbsoluteIndex_iff requestTime).mpr husable, ?_⟩
    intro absolute _
    exact ⟨husable.within_getRelativeIndex absolute.1, by simp⟩

def Offers (slotInfos : List Events.SlotInfo) (dataRate : Nat) : Prop :=
  ∃ info ∈ slotInfos, info.type = .TX ∧ info.dataRate = dataRate

theorem offers_of_collect {slotter : Slotter} {slotInfos : List Events.SlotInfo}
    {fuel absoluteSlotIndex index : Nat}
    {txSlotInfos txSlotInfos' : Scheduler.TxSlotInfos} {absoluteSlotIndex' : Nat}
    (h : ∀ tx ∈ txSlotInfos, Offers slotInfos tx.dataRate)
    (hcollect : getTxSlotInfo.collect slotter slotInfos fuel absoluteSlotIndex index txSlotInfos
      = some (txSlotInfos', absoluteSlotIndex'))
    : ∀ tx ∈ txSlotInfos', Offers slotInfos tx.dataRate := by
  induction fuel generalizing absoluteSlotIndex index txSlotInfos with
  | zero => cases hcollect
  | succ fuel ih =>
    unfold getTxSlotInfo.collect at hcollect
    split at hcollect
    . next info hinfo =>
      split at hcollect
      . next htype =>
        simp only [Option.bind_eq_bind, Option.bind_eq_some_iff] at hcollect
        obtain ⟨time, -, hcollect⟩ := hcollect
        apply ih _ hcollect
        rw [List.forall_mem_append, List.forall_mem_singleton]
        exact ⟨h, info, List.mem_of_getElem? hinfo, htype, rfl⟩
      . exact ih h hcollect
    . simp only [Option.some.injEq, Prod.mk.injEq] at hcollect
      exact hcollect.1 ▸ h

theorem offers_of_collectAll {slotter : Slotter} {slotInfos : List Events.SlotInfo}
    {multiframes absoluteSlotIndex index : Nat}
    {txSlotInfos txSlotInfos' : Scheduler.TxSlotInfos}
    (h : ∀ tx ∈ txSlotInfos, Offers slotInfos tx.dataRate)
    (hcollect : getTxSlotInfo.collectAll slotter slotInfos multiframes absoluteSlotIndex index
      txSlotInfos = some txSlotInfos')
    : ∀ tx ∈ txSlotInfos', Offers slotInfos tx.dataRate := by
  induction multiframes generalizing absoluteSlotIndex index txSlotInfos with
  | zero =>
    cases hcollect
    exact h
  | succ multiframes ih =>
    unfold getTxSlotInfo.collectAll at hcollect
    simp only [Option.bind_eq_bind, Option.bind_eq_some_iff] at hcollect
    obtain ⟨⟨txSlotInfos'', absoluteSlotIndex'⟩, hfirst, hcollect⟩ := hcollect
    exact ih (offers_of_collect h hfirst) hcollect

theorem offers_of_getTxSlotInfo {s s' : EventScheduler} {time nextTime : TimePoint} {multiframes : Nat}
    {txSlotInfos : Scheduler.TxSlotInfos}
    (h : s.getTxSlotInfo time multiframes = some ((txSlotInfos, nextTime), s'))
    : ∀ tx ∈ txSlotInfos, Offers s.slotInfos tx.dataRate := by
  unfold getTxSlotInfo at h
  split at h
  . simp only [Option.some.injEq, Prod.mk.injEq] at h
    rw [← h.1.1]
    simp
  . simp only [Option.bind_eq_bind, Option.bind_eq_some_iff, Option.pure_def, Option.some.injEq,
      Prod.mk.injEq] at h
    obtain ⟨requestTime, -, absolute, -, relative, -, txSlotInfos', hcollect, nextTime', -,
      ⟨rfl, -⟩, -⟩ := h
    exact offers_of_collectAll (by simp) hcollect

theorem scheduler_of_getTxSlotInfo {s s' : EventScheduler} {time : TimePoint} {multiframes : Nat}
    {answer : Scheduler.TxSlotInfos × TimePoint}
    (h : s.getTxSlotInfo time multiframes = some (answer, s'))
    : ∃ waiting, s' = { s with waitingFirstTxSlotInfoRequest := waiting } := by
  unfold getTxSlotInfo at h
  split at h
  . simp only [Option.some.injEq, Prod.mk.injEq] at h
    exact ⟨_, h.2.symm⟩
  . simp only [Option.bind_eq_bind, Option.bind_eq_some_iff, Option.pure_def, Option.some.injEq,
      Prod.mk.injEq] at h
    obtain ⟨requestTime, -, absolute, -, relative, -, txSlotInfos, -, nextTime, -, -, hscheduler⟩ := h
    exact ⟨false, hscheduler.symm⟩

end EventScheduler

namespace SchedulerUser

open Events.TDMAScheduleEvent (Message)
open EventScheduler (Offers Accepts Results standing Cleared Stored)

def Possible (s : SchedulerUser) : Call → Prop
  | .sendDownstreamPacket tx _ => Offers s.scheduler.slotInfos tx.dataRate
  | _ => True

def Safe (bytes : Nat → Nat → Nat → Nat) (s : SchedulerUser) : Prop :=
  ∀ call, s.Possible call → (s.noted bytes call).Within Arithmetic.Defined

theorem result_sendDownstreamPacket (bytes : Nat → Nat → Nat → Nat) (s : SchedulerUser)
    (slot : Scheduler.TxSlotInfo)
    (model : BaseModel)
    : (sendDownstreamPacket.noted bytes s slot model).result
        = s.sendDownstreamPacket bytes slot model := by
  unfold sendDownstreamPacket.noted sendDownstreamPacket BaseModel.sendDownstreamPacket txSlotInfo
  simp only [Attempt.result_bind, Attempt.result_note, Attempt.result_ofOption, Option.bind_some]
  apply Option.bind_congr
  rintro ⟨d, queueManager⟩ -
  split
  . rfl
  . rfl

theorem result_noted (bytes : Nat → Nat → Nat → Nat) (s : SchedulerUser) (call : Call)
    : (s.noted bytes call).result = s.answer bytes call := by
  cases call with
  | getSlotInfo absoluteSlotIndex => simp [noted, answer]
  | getSlotInfoAt time => simp [noted, answer]
  | getRxSlotInfo time => simp [noted, answer]
  | getTxSlotInfo time multiframes => simp [noted, answer]
  | sendDownstreamPacket slot model => simp [noted, answer, result_sendDownstreamPacket]

def Affords (slotStructure : Events.SlotStructure) (dataRate : Nat) : Prop :=
  -2^63 ≤ count slotStructure.slotDuration - count slotStructure.slotOverhead
    ∧ count slotStructure.slotDuration - count slotStructure.slotOverhead < 2^63
    ∧ (dataRate = 0 ∨ 0 ≤ count slotStructure.slotDuration - count slotStructure.slotOverhead)

instance Affords.decidable (slotStructure : Events.SlotStructure) (dataRate : Nat)
    : Decidable (Affords slotStructure dataRate) :=
  inferInstanceAs (Decidable (_ ∧ _))

structure Informed (s : SchedulerUser) : Prop where
  slotDuration : s.slotDuration = s.scheduler.slotStructure.slotDuration
  slotOverhead : s.slotOverhead = s.scheduler.slotStructure.slotOverhead
  stored : Cleared s.scheduler ∨ Stored s.scheduler.Small s.scheduler

theorem informed_init : Informed {} :=
  ⟨rfl, rfl, Or.inl ⟨rfl, rfl, rfl, rfl⟩⟩

variable {s s' : SchedulerUser} {msg : Option Message} {event : Event}

theorem step_schedule_eq_some (h : s.step (.schedule msg) = some s')
    : ∃ outcome change,
        s.scheduler.processEvent msg = some (outcome, change, s'.scheduler)
          ∧ (change = none ∧ s'.slotDuration = s.slotDuration ∧ s'.slotOverhead = s.slotOverhead
          ∨ ∃ change', change = some change' ∧ s'.slotDuration = change'.slotDuration
              ∧ s'.slotOverhead = change'.slotOverhead) := by
  unfold step at h
  rw [Option.bind_eq_bind, Option.bind_eq_some_iff] at h
  obtain ⟨⟨outcome, change, scheduler⟩, hprocess, h⟩ := h
  cases change with
  | none =>
    cases h
    exact ⟨outcome, none, hprocess, Or.inl ⟨rfl, rfl, rfl⟩⟩
  | some change =>
    cases h
    exact ⟨outcome, some change, hprocess, Or.inr ⟨change, rfl, rfl, rfl⟩⟩

theorem step_txSlotInfoRequest_eq_some {time : TimePoint} {multiframes : Nat}
    (h : s.step (.txSlotInfoRequest time multiframes) = some s')
    : ∃ waiting, s' = { s with scheduler :=
        { s.scheduler with waitingFirstTxSlotInfoRequest := waiting } } := by
  simp only [step, Option.bind_eq_bind, Option.bind_eq_some_iff] at h
  obtain ⟨⟨answer, scheduler⟩, hrequest, h⟩ := h
  cases h
  obtain ⟨waiting, rfl⟩ := EventScheduler.scheduler_of_getTxSlotInfo hrequest
  exact ⟨waiting, rfl⟩

theorem Informed.schedule (h : s.Informed) (hstep : s.step (.schedule msg) = some s')
    : s'.Informed := by
  obtain ⟨outcome, change, hprocess, hchange⟩ := step_schedule_eq_some hstep
  have hstored := EventScheduler.cleared_or_stored h.stored
    (EventScheduler.Effect.of_processEvent hprocess)
  rcases EventScheduler.change_of_processEvent hprocess with ⟨rfl, hscheduler⟩ | rfl
  . rcases hchange with ⟨-, hduration, hoverhead⟩ | ⟨_, hnone, -⟩
    . refine ⟨?_, ?_, hstored⟩
      . rw [hduration, hscheduler, h.slotDuration]
      . rw [hoverhead, hscheduler, h.slotOverhead]
    . cases hnone
  . rcases hchange with ⟨hsome, -⟩ | ⟨_, hsome, hduration, hoverhead⟩
    . cases hsome
    . cases hsome
      exact ⟨hduration, hoverhead, hstored⟩

theorem Informed.request (h : s.Informed) (waiting : Bool)
    : Informed { s with scheduler := { s.scheduler with waitingFirstTxSlotInfoRequest := waiting } } := by
  refine ⟨h.slotDuration, h.slotOverhead, ?_⟩
  cases h.stored with
  | inl hcleared => exact Or.inl ⟨hcleared.slotInfos, hcleared.slotStructure, hcleared.frequencies,
    hcleared.slotter⟩
  | inr hstored => exact Or.inr ⟨hstored.length, hstored.addressed, hstored.slotter⟩

theorem Informed.step (h : s.Informed) (hstep : s.step event = some s') : s'.Informed := by
  cases event with
  | schedule msg => exact h.schedule hstep
  | txSlotInfoRequest time multiframes =>
    obtain ⟨waiting, rfl⟩ := step_txSlotInfoRequest_eq_some hstep
    exact h.request waiting

theorem Informed.slotInfos_eq_nil_iff (h : s.Informed)
    : s.scheduler.slotInfos = []
        ↔
      s.scheduler.slotStructure.framesPerMultiFrame = 0
          ∨ s.scheduler.slotStructure.slotsPerFrame = 0 := by
  cases h.stored with
  | inl hcleared =>
    rw [hcleared.slotInfos, hcleared.slotStructure]
    simp
  | inr hstored => rw [← List.length_eq_zero_iff, hstored.length, Nat.mul_eq_zero]

theorem Informed.slotter (h : s.Informed)
    : s.scheduler.slotter
        =
      ⟨s.scheduler.slotStructure.slotDuration, s.scheduler.slotStructure.slotsPerFrame,
        s.scheduler.slotStructure.framesPerMultiFrame⟩ := by
  cases h.stored with
  | inl hcleared => rw [hcleared.slotter, hcleared.slotStructure]
  | inr hstored => exact hstored.slotter

theorem Informed.affords_iff (h : s.Informed) (dataRate : Nat)
    : Arithmetic.Defined (.budget (s.budget dataRate)) ↔ Affords s.scheduler.slotStructure dataRate := by
  unfold Arithmetic.Defined budget Affords
  rw [h.slotDuration, h.slotOverhead]
  generalize count s.scheduler.slotStructure.slotDuration
    - count s.scheduler.slotStructure.slotOverhead = duration
  simp only
  split
  . next hfits =>
    simp only [Option.some.injEq, exists_eq_left', hfits.1, hfits.2, true_and]
    constructor
    . intro hle
      cases Nat.eq_zero_or_pos dataRate with
      | inl hzero => exact Or.inl hzero
      | inr hpos =>
        have hrate : (0 : ℚ) < dataRate := Nat.cast_pos.mpr hpos
        have hproduct : 0 ≤ (duration / 1000000 : ℚ) * dataRate := by linarith
        have hquotient : 0 ≤ (duration / 1000000 : ℚ) := nonneg_of_mul_nonneg_left hproduct hrate
        have hcount : (0 : ℚ) ≤ duration := by linarith
        exact Or.inr (Int.cast_nonneg_iff.mp hcount)
    . rintro (rfl | hle)
      . simp
      . positivity
  . next hfits =>
    simp only [reduceCtorEq, false_and, exists_false, false_iff]
    exact fun h => hfits ⟨h.1, h.2.1⟩

theorem Informed.usable_iff (h : s.Informed) (hnonempty : s.scheduler.slotInfos ≠ [])
    : s.scheduler.slotter.Usable ↔ s.scheduler.slotStructure.slotDuration ≠ 0 := by
  have hslots := mt h.slotInfos_eq_nil_iff.mpr hnonempty
  rw [not_or] at hslots
  rw [h.slotter]
  exact ⟨fun husable => husable.slotSizeMicroseconds, fun hduration => ⟨hduration, hslots.2, hslots.1⟩⟩

variable {bytes : Nat → Nat → Nat → Nat}

theorem Informed.within_sendDownstreamPacket (h : s.Informed) (slot : Scheduler.TxSlotInfo)
    (model : BaseModel)
    (hbytes : ∀ slotDuration slotOverhead, bytes slotDuration slotOverhead 0 = 0)
    (haffords : Affords s.scheduler.slotStructure slot.dataRate)
    : (sendDownstreamPacket.noted bytes s slot model).Within Arithmetic.Defined := by
  unfold sendDownstreamPacket.noted
  simp only [Attempt.within_bind_iff, Attempt.within_note_iff, Attempt.within_ofOption,
    Arithmetic.defined_divide_iff]
  refine ⟨by decide, fun _ _ => ⟨by decide, fun _ _ => ⟨(h.affords_iff slot.dataRate).mpr haffords, ?_⟩⟩⟩
  refine fun _ _ => ⟨trivial, ?_⟩
  rintro ⟨d, queueManager⟩ -
  split
  . next hfits =>
    -- without a data rate there is no room, so nothing is sent
    have hrate : slot.dataRate ≠ 0 := by
      intro hzero
      rw [hzero, hbytes] at hfits
      simp only [ne_eq, Nat.le_zero, Bool.and_eq_true, decide_eq_true_eq] at hfits
      exact hfits.1 hfits.2
    rw [Attempt.within_bind_iff, Attempt.within_note_iff, Arithmetic.defined_divide_iff]
    exact ⟨hrate, fun _ _ => Attempt.within_pure _ _⟩
  . exact Attempt.within_pure _ _

theorem affords_of_safe (h : s.Informed) (hsafe : s.Safe bytes) {info : Events.SlotInfo}
    (hinfo : info ∈ s.scheduler.slotInfos)
    (htype : info.type = .TX)
    : Affords s.scheduler.slotStructure info.dataRate := by
  have hsend := hsafe (.sendDownstreamPacket ⟨0, 0, 0, 0, 0, 0, info.dataRate, 0, 0, 0⟩
    (.configure 0 SortedMap.empty false ⟨0, false, false, false, id⟩)) ⟨info, hinfo, htype, rfl⟩
  simp only [noted, sendDownstreamPacket.noted, Attempt.within_map_iff, Attempt.within_bind_iff,
    Attempt.within_note_iff] at hsend
  exact (h.affords_iff info.dataRate).mp ((hsend.2 _ rfl).2 _ rfl).1

theorem Informed.safe_iff (h : s.Informed)
    (hbytes : ∀ slotDuration slotOverhead, bytes slotDuration slotOverhead 0 = 0)
    : s.Safe bytes
        ↔
      (s.scheduler.slotInfos ≠ [] → s.scheduler.slotStructure.slotDuration ≠ 0)
        ∧ ∀ info ∈ s.scheduler.slotInfos, info.type = .TX
            → Affords s.scheduler.slotStructure info.dataRate := by
  constructor
  . intro hsafe
    constructor
    . intro hnonempty
      have hlookup := hsafe (.getSlotInfoAt 0) trivial
      rw [noted, Attempt.within_map_iff, EventScheduler.getSlotInfoAt.noted,
        if_neg (by simpa using hnonempty),
        Attempt.within_bind_iff] at hlookup
      exact (h.usable_iff hnonempty).mp ((Slotter.within_getAbsoluteIndex_iff 0).mp hlookup.1)
    . exact fun info hinfo htype => affords_of_safe h hsafe hinfo htype
  . rintro ⟨hduration, haffords⟩
    have husable : s.scheduler.slotInfos ≠ [] → s.scheduler.slotter.Usable :=
      fun hnonempty => (h.usable_iff hnonempty).mpr (hduration hnonempty)
    intro call hpossible
    cases call with
    | getSlotInfo absoluteSlotIndex =>
      exact (Attempt.within_map_iff _ _ _).mpr
        (EventScheduler.within_getSlotInfo husable absoluteSlotIndex)
    | getSlotInfoAt time =>
      exact (Attempt.within_map_iff _ _ _).mpr (EventScheduler.within_getSlotInfoAt husable time)
    | getRxSlotInfo time =>
      exact (Attempt.within_map_iff _ _ _).mpr (EventScheduler.within_getRxSlotInfo husable time)
    | getTxSlotInfo time multiframes =>
      exact (Attempt.within_map_iff _ _ _).mpr
        (EventScheduler.within_getTxSlotInfo husable time multiframes)
    | sendDownstreamPacket slot model =>
      obtain ⟨info, hinfo, htype, hrate⟩ := hpossible
      exact (Attempt.within_map_iff _ _ _).mpr
        (h.within_sendDownstreamPacket slot model hbytes (hrate ▸ haffords info hinfo htype))

/--
An event that is accepted gives slots a duration if there are any, and does not transmit in a slot
that is used up by its overhead.
-/
def AdmitsMessage (s : SchedulerUser) (msg : Option Message) : Prop :=
  ∀ m ∈ msg, s.scheduler.Accepted m →
    ((s.scheduler.structureOf m).framesPerMultiFrame ≠ 0 → (s.scheduler.structureOf m).slotsPerFrame ≠ 0 →
      (s.scheduler.structureOf m).slotDuration ≠ 0)
      ∧ ∀ info ∈ standing (s.scheduler.structureOf m) m.mentions, info.type = .TX →
      Affords (s.scheduler.structureOf m) info.dataRate

instance AdmitsMessage.decidable (s : SchedulerUser) (msg : Option Message)
    : Decidable (s.AdmitsMessage msg) :=
  Option.decidableForallMem msg

def Admits (s : SchedulerUser) : Event → Prop
  | .schedule msg => s.AdmitsMessage msg
  | .txSlotInfoRequest _ _ => True

instance Admits.decidable (s : SchedulerUser) : (event : Event) → Decidable (s.Admits event)
  | .schedule msg => AdmitsMessage.decidable s msg
  | .txSlotInfoRequest _ _ => isTrue trivial

theorem type_of_mem_idleSchedule {framesPerMultiFrame slotsPerFrame : Nat} {info : Events.SlotInfo}
    (h : info ∈ Events.TDMAScheduleEvent.idleSchedule framesPerMultiFrame slotsPerFrame)
    : info.type = .IDLE := by
  unfold Events.TDMAScheduleEvent.idleSchedule at h
  rw [List.mem_flatMap] at h
  obtain ⟨i, -, hi⟩ := h
  rw [List.mem_map] at hi
  obtain ⟨j, -, rfl⟩ := hi
  rfl

theorem safe_iff_of_accepts {m : Message} {change : Option Scheduler.ScheduleChange} (h : s.Informed)
    (h' : s'.Informed) (hbytes : ∀ slotDuration slotOverhead, bytes slotDuration slotOverhead 0 = 0)
    (hsafe : s.Safe bytes) (haccepted : s.scheduler.Accepted m)
    (haccepts : Accepts s.scheduler m change s'.scheduler)
    : s'.Safe bytes ↔ s.AdmitsMessage (some m) := by
  obtain ⟨hduration, haffords⟩ := (h.safe_iff hbytes).mp hsafe
  rw [h'.safe_iff hbytes, Ne, h'.slotInfos_eq_nil_iff, haccepts.slotStructure]
  simp only [haccepts.mem_slotInfos_iff]
  have hslots : (¬ ((s.scheduler.structureOf m).framesPerMultiFrame = 0
    ∨ (s.scheduler.structureOf m).slotsPerFrame = 0) →
      (s.scheduler.structureOf m).slotDuration ≠ 0)
      ↔ ((s.scheduler.structureOf m).framesPerMultiFrame ≠ 0
        → (s.scheduler.structureOf m).slotsPerFrame ≠ 0 →
      (s.scheduler.structureOf m).slotDuration ≠ 0) := by
    rw [not_or, and_imp]
  have hothers : ∀ info (i : Nat), (s.scheduler.tableOf m)[i]? = some info → info.type = .TX →
      Affords (s.scheduler.structureOf m) info.dataRate := by
    intro info i hi htype
    have hmem := List.mem_of_getElem? hi
    unfold EventScheduler.tableOf at hmem
    unfold EventScheduler.structureOf
    cases hstructure : m.slotStructure with
    | some slotStructure =>
      rw [hstructure] at hmem
      rw [type_of_mem_idleSchedule hmem] at htype
      cases htype
    | none =>
      rw [hstructure] at hmem
      exact haffords info hmem htype
  simp only [AdmitsMessage, Option.mem_def, Option.some.injEq, forall_eq', haccepted, forall_const]
  apply and_congr hslots
  constructor
  . exact fun hall info hinfo htype => hall info (Or.inl hinfo) htype
  . rintro hall info (hinfo | ⟨i, hi, -⟩) htype
    . exact hall info hinfo htype
    . exact hothers info i hi htype

theorem safe_of_cleared (h : s.Informed) (hcleared : Cleared s.scheduler)
    (hbytes : ∀ slotDuration slotOverhead, bytes slotDuration slotOverhead 0 = 0)
    : s.Safe bytes := by
  rw [h.safe_iff hbytes, hcleared.slotInfos]
  simp

theorem safe_schedule_iff (h : s.Informed)
    (hbytes : ∀ slotDuration slotOverhead, bytes slotDuration slotOverhead 0 = 0) (hsafe : s.Safe bytes)
    (hstep : s.step (.schedule msg) = some s')
    : s'.Safe bytes ↔ s.AdmitsMessage msg := by
  have h' := h.schedule hstep
  obtain ⟨outcome, change, hprocess, hchange⟩ := step_schedule_eq_some hstep
  rcases EventScheduler.accepts_or_not hprocess with ⟨m, rfl, haccepted, haccepts⟩ | ⟨hnot, hrest⟩
  . exact safe_iff_of_accepts h h' hbytes hsafe haccepted haccepts
  . have hadmits : s.AdmitsMessage msg := fun m hmsg haccepted => absurd haccepted (hnot m hmsg)
    refine iff_of_true ?_ hadmits
    rcases hrest with ⟨heq, -⟩ | ⟨hcleared, -⟩
    . rw [h'.safe_iff hbytes, heq]
      exact (h.safe_iff hbytes).mp hsafe
    . exact safe_of_cleared h' hcleared hbytes

theorem safe_step_iff (h : s.Informed)
    (hbytes : ∀ slotDuration slotOverhead, bytes slotDuration slotOverhead 0 = 0) (hsafe : s.Safe bytes)
    (hstep : s.step event = some s')
    : s'.Safe bytes ↔ s.Admits event := by
  cases event with
  | schedule msg => exact safe_schedule_iff h hbytes hsafe hstep
  | txSlotInfoRequest time multiframes =>
    have h' := h.step hstep
    obtain ⟨waiting, rfl⟩ := step_txSlotInfoRequest_eq_some hstep
    refine iff_of_true ?_ trivial
    rw [h'.safe_iff hbytes]
    exact (h.safe_iff hbytes).mp hsafe

/--
Nothing is ever divided by zero and no number of bytes is negative, whatever is called after
whatever event of the run, if and only if all events that are accepted are admitted.
-/
theorem safe_iff_guarded {bytes : Nat → Nat → Nat → Nat}
    (hbytes : ∀ slotDuration slotOverhead, bytes slotDuration slotOverhead 0 = 0)
    {events : List Event} {s : SchedulerUser}
    (hrun : run step {} events = some s)
    : ((∀ events₁ events₂ t, events = events₁ ++ events₂ → run step {} events₁ = some t → t.Safe bytes)
        ↔
      Guarded step Admits {} events)
        ∧ (∀ (t : SchedulerUser) call, (t.noted bytes call).result = t.answer bytes call)
        ∧ ∀ (t : SchedulerUser) time multiframes slotInfos nextTime scheduler,
          t.answer bytes (.getTxSlotInfo time multiframes) = some
            (.txSlotInfos slotInfos nextTime scheduler)
            →
          ∀ slot ∈ slotInfos, ∀ model, t.Possible (.sendDownstreamPacket slot model) := by
  refine ⟨?_, result_noted bytes, ?_⟩
  . apply @run_always_iff _ _ step Admits Informed (Safe bytes) _ _ _ _ _ informed_init _ hrun
    . exact fun s event s' h hstep => h.step hstep
    . exact fun s event s' h hsafe hstep => safe_step_iff h hbytes hsafe hstep
    . exact safe_of_cleared informed_init ⟨rfl, rfl, rfl, rfl⟩ hbytes
  . intro t time multiframes slotInfos nextTime scheduler hanswer slot hslot model
    unfold answer at hanswer
    rw [Option.map_eq_some_iff] at hanswer
    obtain ⟨⟨⟨slotInfos', nextTime'⟩, scheduler'⟩, hget, heq⟩ := hanswer
    cases heq
    exact EventScheduler.offers_of_getTxSlotInfo hget slot hslot

theorem safe_iff_guarded_example
    : ∃ s,
        run step {} [
          .schedule (some {
            slotStructure := some ⟨1, 1, 2, 1000, 200⟩
            frequencyHz := some 5, dataRatebps := some 1000000, serviceClass := some 0, powerdBm := some 0
            frames := [{ index := 0, slots := [{ index := 0, type := .TX }] }]
          }),
          .txSlotInfoRequest 0 1,
          .schedule (some {
            frequencyHz := some 5, dataRatebps := some 0, serviceClass := some 0, powerdBm := some 0
            frames := [{ index := 0, slots := [{ index := 1, type := .TX }] }]
          })
        ] = some s
          ∧ s.Safe (fun slotDuration slotOverhead dataRate => (slotDuration - slotOverhead)
              * dataRate / 8000000) := by
  refine ⟨_, rfl, ?_⟩
  have hguarded : Guarded step Admits {} [
      .schedule (some {
        slotStructure := some ⟨1, 1, 2, 1000, 200⟩
        frequencyHz := some 5, dataRatebps := some 1000000, serviceClass := some 0, powerdBm := some 0
        frames := [{ index := 0, slots := [{ index := 0, type := .TX }] }]
      }),
      .txSlotInfoRequest 0 1,
      .schedule (some {
        frequencyHz := some 5, dataRatebps := some 0, serviceClass := some 0, powerdBm := some 0
        frames := [{ index := 0, slots := [{ index := 1, type := .TX }] }]
      })] := by
    decide
  exact (safe_iff_guarded (by simp) rfl).1.mpr hguarded _ [] _ (List.append_nil _).symm rfl

theorem not_safe
    : ¬ ∀ bytes events s,
        (∀ slotDuration slotOverhead, bytes slotDuration slotOverhead 0 = 0)
          →
        run step {} events = some s
          →
        s.Safe bytes := by
  intro h
  have hsafe := h (fun _ _ _ => 0) [.schedule (some {
    slotStructure := some ⟨1, 1, 1, 0, 0⟩
    frames := [{ index := 0, frequencyHz := some 5 }]
  })] _ (by simp) rfl
  have hlookup := hsafe (.getSlotInfoAt 0) trivial (.divide 0) (by decide)
  exact hlookup rfl

end SchedulerUser
end Tdma
end Emane

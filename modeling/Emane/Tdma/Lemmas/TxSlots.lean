import Emane.Tdma.Lemmas.EventScheduler

/-!
This module contains the enumeration of the transmit slots: the requests of a user, one after
another, get every slot to transmit in from the first multiframe on, in order and each of them
once.
-/

namespace Emane
namespace Tdma

namespace Slotter

theorem timePoint_of_lt {microseconds : Nat} (h : microseconds * 1000 < 2^63)
    : timePoint microseconds = some (microseconds * 1000 : Int) := by
  have hbmod : (microseconds : Int).bmod (2^64) = microseconds := Int.bmod_eq_of_le (by omega) (by omega)
  unfold timePoint
  simp only [hbmod]
  rw [if_pos (by omega)]

theorem timePoint_lt {microseconds : Nat} {time : TimePoint}
    (h : timePoint microseconds = some time) : time < 2^63 := by
  unfold timePoint at h
  simp only at h
  split at h
  . next hfits =>
    obtain rfl := Option.some.inj h
    exact hfits.2
  . simp at h

variable {s : Slotter}

theorem getAbsoluteIndex_of_lt (hsize : 0 < s.slotSizeMicroseconds) (hslots : 0 < s.slotsPerFrame)
    (hframes : 0 < s.framesPerMultiFrame) {time : Nat} (h : time < 2^63)
    : s.getAbsoluteIndex time
        =
      some (
        time / 1000 / s.slotSizeMicroseconds,
        time / 1000 / s.slotSizeMicroseconds / s.slotsPerFrame,
        time / 1000 / s.slotSizeMicroseconds / s.slotsPerFrame / s.framesPerMultiFrame
      ) := by
  have hcount : ((time : Int).tdiv 1000 % 2^64).toNat = time / 1000 := by
    have htdiv : (time : Int).tdiv 1000 = (time / 1000 : Nat) := by
      rw [Int.tdiv_eq_ediv_of_nonneg (by omega)]
      omega
    omega
  unfold getAbsoluteIndex
  simp only [hcount]
  rw [if_neg (by omega)]

theorem getRelativeIndex_of_pos (hslots : 0 < s.slotsPerFrame) (hframes : 0 < s.framesPerMultiFrame)
    (slotIndex : Nat)
    : s.getRelativeIndex slotIndex
        =
      some (slotIndex % s.slotsPerFrame, slotIndex / s.slotsPerFrame % s.framesPerMultiFrame) := by
  unfold getRelativeIndex
  rw [if_neg (by omega)]

end Slotter

namespace EventScheduler

def slotsPerMultiFrame (s : EventScheduler) : Nat :=
  s.slotStructure.framesPerMultiFrame * s.slotStructure.slotsPerFrame

def multiFrameTime (s : EventScheduler) (multiFrameIndex : Nat) : Nat :=
  multiFrameIndex * s.slotsPerMultiFrame * s.slotStructure.slotDuration * 1000

def slotTime (s : EventScheduler) (absoluteSlotIndex : Nat) : Nat :=
  absoluteSlotIndex * s.slotStructure.slotDuration * 1000

def txSlot (s : EventScheduler) (absoluteSlotIndex : Nat) : Option Scheduler.TxSlotInfo :=
  match s.slotInfos[absoluteSlotIndex % s.slotsPerMultiFrame]? with
  | some info =>
    if info.type = .TX then
      some {
        absoluteSlotIndex := absoluteSlotIndex
        relativeIndex := absoluteSlotIndex % s.slotsPerMultiFrame
        relativeSlotIndex := info.slotIndex
        relativeFrameIndex := info.frameIndex
        timePoint := s.slotTime absoluteSlotIndex
        frequency := info.frequency
        dataRate := info.dataRate
        queueId := info.serviceClass
        power := info.power
        destination := info.destination
      }
    else
      none
  | none => none

def txSlots (s : EventScheduler) (first count : Nat) : Scheduler.TxSlotInfos :=
  (List.range' first count).filterMap s.txSlot

theorem txSlots_append (s : EventScheduler) (first count count' : Nat)
    : s.txSlots first (count + count') = s.txSlots first count ++ s.txSlots (first + count) count' := by
  unfold txSlots
  rw [← List.filterMap_append, List.range'_append_1]

theorem txSlots_succ (s : EventScheduler) (first count : Nat)
    : s.txSlots first (count + 1) = (s.txSlot first).toList ++ s.txSlots (first + 1) count := by
  unfold txSlots
  rw [List.range'_succ, List.filterMap_cons]
  cases s.txSlot first with
  | none => rfl
  | some tx => rfl

variable {a : Nat}

theorem slotTime_le (s : EventScheduler) {b : Nat} (hle : a ≤ b) : s.slotTime a ≤ s.slotTime b := by
  exact Nat.mul_le_mul_right _ (Nat.mul_le_mul_right _ hle)

theorem slotTime_mul (s : EventScheduler) (multiFrameIndex : Nat)
    : s.slotTime (multiFrameIndex * s.slotsPerMultiFrame) = s.multiFrameTime multiFrameIndex := by
  rfl

theorem multiFrameTime_le (s : EventScheduler) {b : Nat} (hle : a ≤ b)
    : s.multiFrameTime a ≤ s.multiFrameTime b := by
  exact slotTime_le s (Nat.mul_le_mul_right _ hle)

structure Usable (s : EventScheduler) : Prop where
  stored : Stored s.Small s
  slots : 0 < s.slotsPerMultiFrame
  duration : 0 < s.slotStructure.slotDuration

namespace Usable

variable {s : EventScheduler}

theorem slotsPerFrame_pos (h : s.Usable) : 0 < s.slotStructure.slotsPerFrame :=
  Nat.pos_of_mul_pos_left h.slots

theorem framesPerMultiFrame_pos (h : s.Usable) : 0 < s.slotStructure.framesPerMultiFrame :=
  Nat.pos_of_mul_pos_right h.slots

theorem slotInfos_ne_nil (h : s.Usable) : s.slotInfos ≠ [] := by
  have hslots := h.slots
  unfold slotsPerMultiFrame at hslots
  rw [← h.stored.length] at hslots
  exact List.length_pos_iff.mp hslots

theorem getSlotTime_eq (h : s.Usable) {absoluteSlotIndex : Nat}
    (hlt : s.slotTime absoluteSlotIndex < 2^63)
    : s.slotter.getSlotTime absoluteSlotIndex = some (s.slotTime absoluteSlotIndex : Int) := by
  unfold Slotter.getSlotTime
  rw [h.stored.slotter]
  unfold slotTime at hlt ⊢
  rw [Slotter.timePoint_of_lt hlt]
  simp

variable {multiFrameIndex : Nat}

theorem getMultiFrameTime_eq (h : s.Usable) (hlt : s.multiFrameTime multiFrameIndex < 2^63)
    : s.slotter.getMultiFrameTime multiFrameIndex = some (s.multiFrameTime multiFrameIndex : Int) := by
  unfold Slotter.getMultiFrameTime
  rw [h.stored.slotter]
  unfold multiFrameTime slotsPerMultiFrame at hlt ⊢
  rw [← Nat.mul_assoc multiFrameIndex] at hlt ⊢
  rw [Slotter.timePoint_of_lt hlt]
  simp

theorem le_slotTime (h : s.Usable) (absoluteSlotIndex : Nat)
    : absoluteSlotIndex * 1000 ≤ s.slotTime absoluteSlotIndex := by
  exact Nat.mul_le_mul_right _ (Nat.le_mul_of_pos_right _ h.duration)

theorem collect_eq (h : s.Usable) (hsmall : s.slotsPerMultiFrame < 2^32)
    (hlt : s.multiFrameTime (multiFrameIndex + 1) < 2^63) {count index fuel : Nat}
    (hcount : index + count = s.slotsPerMultiFrame) (hfuel : count < fuel)
    (txSlotInfos : Scheduler.TxSlotInfos)
    : getTxSlotInfo.collect s.slotter s.slotInfos fuel
        (multiFrameIndex * s.slotsPerMultiFrame + index) index txSlotInfos
        =
      some (
        txSlotInfos ++ s.txSlots (multiFrameIndex * s.slotsPerMultiFrame + index) count,
        (multiFrameIndex + 1) * s.slotsPerMultiFrame
      ) := by
  induction count generalizing index fuel txSlotInfos with
  | zero =>
    obtain ⟨fuel, rfl⟩ : ∃ n, fuel = n + 1 := ⟨fuel - 1, by omega⟩
    have hnone : s.slotInfos[index]? = none := by
      rw [List.getElem?_eq_none_iff, h.stored.length]
      unfold slotsPerMultiFrame at hcount
      omega
    unfold getTxSlotInfo.collect
    rw [hnone]
    simp only [txSlots, List.range'_zero, List.filterMap_nil, List.append_nil, Nat.add_mul, Nat.one_mul]
    rw [← hcount, Nat.add_zero]
  | succ count ih =>
    obtain ⟨fuel, rfl⟩ : ∃ n, fuel = n + 1 := ⟨fuel - 1, by omega⟩
    have hlast : multiFrameIndex * s.slotsPerMultiFrame + index + 1
        ≤ (multiFrameIndex + 1) * s.slotsPerMultiFrame := by
      rw [Nat.add_mul]
      omega
    have htime : s.slotTime (multiFrameIndex * s.slotsPerMultiFrame + index) < 2^63 := by
      have hle := slotTime_le s (Nat.le_of_succ_le hlast)
      rw [slotTime_mul] at hle
      omega
    have hwrap : (multiFrameIndex * s.slotsPerMultiFrame + index + 1) % 2^64
        = multiFrameIndex * s.slotsPerMultiFrame + (index + 1) := by
      have hle := h.le_slotTime (multiFrameIndex * s.slotsPerMultiFrame + index)
      rw [Nat.mod_eq_of_lt (by omega), Nat.add_assoc]
    have hindex : (index + 1) % 2^32 = index + 1 := Nat.mod_eq_of_lt (by omega)
    have hmod : (multiFrameIndex * s.slotsPerMultiFrame + index) % s.slotsPerMultiFrame = index := by
      rw [Nat.mul_comm, Nat.mul_add_mod, Nat.mod_eq_of_lt (by omega)]
    have ih := fun txSlotInfos => @ih (index + 1) fuel (by omega) (by omega) txSlotInfos
    rw [txSlots_succ]
    unfold getTxSlotInfo.collect txSlot
    rw [hmod]
    cases hinfo : s.slotInfos[index]? with
    | none =>
      rw [List.getElem?_eq_none_iff, h.stored.length] at hinfo
      unfold slotsPerMultiFrame at hcount
      omega
    | some info =>
      simp only [h.getSlotTime_eq htime, Option.bind_eq_bind, Option.bind_some, hwrap, hindex, ih]
      split
      . simp [Nat.add_assoc]
      . simp [Nat.add_assoc]

theorem getAbsoluteIndex_multiFrameTime (h : s.Usable) (hlt : s.multiFrameTime multiFrameIndex < 2^63)
    : s.slotter.getAbsoluteIndex (s.multiFrameTime multiFrameIndex : TimePoint)
        =
      some (
        multiFrameIndex * s.slotsPerMultiFrame,
        multiFrameIndex * s.slotStructure.framesPerMultiFrame,
        multiFrameIndex
      ) := by
  have hslot : s.multiFrameTime multiFrameIndex / 1000 / s.slotStructure.slotDuration
      = multiFrameIndex * s.slotsPerMultiFrame := by
    unfold multiFrameTime
    rw [Nat.mul_div_cancel _ (by decide), Nat.mul_div_cancel _ h.duration]
  have hframe : multiFrameIndex * s.slotsPerMultiFrame / s.slotStructure.slotsPerFrame
      = multiFrameIndex * s.slotStructure.framesPerMultiFrame := by
    unfold slotsPerMultiFrame
    rw [← Nat.mul_assoc, Nat.mul_div_cancel _ h.slotsPerFrame_pos]
  have hslotter := h.stored.slotter
  rw [Slotter.getAbsoluteIndex_of_lt _ _ _ hlt]
  . simp only [hslotter, hslot, hframe]
    rw [Nat.mul_div_cancel _ h.framesPerMultiFrame_pos]
  . rw [hslotter]
    exact h.duration
  . rw [hslotter]
    exact h.slotsPerFrame_pos
  . rw [hslotter]
    exact h.framesPerMultiFrame_pos

theorem getRelativeIndex_eq (h : s.Usable) (absoluteSlotIndex : Nat)
    : s.slotter.getRelativeIndex absoluteSlotIndex
        =
      some (
        absoluteSlotIndex % s.slotStructure.slotsPerFrame,
        absoluteSlotIndex / s.slotStructure.slotsPerFrame % s.slotStructure.framesPerMultiFrame
      ) := by
  have hslotter := h.stored.slotter
  rw [Slotter.getRelativeIndex_of_pos]
  . rw [hslotter]
  . rw [hslotter]
    exact h.slotsPerFrame_pos
  . rw [hslotter]
    exact h.framesPerMultiFrame_pos

theorem relativeIndex_eq (h : s.Usable) (hsmall : s.slotsPerMultiFrame < 2^32) (absoluteSlotIndex : Nat)
    : s.relativeIndex
        (absoluteSlotIndex / s.slotStructure.slotsPerFrame % s.slotStructure.framesPerMultiFrame)
        (absoluteSlotIndex % s.slotStructure.slotsPerFrame)
        =
      absoluteSlotIndex % s.slotsPerMultiFrame := by
  have hlt := Nat.mod_lt absoluteSlotIndex h.slots
  have hmod : absoluteSlotIndex % s.slotsPerMultiFrame
      = absoluteSlotIndex / s.slotStructure.slotsPerFrame % s.slotStructure.framesPerMultiFrame
        * s.slotStructure.slotsPerFrame
        + absoluteSlotIndex % s.slotStructure.slotsPerFrame := by
    unfold slotsPerMultiFrame
    rw [Nat.mul_comm, Nat.mod_mul, Nat.mul_comm s.slotStructure.slotsPerFrame, Nat.add_comm]
  unfold relativeIndex
  rw [← hmod, Nat.mod_eq_of_lt (by omega)]

theorem getTxSlotInfo_eq (h : s.Usable) (hsmall : s.slotsPerMultiFrame < 2^32)
    (hlt : s.multiFrameTime (multiFrameIndex + 1) < 2^63) {time : TimePoint}
    (hrequest : getTxSlotInfo.requestTime s time = some (s.multiFrameTime multiFrameIndex : TimePoint))
    : s.getTxSlotInfo time 1
        =
      some (
        (s.txSlots (multiFrameIndex * s.slotsPerMultiFrame) s.slotsPerMultiFrame,
          (s.multiFrameTime (multiFrameIndex + 1) : TimePoint)),
        { s with waitingFirstTxSlotInfoRequest := false }
      ) := by
  have hthis : s.multiFrameTime multiFrameIndex < 2^63 :=
    Nat.lt_of_le_of_lt (multiFrameTime_le s (Nat.le_succ multiFrameIndex)) hlt
  have hempty : s.slotInfos.isEmpty = false := by
    rw [List.isEmpty_eq_false_iff]
    exact h.slotInfos_ne_nil
  have hrelative := h.relativeIndex_eq hsmall (multiFrameIndex * s.slotsPerMultiFrame)
  rw [Nat.mul_mod_left] at hrelative
  have hlength : s.slotInfos.length = s.slotsPerMultiFrame := h.stored.length
  have hcollect := h.collect_eq hsmall hlt (Nat.zero_add _) (Nat.lt_succ_self _) []
  unfold getTxSlotInfo
  rw [hempty]
  simp only [Bool.false_eq_true, ↓reduceIte, hrequest, Option.bind_eq_bind, Option.bind_some,
    h.getAbsoluteIndex_multiFrameTime hthis, h.getRelativeIndex_eq, hrelative,
      getTxSlotInfo.collectAll, hlength]
  rw [Nat.add_zero] at hcollect
  rw [hcollect]
  simp only [Option.bind_some, List.nil_append, h.getMultiFrameTime_eq hlt]
  rfl

theorem getSlotInfo_eq (h : s.Usable) (hsmall : s.slotsPerMultiFrame < 2^32) {absoluteSlotIndex : Nat}
    (hlt : s.slotTime absoluteSlotIndex < 2^63)
    : ∃ info,
        s.slotInfos[absoluteSlotIndex % s.slotsPerMultiFrame]? = some info
          ∧ s.getSlotInfo absoluteSlotIndex
          =
        some ⟨
          absoluteSlotIndex,
          absoluteSlotIndex % s.slotsPerMultiFrame,
          absoluteSlotIndex % s.slotStructure.slotsPerFrame,
          absoluteSlotIndex / s.slotStructure.slotsPerFrame % s.slotStructure.framesPerMultiFrame,
          (s.slotTime absoluteSlotIndex : TimePoint),
          info.type
        ⟩ := by
  have hempty : s.slotInfos.isEmpty = false := by
    rw [List.isEmpty_eq_false_iff]
    exact h.slotInfos_ne_nil
  have hindex : absoluteSlotIndex % s.slotsPerMultiFrame < s.slotInfos.length := by
    rw [h.stored.length]
    exact Nat.mod_lt _ h.slots
  have hinfo := List.getElem?_eq_getElem hindex
  refine ⟨_, hinfo, ?_⟩
  unfold getSlotInfo
  rw [hempty]
  simp only [Bool.false_eq_true, ↓reduceIte, Option.bind_eq_bind, h.getRelativeIndex_eq, Option.bind_some,
    h.relativeIndex_eq hsmall, hinfo, h.getSlotTime_eq hlt]
  rfl

end Usable

def requests (s : EventScheduler) (time : TimePoint)
    : Nat → Option (List (Scheduler.TxSlotInfos × TimePoint))
  | 0 => some []
  | n + 1 => do
    let ((txSlotInfos, nextTime), s') ← s.getTxSlotInfo time 1
    let answers ← s'.requests nextTime n
    return (txSlotInfos, nextTime) :: answers

variable {s : EventScheduler}

theorem requestTime_of_not_waiting (h : s.waitingFirstTxSlotInfoRequest = false) (time : TimePoint)
    : getTxSlotInfo.requestTime s time = some time := by
  unfold getTxSlotInfo.requestTime
  rw [if_neg (by simp [h])]

variable {time : TimePoint}

theorem Usable.requests_eq (h : s.Usable) (hsmall : s.slotsPerMultiFrame < 2^32) {multiFrameIndex n : Nat}
    (hlt : s.multiFrameTime (multiFrameIndex + n) < 2^63)
    (hrequest : getTxSlotInfo.requestTime s time = some (s.multiFrameTime multiFrameIndex : TimePoint))
    : s.requests time n
        =
      some ((List.range' multiFrameIndex n).map (fun k =>
        (s.txSlots (k * s.slotsPerMultiFrame) s.slotsPerMultiFrame,
            (s.multiFrameTime (k + 1) : TimePoint)))) := by
  induction n generalizing s multiFrameIndex time with
  | zero => rfl
  | succ n ih =>
    have hnext : s.multiFrameTime (multiFrameIndex + 1) < 2^63 := by
      have hle := multiFrameTime_le s (show multiFrameIndex + 1 ≤ multiFrameIndex + (n + 1) by omega)
      omega
    have hidle : Usable { s with waitingFirstTxSlotInfoRequest := false } :=
      ⟨⟨h.stored.length, h.stored.addressed, h.stored.slotter⟩, h.slots, h.duration⟩
    have hrest : ({ s with waitingFirstTxSlotInfoRequest := false } : EventScheduler).requests
        (s.multiFrameTime (multiFrameIndex + 1) : TimePoint) n = _ :=
      ih hidle hsmall (by rw [Nat.add_right_comm]; exact hlt) (requestTime_of_not_waiting rfl _)
    unfold requests
    rw [h.getTxSlotInfo_eq hsmall hnext hrequest]
    simp only [Option.bind_eq_bind, Option.bind_some, hrest]
    rfl

theorem flatMap_txSlots (s : EventScheduler) (multiFrameIndex n : Nat)
    : (List.range' multiFrameIndex n).flatMap
        (fun k => s.txSlots (k * s.slotsPerMultiFrame) s.slotsPerMultiFrame)
        =
      s.txSlots (multiFrameIndex * s.slotsPerMultiFrame) (n * s.slotsPerMultiFrame) := by
  induction n generalizing multiFrameIndex with
  | zero =>
    rw [Nat.zero_mul]
    rfl
  | succ n ih =>
    rw [List.range'_succ, List.flatMap_cons, ih, Nat.succ_mul, Nat.succ_mul, Nat.add_comm (n * _),
      txSlots_append]

def multiFrameAfter (s : EventScheduler) (time : Nat) : Nat :=
  time / 1000 / s.slotStructure.slotDuration / s.slotStructure.slotsPerFrame
    / s.slotStructure.framesPerMultiFrame + 1

structure Enumerates (s : EventScheduler) (first : Nat)
    (answers : List (Scheduler.TxSlotInfos × TimePoint)) : Prop where
  increasing : ((answers.flatMap Prod.fst).map (fun tx => tx.absoluteSlotIndex)).Pairwise (· < ·)
  mem : ∀ a,
    a ∈ (answers.flatMap Prod.fst).map (fun tx => tx.absoluteSlotIndex)
      ↔
    first * s.slotsPerMultiFrame ≤ a
      ∧ a < (first + answers.length) * s.slotsPerMultiFrame
      ∧ (s.slotInfos[a % s.slotsPerMultiFrame]?).any (fun info => info.type = .TX)
  -- all that is said about a slot is what the schedule says
  txSlot : ∀ tx ∈ answers.flatMap Prod.fst, s.txSlot tx.absoluteSlotIndex = some tx
  slotInfo : ∀ tx ∈ answers.flatMap Prod.fst,
    s.getSlotInfo tx.absoluteSlotIndex
      =
    some ⟨tx.absoluteSlotIndex, tx.relativeIndex, tx.relativeSlotIndex, tx.relativeFrameIndex,
      tx.timePoint, .TX⟩
  nextTime : answers.map Prod.snd
    =
    (List.range' (first + 1) answers.length).map (fun k => (s.multiFrameTime k : TimePoint))

variable {absoluteSlotIndex : Nat} {tx : Scheduler.TxSlotInfo}

theorem txSlot_eq_some
    (h : s.txSlot absoluteSlotIndex = some tx)
    : ∃ info,
        s.slotInfos[absoluteSlotIndex % s.slotsPerMultiFrame]? = some info
          ∧ info.type = .TX
          ∧ tx
          =
        ⟨absoluteSlotIndex, absoluteSlotIndex % s.slotsPerMultiFrame, info.slotIndex, info.frameIndex,
          s.slotTime absoluteSlotIndex, info.frequency, info.dataRate, info.serviceClass,
              info.power, info.destination⟩ := by
  unfold txSlot at h
  split at h
  . next info hinfo =>
    split at h
    . next htype => exact ⟨info, hinfo, htype, (Option.some.inj h).symm⟩
    . simp at h
  . simp at h

theorem absoluteSlotIndex_of_txSlot
    (h : s.txSlot absoluteSlotIndex = some tx)
    : tx.absoluteSlotIndex = absoluteSlotIndex := by
  obtain ⟨info, _, _, rfl⟩ := txSlot_eq_some h
  rfl

theorem mem_txSlots {first count : Nat} (h : tx ∈ s.txSlots first count)
    : first ≤ tx.absoluteSlotIndex ∧ tx.absoluteSlotIndex < first + count
        ∧ s.txSlot tx.absoluteSlotIndex = some tx := by
  unfold txSlots at h
  rw [List.mem_filterMap] at h
  obtain ⟨a, ha, htx⟩ := h
  rw [List.mem_range'_1] at ha
  rw [absoluteSlotIndex_of_txSlot htx]
  exact ⟨ha.1, ha.2, htx⟩

theorem txSlot_isSome
    : (s.txSlot absoluteSlotIndex).isSome
        =
      (s.slotInfos[absoluteSlotIndex % s.slotsPerMultiFrame]?).any (fun info => info.type = .TX) := by
  unfold txSlot
  cases s.slotInfos[absoluteSlotIndex % s.slotsPerMultiFrame]? with
  | none => rfl
  | some info =>
    simp only [Option.any_some]
    split
    . next htype => simp [htype]
    . next htype => simp [htype]

theorem mem_map_txSlots {first count : Nat}
    : a ∈ (s.txSlots first count).map (fun tx => tx.absoluteSlotIndex)
        ↔
      first ≤ a ∧ a < first + count
          ∧ (s.slotInfos[a % s.slotsPerMultiFrame]?).any (fun info => info.type = .TX) := by
  rw [List.mem_map, ← txSlot_isSome]
  constructor
  . rintro ⟨tx, htx, rfl⟩
    obtain ⟨hfirst, hcount, hslot⟩ := mem_txSlots htx
    rw [hslot]
    exact ⟨hfirst, hcount, rfl⟩
  . rintro ⟨hfirst, hcount, hslot⟩
    obtain ⟨tx, htx⟩ := Option.isSome_iff_exists.mp hslot
    have hmem : tx ∈ s.txSlots first count := by
      unfold txSlots
      rw [List.mem_filterMap]
      exact ⟨a, List.mem_range'_1.mpr ⟨hfirst, hcount⟩, htx⟩
    exact ⟨tx, hmem, absoluteSlotIndex_of_txSlot htx⟩

theorem pairwise_txSlots (s : EventScheduler) (first count : Nat)
    : ((s.txSlots first count).map (fun tx => tx.absoluteSlotIndex)).Pairwise (· < ·) := by
  induction count generalizing first with
  | zero => simp [txSlots]
  | succ count ih =>
    rw [txSlots_succ, List.map_append, List.pairwise_append]
    refine ⟨?_, ih (first + 1), ?_⟩
    . cases s.txSlot first with
      | none => simp
      | some tx => simp
    . intro a ha b hb
      rw [mem_map_txSlots] at hb
      rw [List.mem_map] at ha
      obtain ⟨tx, htx, rfl⟩ := ha
      have hmem : tx ∈ s.txSlots first 1 := by
        simpa [txSlots] using htx
      have hlt := (mem_txSlots hmem).2.1
      omega

namespace Usable

variable {s : EventScheduler}

theorem slotInfo_of_txSlot (h : s.Usable) (hsmall : s.slotsPerMultiFrame < 2^32)
    {tx : Scheduler.TxSlotInfo}
    (hslot : s.txSlot tx.absoluteSlotIndex = some tx) (hlt : s.slotTime tx.absoluteSlotIndex < 2^63)
    : s.getSlotInfo tx.absoluteSlotIndex
        =
      some ⟨tx.absoluteSlotIndex, tx.relativeIndex, tx.relativeSlotIndex, tx.relativeFrameIndex,
          tx.timePoint, .TX⟩ := by
  obtain ⟨info, hinfo, htype, heq⟩ := txSlot_eq_some hslot
  obtain ⟨info', hinfo', hget⟩ := h.getSlotInfo_eq hsmall hlt
  rw [hinfo, Option.some.injEq] at hinfo'
  subst hinfo'
  have haddressed := h.stored.addressed (Nat.le_of_lt hsmall) _ info hinfo
  have hslotIndex : info.slotIndex = tx.absoluteSlotIndex % s.slotStructure.slotsPerFrame := by
    rw [haddressed.2]
    unfold slotsPerMultiFrame
    rw [Nat.mod_mul_left_mod]
  have hframeIndex : info.frameIndex
      = tx.absoluteSlotIndex / s.slotStructure.slotsPerFrame % s.slotStructure.framesPerMultiFrame := by
    rw [haddressed.1]
    unfold slotsPerMultiFrame
    rw [Nat.mod_mul_left_div_self]
  rw [hget, htype, ← hslotIndex, ← hframeIndex]
  generalize tx.absoluteSlotIndex = a at heq ⊢
  rw [heq]

theorem lt_multiFrameTime (h : s.Usable) (time : Nat)
    : time < s.multiFrameTime (s.multiFrameAfter time) := by
  have hlt : time / 1000 / s.slotStructure.slotDuration / s.slotStructure.slotsPerFrame
    / s.slotStructure.framesPerMultiFrame
      < s.multiFrameAfter time := Nat.lt_succ_self _
  rw [Nat.div_lt_iff_lt_mul h.framesPerMultiFrame_pos, Nat.div_lt_iff_lt_mul h.slotsPerFrame_pos,
    Nat.div_lt_iff_lt_mul h.duration, Nat.div_lt_iff_lt_mul (by decide),
      Nat.mul_assoc (s.multiFrameAfter time)] at hlt
  exact hlt

theorem requestTime_eq (h : s.Usable) (hwaiting : s.waitingFirstTxSlotInfoRequest = true) {time : Nat}
    (hlt : s.multiFrameTime (s.multiFrameAfter time) < 2^63)
    : getTxSlotInfo.requestTime s time = some
        (s.multiFrameTime (s.multiFrameAfter time) : TimePoint) := by
  have htime := h.lt_multiFrameTime time
  have hslotter := h.stored.slotter
  have habsolute := @Slotter.getAbsoluteIndex_of_lt s.slotter (by rw [hslotter]; exact h.duration)
    (by rw [hslotter]; exact h.slotsPerFrame_pos)
      (by rw [hslotter]; exact h.framesPerMultiFrame_pos) time (by omega)
  have hindex : time / 1000 / s.slotter.slotSizeMicroseconds / s.slotter.slotsPerFrame
    / s.slotter.framesPerMultiFrame + 1
      = s.multiFrameAfter time := by
    rw [hslotter]
    rfl
  unfold getTxSlotInfo.requestTime
  rw [if_pos hwaiting]
  change (s.slotter.getAbsoluteIndex time).bind
    (fun index => s.slotter.getMultiFrameTime (index.2.2 + 1)) = _
  rw [habsolute, Option.bind_some, hindex]
  exact h.getMultiFrameTime_eq hlt

theorem enumerates (h : s.Usable) (hsmall : s.slotsPerMultiFrame < 2^32) {first n : Nat}
    (hlt : s.multiFrameTime (first + n) < 2^63)
    : s.Enumerates first ((List.range' first n).map (fun k =>
        (s.txSlots (k * s.slotsPerMultiFrame) s.slotsPerMultiFrame,
            (s.multiFrameTime (k + 1) : TimePoint)))) := by
  have hslots : ((List.range' first n).map (fun k =>
      (s.txSlots (k * s.slotsPerMultiFrame) s.slotsPerMultiFrame,
        (s.multiFrameTime (k + 1) : TimePoint)))).flatMap Prod.fst
      = s.txSlots (first * s.slotsPerMultiFrame) (n * s.slotsPerMultiFrame) := by
    rw [List.flatMap_map]
    exact flatMap_txSlots s first n
  have hbound : ∀ tx ∈ s.txSlots (first * s.slotsPerMultiFrame) (n * s.slotsPerMultiFrame),
      s.slotTime tx.absoluteSlotIndex < 2^63 := by
    intro tx htx
    have hle := (mem_txSlots htx).2.1
    rw [← Nat.add_mul] at hle
    have htime := slotTime_le s (Nat.le_of_lt hle)
    rw [slotTime_mul] at htime
    omega
  constructor
  . rw [hslots]
    exact pairwise_txSlots s _ _
  . intro a
    rw [hslots, mem_map_txSlots, List.length_map, List.length_range', Nat.add_mul]
  . rw [hslots]
    intro tx htx
    exact (mem_txSlots htx).2.2
  . rw [hslots]
    intro tx htx
    exact h.slotInfo_of_txSlot hsmall (mem_txSlots htx).2.2 (hbound tx htx)
  . rw [List.map_map, List.length_map, List.length_range']
    have hshift : List.range' (first + 1) n = (List.range' first n).map (fun k => k + 1) := by
      rw [Nat.add_comm first 1, ← List.map_add_range']
      apply List.map_congr_left
      intro k _
      exact Nat.add_comm 1 k
    rw [hshift, List.map_map]
    rfl

end Usable

theorem collect_eq_none (slotter : Slotter) {slotInfos : List Events.SlotInfo}
    (hlength : 2^32 ≤ slotInfos.length)
    (fuel absoluteSlotIndex : Nat) {index : Nat} (hindex : index < 2^32)
    (txSlotInfos : Scheduler.TxSlotInfos)
    : getTxSlotInfo.collect slotter slotInfos fuel absoluteSlotIndex index txSlotInfos = none := by
  induction fuel generalizing absoluteSlotIndex index txSlotInfos with
  | zero => rfl
  | succ fuel ih =>
    have hnext : (index + 1) % 2^32 < 2^32 := Nat.mod_lt _ (by decide)
    unfold getTxSlotInfo.collect
    cases hinfo : slotInfos[index]? with
    | none =>
      rw [List.getElem?_eq_none_iff] at hinfo
      omega
    | some info =>
      simp only
      split
      . cases slotter.getSlotTime absoluteSlotIndex with
        | none => rfl
        | some time => exact ih _ hnext _
      . exact ih _ hnext _

theorem getTxSlotInfo_bounds {s' : EventScheduler} {nextTime : TimePoint}
    {txSlotInfos : Scheduler.TxSlotInfos}
    (hnonempty : s.slotInfos ≠ []) (h : s.getTxSlotInfo time 1 = some ((txSlotInfos, nextTime), s'))
    : s.slotInfos.length < 2^32 ∧ nextTime < 2^63 ∧ s'.slotInfos ≠ [] := by
  unfold getTxSlotInfo at h
  rw [if_neg (by simpa using hnonempty)] at h
  simp only [Option.bind_eq_bind, Option.bind_eq_some_iff, Option.pure_def, Option.some.injEq,
    Prod.mk.injEq] at h
  obtain ⟨request, _, absolute, _, relative, _, txSlotInfos', hcollect, nextTime', hnext,
    ⟨rfl, rfl⟩, rfl⟩ := h
  refine ⟨?_, Slotter.timePoint_lt hnext, hnonempty⟩
  apply Nat.lt_of_not_le
  intro hlength
  have hindex : s.relativeIndex relative.2 relative.1 < 2^32 := Nat.mod_lt _ (by decide)
  unfold getTxSlotInfo.collectAll at hcollect
  rw [collect_eq_none s.slotter hlength _ _ hindex] at hcollect
  simp at hcollect

theorem requests_bounds {n : Nat} {answers : List (Scheduler.TxSlotInfos × TimePoint)}
    (hnonempty : s.slotInfos ≠ []) (h : s.requests time n = some answers)
    : answers.length = n ∧ ∀ answer ∈ answers, s.slotInfos.length < 2^32 ∧ answer.2 < 2^63 := by
  induction n generalizing s time answers with
  | zero =>
    cases h
    simp
  | succ n ih =>
    unfold requests at h
    simp only [Option.bind_eq_bind, Option.bind_eq_some_iff, Option.pure_def, Option.some.injEq] at h
    obtain ⟨⟨⟨txSlotInfos, nextTime⟩, s'⟩, hget, answers', hanswers, rfl⟩ := h
    obtain ⟨hlength, hnext, hnonempty'⟩ := getTxSlotInfo_bounds hnonempty hget
    obtain ⟨hcount, hbounds⟩ := ih hnonempty' hanswers
    refine ⟨by simp [hcount], ?_⟩
    intro answer hanswer
    rw [List.mem_cons] at hanswer
    cases hanswer with
    | inl heq =>
      rw [heq]
      exact ⟨hlength, hnext⟩
    | inr hmem => exact ⟨hlength, (hbounds answer hmem).2⟩

theorem run_cleared_or_stored {msgs : List (Option Events.TDMAScheduleEvent.Message)}
    (hrun : run step {} msgs = some s)
    : Cleared s ∨ Stored s.Small s := by
  have hstep : ∀ (s : EventScheduler) (msg : Option Events.TDMAScheduleEvent.Message) (s' : EventScheduler),
      Cleared s ∨ Stored s.Small s → True → s.step msg = some s' → Cleared s' ∨ Stored s'.Small s' := by
    intro s msg s' h _ hs'
    unfold step at hs'
    rw [Option.map_eq_some_iff] at hs'
    obtain ⟨⟨outcome, change, s''⟩, hevent, rfl⟩ := hs'
    exact cleared_or_stored h (Effect.of_processEvent hevent)
  apply run_inv hstep (Or.inl ⟨rfl, rfl, rfl, rfl⟩) (guarded_of_forall (fun _ _ => trivial)) hrun

theorem Effect.waiting {s s' : EventScheduler} {msg : Option Events.TDMAScheduleEvent.Message}
    {outcome : Outcome}
    {change : Option Scheduler.ScheduleChange} (h : Effect s msg outcome change s')
    (haccepted : outcome = .scheduleAcceptFull ∨ outcome = .scheduleAcceptUpdate)
    : s'.waitingFirstTxSlotInfoRequest = true := by
  cases h with
  | full m slotStructure event hmsg hstructure hevent accepted heq =>
    rw [heq]
    rfl
  | update m event hmsg hstructure hevent hnonempty hrange hassign accepted heq =>
    rw [heq]
    rfl
  | beforeFull hempty => simp at haccepted
  | rejected outcome houtcome =>
    cases haccepted with
    | inl h => simp [h] at houtcome
    | inr h => simp [h] at houtcome

theorem enumerates_iff {msgs : List (Option Events.TDMAScheduleEvent.Message)}
    {msg : Option Events.TDMAScheduleEvent.Message}
    {s₀ s : EventScheduler} {outcome : Outcome} {change : Option Scheduler.ScheduleChange}
    (hrun : run step {} msgs = some s₀) (hevent : s₀.processEvent msg = some (outcome, change, s))
    (haccepted : outcome = .scheduleAcceptFull ∨ outcome = .scheduleAcceptUpdate)
    (hslots : 0 < s.slotsPerMultiFrame)
    (hduration : 0 < s.slotStructure.slotDuration) (time n : Nat)
    : (∃ answers,
        s.requests time (n + 1) = some answers
          ∧ answers.length = n + 1
          ∧ s.Enumerates (s.multiFrameAfter time) answers)
        ↔
      s.slotsPerMultiFrame < 2^32 ∧ s.multiFrameTime (s.multiFrameAfter time + n + 1) < 2^63 := by
  have heffect := Effect.of_processEvent hevent
  have husable : s.Usable := by
    refine ⟨?_, hslots, hduration⟩
    cases cleared_or_stored (run_cleared_or_stored hrun) heffect with
    | inl hcleared =>
      rw [hcleared.slotStructure] at hduration
      exact absurd hduration (by decide)
    | inr hstored => exact hstored
  have hlength : s.slotInfos.length = s.slotsPerMultiFrame := husable.stored.length
  constructor
  . rintro ⟨answers, hanswers, hcount, henumerates⟩
    have hbounds := (requests_bounds husable.slotInfos_ne_nil hanswers).2
    have hnext := henumerates.nextTime
    have hmem : (s.multiFrameTime (s.multiFrameAfter time + n + 1) : TimePoint)
        ∈ answers.map Prod.snd := by
      rw [hnext, List.mem_map]
      refine ⟨s.multiFrameAfter time + n + 1, ?_, rfl⟩
      rw [List.mem_range'_1]
      omega
    rw [List.mem_map] at hmem
    obtain ⟨answer, hanswer, heq⟩ := hmem
    obtain ⟨hsmall, hlt⟩ := hbounds answer hanswer
    rw [hlength] at hsmall
    rw [heq] at hlt
    exact ⟨hsmall, by exact_mod_cast hlt⟩
  . rintro ⟨hsmall, hlt⟩
    rw [Nat.add_assoc] at hlt
    have hfirst : s.multiFrameTime (s.multiFrameAfter time) < 2^63 := by
      have hle := multiFrameTime_le s (Nat.le_add_right (s.multiFrameAfter time) (n + 1))
      omega
    have hrequest := husable.requestTime_eq (heffect.waiting haccepted) hfirst
    refine ⟨_, husable.requests_eq hsmall hlt hrequest, ?_, husable.enumerates hsmall hlt⟩
    rw [List.length_map, List.length_range']

theorem enumerates_iff_example
    : ∃ change s answers,
        processEvent {} (some {
          slotStructure := some ⟨1, 2, 3, 1000, 0⟩
          frames := [{
            index := 1
            frequencyHz := some 5
            dataRatebps := some 7
            serviceClass := some 2
            powerdBm := some 0
            slots := [{ index := 0, type := .TX }]
          }]
        }) = some (.scheduleAcceptFull, change, s)
          ∧ EventScheduler.requests s 12345678 3 = some answers
          ∧ s.Enumerates (s.multiFrameAfter 12345678) answers := by
  have hall : (processEvent {} (some {
      slotStructure := some ⟨1, 2, 3, 1000, 0⟩
      frames := [{
        index := 1
        frequencyHz := some 5
        dataRatebps := some 7
        serviceClass := some 2
        powerdBm := some 0
        slots := [{ index := 0, type := .TX }]
      }]
    })).any (fun res => res.1 = .scheduleAcceptFull ∧ 0 < res.2.2.slotsPerMultiFrame
      ∧ 0 < res.2.2.slotStructure.slotDuration
      ∧ res.2.2.slotsPerMultiFrame < 2^32
      ∧ res.2.2.multiFrameTime (res.2.2.multiFrameAfter 12345678 + 2 + 1) < 2^63) := by
    decide
  rw [Option.any_eq_true] at hall
  obtain ⟨⟨outcome, change, s⟩, hevent, hall⟩ := hall
  obtain ⟨houtcome, hslots, hduration, hsmall, hlt⟩ := of_decide_eq_true hall
  subst houtcome
  have hiff := enumerates_iff (run_nil step {}) hevent (Or.inl rfl) hslots hduration 12345678 2
  obtain ⟨answers, hanswers, _, henumerates⟩ := hiff.mpr ⟨hsmall, hlt⟩
  exact ⟨change, s, answers, hevent, hanswers, henumerates⟩

theorem not_enumerates_of_overflow
    : ∃ change s,
        processEvent {} (some {
          slotStructure := some ⟨1, 1, 1, 10000000000000000, 0⟩
          frames := [{
            index := 0
            frequencyHz := some 5
            dataRatebps := some 7
            serviceClass := some 2
            powerdBm := some 0
            slots := [{ index := 0, type := .TX }]
          }]
        }) = some (.scheduleAcceptFull, change, s)
          ∧ 0 < s.slotsPerMultiFrame
          ∧ 0 < s.slotStructure.slotDuration
          ∧ ¬ ∃ answers,
          EventScheduler.requests s 1700000000000000000 1 = some answers
            ∧ answers.length = 1
            ∧ s.Enumerates (s.multiFrameAfter 1700000000000000000) answers := by
  have hall : (processEvent {} (some {
      slotStructure := some ⟨1, 1, 1, 10000000000000000, 0⟩
      frames := [{
        index := 0
        frequencyHz := some 5
        dataRatebps := some 7
        serviceClass := some 2
        powerdBm := some 0
        slots := [{ index := 0, type := .TX }]
      }]
    })).any (fun res => res.1 = .scheduleAcceptFull ∧ 0 < res.2.2.slotsPerMultiFrame
      ∧ 0 < res.2.2.slotStructure.slotDuration
      ∧ EventScheduler.requests res.2.2 1700000000000000000 1 = none) := by
    decide
  rw [Option.any_eq_true] at hall
  obtain ⟨⟨outcome, change, s⟩, hevent, hall⟩ := hall
  obtain ⟨houtcome, hslots, hduration, hnone⟩ := of_decide_eq_true hall
  subst houtcome
  refine ⟨change, s, hevent, hslots, hduration, ?_⟩
  rintro ⟨answers, hanswers, _⟩
  rw [hnone] at hanswers
  simp at hanswers

end EventScheduler

end Tdma
end Emane

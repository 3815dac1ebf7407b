import Emane.Lib.Machine
import Emane.Ieee80211abg.Lemmas.DownstreamQueue

/-!
This module contains what a change of the configuration does to the packets that wait.
-/

namespace Emane
namespace Ieee80211abg

namespace AccessCategory

theorem length_clearPast (maxEntries : Nat) (queue : List DownstreamQueueEntry)
    : (clearPast maxEntries queue).length = min queue.length maxEntries := by
  induction queue with
  | nil => simp [clearPast]
  | cons e queue ih =>
    unfold clearPast
    split
    . next h =>
      rw [List.length_cons] at h ⊢
      omega
    . next h => omega

theorem clearPast_eq_nil {maxEntries : Nat} {queue : List DownstreamQueueEntry} (h : queue = [])
    : clearPast maxEntries queue = [] := by
  rw [h]
  rfl

theorem toNat_getAvailableSpace {p : AccessCategory} (hcapacity : p.maxQueueCapacity < 256)
    (hdepth : p.queue.length ≤ p.maxQueueCapacity)
    : p.getAvailableSpace.toNat + p.queue.length = p.maxQueueCapacity := by
  unfold getAvailableSpace
  have hq : (UInt64.ofNat p.queue.length).toNat = p.queue.length := UInt64.toNat_ofNat_of_lt'
    (by unfold UInt64.size; omega)
  have hc : (UInt64.ofNat p.maxQueueCapacity).toNat = p.maxQueueCapacity :=
    UInt64.toNat_ofNat_of_lt' (by unfold UInt64.size; omega)
  rw [UInt64.toNat_sub_of_le _ _ (by rw [UInt64.le_iff_toNat_le]; omega)]
  omega

theorem length_overflow_lt {capacity : Nat} (h : capacity ≠ 0) (queue : List DownstreamQueueEntry)
    : (overflow capacity queue).2.length < capacity := by
  induction queue with
  | nil => exact Nat.pos_of_ne_zero h
  | cons e queue ih =>
    unfold overflow
    split
    . exact ih
    . next hlt => exact Nat.lt_of_not_ge hlt

@[simp]
theorem maxQueueCapacity_push (p : AccessCategory) (queue : List DownstreamQueueEntry)
    : (p.push queue).maxQueueCapacity = p.maxQueueCapacity := by
  unfold push
  split
  . rfl
  . rfl

@[simp]
theorem maxQueueCapacity_tooLarge (p : AccessCategory) (pkt : DownstreamPacket)
    : (p.tooLarge pkt).maxQueueCapacity = p.maxQueueCapacity := by
  unfold tooLarge
  split
  . rfl
  . rfl

theorem length_enqueue_le {p : AccessCategory} (h : p.queue.length ≤ p.maxQueueCapacity)
    (entry : DownstreamQueueEntry)
    : (p.enqueue entry).2.queue.length ≤ (p.enqueue entry).2.maxQueueCapacity
        ∧ (p.enqueue entry).2.maxQueueCapacity = p.maxQueueCapacity := by
  unfold enqueue
  split
  . exact ⟨h, rfl⟩
  . next hcapacity =>
    split
    . simp only [queue_tooLarge, maxQueueCapacity_tooLarge]
      exact ⟨h, trivial⟩
    . have hkept := length_overflow_lt hcapacity p.queue
      simp only [queue_push, maxQueueCapacity_push, List.length_append, List.length_singleton]
      exact ⟨hkept, trivial⟩

end AccessCategory

namespace CategoryArray

structure Sound (a : CategoryArray) : Prop where
  inactive : ∀ i, a.numActiveCategories ≤ i.val → (a.categories i).queue = []
  depth : ∀ i, i.val < a.numActiveCategories
    → (a.categories i).queue.length ≤ (a.categories i).maxQueueCapacity
  capacity : ∀ i, (a.categories i).maxQueueCapacity < 256

theorem sound_create : create.Sound where
  inactive _ _ := by rfl
  depth _ _ := by simp [create, AccessCategory.create]
  capacity _ := by simp [create, AccessCategory.create, QUEUE_SIZE_DEFAULT]

structure Reconfigured (a : CategoryArray) (c : Call) (a' : CategoryArray) : Prop where
  categories : ∀ num : UInt8, c = .setCategories num → 1 ≤ num.toNat → num.toNat ≤ MAX_ACCESS_CATEGORIES →
    ∀ i, (a'.categories i).queue = if i.val < num.toNat then (a.categories i).queue else []
  inactive : ∀ i, a'.numActiveCategories ≤ i.val → (a'.categories i).queue = []
  depth : ∀ i, i.val < a'.numActiveCategories
    → (a'.categories i).queue.length ≤ (a'.categories i).maxQueueCapacity
  availableSpace : ∀ (i : Fin MAX_ACCESS_CATEGORIES) (category : UInt8), i.val = category.toNat
    → i.val < a'.numActiveCategories →
    (a'.getAvailableSpaceOf category).toNat + (a'.categories i).queue.length
      = (a'.categories i).maxQueueCapacity
  totalSpace : a'.getAvailableSpace.toNat + (a'.active.map (fun p => p.queue.length)).sum
    = (a'.active.map (fun p => p.maxQueueCapacity)).sum

variable {a : CategoryArray}

theorem mem_active {p : AccessCategory} (h : p ∈ a.active)
    : ∃ i : Fin MAX_ACCESS_CATEGORIES, i.val < a.numActiveCategories ∧ a.categories i = p := by
  obtain ⟨i, hi, heq⟩ := List.mem_map.mp h
  exact ⟨i, by simpa using (List.mem_filter.mp hi).2, heq⟩

theorem length_active_le (a : CategoryArray) : a.active.length ≤ MAX_ACCESS_CATEGORIES := by
  unfold active
  rw [List.length_map]
  exact (List.length_filter_le _ _).trans (by rw [List.length_finRange])

theorem toNat_foldl_availableSpace {ps : List AccessCategory}
    (hcapacity : ∀ p ∈ ps, p.maxQueueCapacity < 256)
    (hdepth : ∀ p ∈ ps, p.queue.length ≤ p.maxQueueCapacity) {sum : UInt64}
    (hsum : sum.toNat + 256 * ps.length < 2^64)
    : (ps.foldl (fun result p => result + p.getAvailableSpace) sum).toNat
        + (ps.map (fun p => p.queue.length)).sum
        =
      sum.toNat + (ps.map (fun p => p.maxQueueCapacity)).sum := by
  induction ps generalizing sum with
  | nil => rfl
  | cons p ps ih =>
    have hp := AccessCategory.toNat_getAvailableSpace (hcapacity p (by simp)) (hdepth p (by simp))
    have hlt := hcapacity p (by simp)
    rw [List.length_cons] at hsum
    have hadd : (sum + p.getAvailableSpace).toNat = sum.toNat + p.getAvailableSpace.toNat := by
      rw [UInt64.toNat_add]
      exact Nat.mod_eq_of_lt (by omega)
    have hrest := @ih (fun q hq => hcapacity q (by simp [hq])) (fun q hq => hdepth q (by simp [hq]))
      (sum + p.getAvailableSpace)
      (by omega)
    rw [List.foldl_cons, List.map_cons, List.map_cons, List.sum_cons, List.sum_cons]
    omega

variable {a' : CategoryArray} {c : Call}

theorem Sound.reconfigured (h : a'.Sound)
    (hcategories : ∀ num : UInt8, c = .setCategories num → 1 ≤ num.toNat
      → num.toNat ≤ MAX_ACCESS_CATEGORIES →
      ∀ i, (a'.categories i).queue = if i.val < num.toNat then (a.categories i).queue else [])
    : Reconfigured a c a' where
  categories := hcategories
  inactive := h.inactive
  depth := h.depth
  availableSpace i category hi hactive := by
    unfold getAvailableSpaceOf
    rw [dif_pos (hi ▸ hactive)]
    have heq : (⟨category.toNat, Nat.lt_of_lt_of_le (hi ▸ hactive) a'.active_le⟩ : Fin
      MAX_ACCESS_CATEGORIES) = i := Fin.ext hi.symm
    rw [heq]
    exact AccessCategory.toNat_getAvailableSpace (h.capacity i) (h.depth i hactive)
  totalSpace := by
    have hlength := a'.length_active_le
    have hspace := @toNat_foldl_availableSpace a'.active
      (fun p hp => by
        obtain ⟨i, -, rfl⟩ := mem_active hp
        exact h.capacity i)
      (fun p hp => by
        obtain ⟨i, hi, rfl⟩ := mem_active hp
        exact h.depth i hi)
      0 (by unfold MAX_ACCESS_CATEGORIES at hlength; rw [UInt64.toNat_zero]; omega)
    rw [UInt64.toNat_zero, zero_add] at hspace
    exact hspace

variable {which : Fin MAX_ACCESS_CATEGORIES → Bool}

theorem Sound.update (h : a.Sound) {f : AccessCategory → AccessCategory}
    (hempty : ∀ i, which i = true → a.numActiveCategories ≤ i.val → (f (a.categories i)).queue = [])
    (hdepth : ∀ i, which i = true → i.val < a.numActiveCategories →
      (f (a.categories i)).queue.length ≤ (f (a.categories i)).maxQueueCapacity)
    (hcapacity : ∀ i, which i = true → (f (a.categories i)).maxQueueCapacity < 256)
    : (a.update which f).Sound where
  inactive i hi := by
    unfold CategoryArray.update
    simp only
    split
    . next hwhich => exact hempty i hwhich hi
    . exact h.inactive i hi
  depth i hi := by
    unfold CategoryArray.update
    simp only
    split
    . next hwhich => exact hdepth i hwhich hi
    . exact h.depth i hi
  capacity i := by
    unfold CategoryArray.update
    simp only
    split
    . next hwhich => exact hcapacity i hwhich
    . exact h.capacity i

theorem Sound.enqueue {a : CategoryArray} (h : a.Sound) (entry : DownstreamQueueEntry)
    : (a.enqueue entry).2.Sound := by
  unfold CategoryArray.enqueue
  split
  . next hactive =>
    simp only
    apply h.update
    . intro i hi hge
      rw [decide_eq_true_eq] at hi
      rw [hi] at hge
      exact absurd hactive (Nat.not_lt.mpr hge)
    . exact fun i _ hi => (AccessCategory.length_enqueue_le (h.depth i hi) entry).1
    . intro i hi
      have hlt : i.val < a.numActiveCategories := by
        rw [decide_eq_true_eq] at hi
        rw [hi]
        exact hactive
      rw [(AccessCategory.length_enqueue_le (h.depth i hlt) entry).2]
      exact h.capacity i
  . unfold unsupported
    split
    . exact ⟨h.inactive, h.depth, h.capacity⟩
    . exact ⟨h.inactive, h.depth, h.capacity⟩

theorem Sound.dequeue (h : a.Sound) : a.dequeue.2.Sound := by
  unfold CategoryArray.dequeue
  split
  . simp only
    apply h.update
    . intro i _ hi
      rw [h.inactive i hi, List.tail_nil]
    . intro i _ hi
      have hdepth := h.depth i hi
      simp only [List.length_tail]
      omega
    . exact fun i _ => h.capacity i
  . exact h

theorem Sound.setMaxEntrySize (h : a.Sound) (which : Fin MAX_ACCESS_CATEGORIES → Bool)
    (maxEntrySize : UInt64)
    : (a.update which (fun p => p.setMaxEntrySize maxEntrySize)).Sound := by
  exact h.update (fun i _ hi => h.inactive i hi) (fun i _ hi => h.depth i hi) (fun i _ => h.capacity i)

/--
A capacity is right if it is what the packets have been compared with, or if there are few enough
of them.
-/
def Fits (maxEntries : UInt64) (p : AccessCategory) : Prop :=
  maxEntries.toNat < 256 ∨ p.queue.length ≤ maxEntries.toNat % 256

instance (maxEntries : UInt64) (p : AccessCategory) : Decidable (Fits maxEntries p) :=
  inferInstanceAs (Decidable (_ ∨ _))

theorem depth_setMaxCapacity_iff {p : AccessCategory} (hdepth : p.queue.length ≤ p.maxQueueCapacity)
    (hcapacity : p.maxQueueCapacity < 256)
    (maxEntries : UInt64)
    : (p.setMaxCapacity maxEntries).queue.length ≤ (p.setMaxCapacity maxEntries).maxQueueCapacity
        ↔ Fits maxEntries p := by
  unfold AccessCategory.setMaxCapacity Fits
  simp only [AccessCategory.length_clearPast, UInt64.toNat_toUInt8]
  omega

theorem capacity_setMaxCapacity_lt (h : ∀ i, (a.categories i).maxQueueCapacity < 256)
    (which : Fin MAX_ACCESS_CATEGORIES → Bool) (maxEntries : UInt64) (i : Fin MAX_ACCESS_CATEGORIES)
    : ((a.update which (fun p => p.setMaxCapacity maxEntries)).categories i).maxQueueCapacity < 256 := by
  unfold CategoryArray.update
  simp only
  split
  . exact maxEntries.toUInt8.toNat_lt
  . exact h i

theorem Sound.setMaxCapacity_iff (h : a.Sound) (maxEntries : UInt64)
    : (a.update which (fun p => p.setMaxCapacity maxEntries)).Sound
        ↔
      ∀ i, which i = true → i.val < a.numActiveCategories → Fits maxEntries (a.categories i) := by
  constructor
  . intro hsound i hwhich hi
    have hdepth := hsound.depth i hi
    unfold CategoryArray.update at hdepth
    simp only [if_pos hwhich] at hdepth
    exact (depth_setMaxCapacity_iff (h.depth i hi) (h.capacity i) maxEntries).mp hdepth
  . intro hfits
    apply h.update
    . exact fun i _ hi => AccessCategory.clearPast_eq_nil (h.inactive i hi)
    . exact fun i hwhich hi =>
        (depth_setMaxCapacity_iff (h.depth i hi) (h.capacity i) maxEntries).mpr (hfits i hwhich hi)
    . intro i _
      exact maxEntries.toUInt8.toNat_lt

theorem mem_cleared_iff {numActive num i : Nat}
    : i ∈ cleared numActive num ↔ 1 ≤ i ∧ i + num ≤ numActive := by
  unfold cleared
  rw [List.mem_map]
  constructor
  . rintro ⟨category, hcategory, rfl⟩
    rw [List.mem_range'_1] at hcategory
    omega
  . rintro ⟨hpos, hle⟩
    refine ⟨numActive - i, ?_, ?_⟩
    . rw [List.mem_range'_1]
      omega
    . omega

def Ok (a : CategoryArray) : Call → Prop
  | .setCategories num => 1 ≤ num.toNat → num.toNat ≤ MAX_ACCESS_CATEGORIES →
    ∀ i : Fin MAX_ACCESS_CATEGORIES, (a.categories i).queue ≠ []
      → ((1 ≤ i.val ∧ i.val + num.toNat ≤ a.numActiveCategories) ↔ num.toNat ≤ i.val)
  | .setMaxCapacity maxEntries => ∀ i : Fin MAX_ACCESS_CATEGORIES, i.val < a.numActiveCategories
    → Fits maxEntries (a.categories i)
  | .setMaxCapacityOf maxEntries category => ∀ i : Fin MAX_ACCESS_CATEGORIES, i.val = category.toNat
    → i.val < a.numActiveCategories →
    Fits maxEntries (a.categories i)
  | .setMaxEntrySize _ => True
  | .setMaxEntrySizeOf _ _ => True
  | .enqueue _ => True
  | .dequeue => True

theorem setCategories_iff {a : CategoryArray} {num : UInt8} (hpos : 1 ≤ num.toNat)
    (hle : num.toNat ≤ MAX_ACCESS_CATEGORIES)
    : (∀ i, ((a.setCategories num).categories i).queue =
        if i.val < num.toNat then (a.categories i).queue else [])
        ↔
      a.Ok (.setCategories num) := by
  have hqueue : ∀ i, ((a.setCategories num).categories i).queue
      = if 1 ≤ i.val ∧ i.val + num.toNat ≤ a.numActiveCategories then [] else (a.categories i).queue := by
    intro i
    unfold setCategories update
    rw [dif_pos ⟨hpos, hle⟩]
    simp only [decide_eq_true_eq, mem_cleared_iff]
    split
    . rfl
    . rfl
  constructor
  . intro hcategories _ _ i hne
    have hi := (hqueue i).symm.trans (hcategories i)
    split at hi
    . next hcleared =>
      split at hi
      . exact absurd hi.symm hne
      . next hge => exact iff_of_true hcleared (Nat.le_of_not_lt hge)
    . next hcleared =>
      split at hi
      . next hlt => exact iff_of_false hcleared (Nat.not_le.mpr hlt)
      . exact absurd hi hne
  . intro hok i
    rw [hqueue i]
    by_cases hnil : (a.categories i).queue = []
    . rw [hnil, ite_self, ite_self]
    . have hiff := hok hpos hle i hnil
      split
      . next hcleared => rw [if_neg (Nat.not_lt.mpr (hiff.mp hcleared))]
      . next hcleared => rw [if_pos (Nat.lt_of_not_ge (fun hge => hcleared (hiff.mpr hge)))]

theorem Sound.setCategories (h : a.Sound) {num : UInt8} (hpos : 1 ≤ num.toNat)
    (hle : num.toNat ≤ MAX_ACCESS_CATEGORIES)
    (hcategories : ∀ i, ((a.setCategories num).categories i).queue =
      if i.val < num.toNat then (a.categories i).queue else [])
    : (a.setCategories num).Sound := by
  have hnum : (a.setCategories num).numActiveCategories = num.toNat := by
    unfold CategoryArray.setCategories
    rw [dif_pos ⟨hpos, hle⟩]
  have hcapacity : ∀ i, ((a.setCategories num).categories i).maxQueueCapacity
      = (a.categories i).maxQueueCapacity := by
    intro i
    unfold CategoryArray.setCategories
    rw [dif_pos ⟨hpos, hle⟩]
    simp only [CategoryArray.update]
    split
    . rfl
    . rfl
  refine ⟨?_, ?_, ?_⟩
  . intro i hi
    rw [hcategories, if_neg (by omega)]
  . intro i hi
    rw [hcategories, if_pos (by omega), hcapacity]
    by_cases hactive : i.val < a.numActiveCategories
    . exact h.depth i hactive
    . rw [h.inactive i (Nat.le_of_not_lt hactive)]
      exact Nat.zero_le _
  . intro i
    rw [hcapacity]
    exact h.capacity i

theorem Reconfigured.sound (h : Reconfigured a c a')
    (hcapacity : ∀ i, (a'.categories i).maxQueueCapacity < 256)
    : a'.Sound := by
  exact ⟨h.inactive, h.depth, hcapacity⟩

theorem Sound.reconfigured_setMaxCapacity_iff (h : a.Sound)
    {maxEntries : UInt64} (hc : ∀ num, c ≠ .setCategories num)
    : Reconfigured a c (a.update which (fun p => p.setMaxCapacity maxEntries))
        ↔
      (a.update which (fun p => p.setMaxCapacity maxEntries)).Sound := by
  constructor
  . exact fun hr => hr.sound (capacity_setMaxCapacity_lt h.capacity which maxEntries)
  . exact fun hsound => hsound.reconfigured (fun num heq => absurd heq (hc num))

theorem Sound.step_iff (h : a.Sound) (hstep : a.step c = some a')
    : (Reconfigured a c a' ↔ a.Ok c) ∧ (a.Ok c → a'.Sound) := by
  cases c with
  | setCategories num =>
    cases hstep
    by_cases hrange : 1 ≤ num.toNat ∧ num.toNat ≤ MAX_ACCESS_CATEGORIES
    . obtain ⟨hpos, hle⟩ := hrange
      have hiff := @setCategories_iff a num hpos hle
      refine ⟨⟨fun hr => hiff.mp (hr.categories num rfl hpos hle), fun hok => ?_⟩,
        fun hok => h.setCategories hpos hle (hiff.mpr hok)⟩
      apply (h.setCategories hpos hle (hiff.mpr hok)).reconfigured
      intro num' heq _ _
      obtain rfl := Call.setCategories.inj heq
      exact hiff.mpr hok
    . have hsame : a.setCategories num = a := by
        exact dif_neg hrange
      rw [hsame]
      refine ⟨iff_of_true ?_ (fun hpos hle => absurd ⟨hpos, hle⟩ hrange), fun _ => h⟩
      apply h.reconfigured
      intro num' heq hpos hle
      obtain rfl := Call.setCategories.inj heq
      exact absurd ⟨hpos, hle⟩ hrange
  | setMaxCapacity maxEntries =>
    cases hstep
    have hsound : (a.setMaxCapacity maxEntries).Sound ↔ a.Ok (.setMaxCapacity maxEntries) := by
      unfold CategoryArray.setMaxCapacity
      rw [h.setMaxCapacity_iff maxEntries]
      simp only [decide_eq_true_eq]
      exact ⟨fun hfits i hi => hfits i hi hi, fun hok i hi _ => hok i hi⟩
    exact ⟨(h.reconfigured_setMaxCapacity_iff (fun _ heq => by cases heq)).trans hsound, hsound.mpr⟩
  | setMaxCapacityOf maxEntries category =>
    cases hstep
    have hsound : (a.setMaxCapacityOf maxEntries category).Sound
        ↔ a.Ok (.setMaxCapacityOf maxEntries category) := by
      unfold CategoryArray.setMaxCapacityOf
      rw [h.setMaxCapacity_iff maxEntries]
      simp only [decide_eq_true_eq]
      exact ⟨fun hfits i hi hactive => hfits i ⟨hi ▸ hactive, hi⟩ hactive,
        fun hok i hi hactive => hok i hi.2 hactive⟩
    exact ⟨(h.reconfigured_setMaxCapacity_iff (fun _ heq => by cases heq)).trans hsound, hsound.mpr⟩
  | setMaxEntrySize maxEntrySize =>
    cases hstep
    have hsound := h.setMaxEntrySize (fun i => i.val < a.numActiveCategories) maxEntrySize
    exact ⟨iff_of_true (hsound.reconfigured (fun _ heq => by cases heq)) trivial, fun _ => hsound⟩
  | setMaxEntrySizeOf maxEntrySize category =>
    cases hstep
    have hsound := h.setMaxEntrySize (fun i => i = category) maxEntrySize
    exact ⟨iff_of_true (hsound.reconfigured (fun _ heq => by cases heq)) trivial, fun _ => hsound⟩
  | enqueue entry =>
    cases hstep
    exact ⟨iff_of_true ((h.enqueue entry).reconfigured (fun _ heq => by cases heq)) trivial,
      fun _ => h.enqueue entry⟩
  | dequeue =>
    cases hstep
    exact ⟨iff_of_true (h.dequeue.reconfigured (fun _ heq => by cases heq)) trivial, fun _ => h.dequeue⟩

theorem exists_run (a : CategoryArray) (calls : List Call) : ∃ a', run step a calls = some a' := by
  induction calls generalizing a with
  | nil => exact ⟨a, rfl⟩
  | cons c calls ih =>
    obtain ⟨a', hstep⟩ : ∃ a', a.step c = some a' := by
      cases c with
      | setCategories num => exact ⟨_, rfl⟩
      | setMaxCapacity maxEntries => exact ⟨_, rfl⟩
      | setMaxCapacityOf maxEntries category => exact ⟨_, rfl⟩
      | setMaxEntrySize maxEntrySize => exact ⟨_, rfl⟩
      | setMaxEntrySizeOf maxEntrySize category => exact ⟨_, rfl⟩
      | enqueue entry => exact ⟨_, rfl⟩
      | dequeue => exact ⟨_, rfl⟩
    obtain ⟨a'', hrun⟩ := ih a'
    exact ⟨a'', by rw [run_cons, hstep, Option.bind_some, hrun]⟩

def AllReconfigured (calls : List Call) : Prop :=
  ∀ (before : List Call) (c : Call) (after : List Call) (a a' : CategoryArray),
    calls = before ++ c :: after →
    run step create before = some a → a.step c = some a' → Reconfigured a c a'

theorem allReconfigured_iff_guarded (calls : List Call)
    : AllReconfigured calls ↔ Guarded step Ok create calls := by
  obtain ⟨_, hrun⟩ := create.exists_run calls
  exact run_steps_iff (fun _ _ _ h hstep => (h.step_iff hstep).1)
    (fun _ _ _ h hok hstep => (h.step_iff hstep).2 hok) sound_create hrun

theorem not_allReconfigured
    : ¬ AllReconfigured
        [.enqueue (.create ⟨⟨1, 1, 0, 0, .ofByte 0⟩, [1], [], []⟩ 0 0 3 0), .setCategories 3] := by
  intro h
  have hr := h [.enqueue (.create ⟨⟨1, 1, 0, 0, .ofByte 0⟩, [1], [], []⟩ 0 0 3 0)]
    (.setCategories 3) [] _ _ rfl rfl rfl
  exact absurd (hr.inactive ⟨3, by decide⟩ (by decide)) (by decide)

def toQueue (a : CategoryArray) : DownstreamQueue where
  categories := a.active
  numUnicastPacketsUnsupported := a.numUnicastPacketsUnsupported
  numUnicastBytesUnsupported := a.numUnicastBytesUnsupported
  numBroadcastPacketsUnsupported := a.numBroadcastPacketsUnsupported
  numBroadcastBytesUnsupported := a.numBroadcastBytesUnsupported

theorem active_eq_ofFn (a : CategoryArray)
    : a.active = List.ofFn (fun i : Fin a.numActiveCategories => a.categories
        ⟨i.val, Nat.lt_of_lt_of_le i.isLt a.active_le⟩) := by
  obtain ⟨categories, num, _, _, _, _, hpos, hle⟩ := a
  match num, hpos, hle with
  | 1, _, _ => rfl
  | 2, _, _ => rfl
  | 3, _, _ => rfl
  | 4, _, _ => rfl

theorem getElem?_active (a : CategoryArray) (i : Nat)
    : a.active[i]? = if h : i < a.numActiveCategories
        then some (a.categories ⟨i, Nat.lt_of_lt_of_le h a.active_le⟩) else none := by
  rw [active_eq_ofFn, List.getElem?_ofFn]

theorem active_update (a : CategoryArray) (i : Fin MAX_ACCESS_CATEGORIES)
    (f : AccessCategory → AccessCategory)
    : (a.update (fun j => j = i) f).active = a.active.set i.val (f (a.categories i)) := by
  apply List.ext_getElem?
  intro j
  have hnum : (a.update (fun j => j = i) f).numActiveCategories = a.numActiveCategories := by rfl
  rw [List.getElem?_set, getElem?_active, getElem?_active]
  simp only [hnum]
  by_cases hactive : j < a.numActiveCategories
  . have hlength : j < a.active.length := by
      rw [active_eq_ofFn, List.length_ofFn]
      exact hactive
    rw [dif_pos hactive, dif_pos hactive]
    unfold update
    by_cases hji : i.val = j
    . subst hji
      simp [hlength]
    . have hne : (⟨j, Nat.lt_of_lt_of_le hactive a.active_le⟩ : Fin MAX_ACCESS_CATEGORIES) ≠ i := by
        intro heq
        exact hji (congrArg Fin.val heq).symm
      simp [hji, hne]
  . have hlength : ¬ j < a.active.length := by
      rw [active_eq_ofFn, List.length_ofFn]
      exact hactive
    rw [dif_neg hactive, dif_neg hactive]
    split
    . next hij =>
      subst hij
      rw [if_neg hlength]
    . rfl

theorem enqueue_toQueue (a : CategoryArray) (entry : DownstreamQueueEntry)
    : a.toQueue.enqueue entry = ((a.enqueue entry).1, (a.enqueue entry).2.toQueue) := by
  have hget : a.toQueue.categories[entry.category]? = _ := a.getElem?_active entry.category
  unfold DownstreamQueue.enqueue enqueue
  by_cases hactive : entry.category < a.numActiveCategories
  . rw [dif_pos hactive] at hget
    rw [dif_pos hactive, hget]
    simp only [toQueue, active_update]
    rfl
  . rw [dif_neg hactive] at hget
    rw [dif_neg hactive, hget]
    unfold DownstreamQueue.unsupported unsupported
    simp only
    split
    . rfl
    . rfl

theorem find?_reverse_finRange {n : Nat} {p : Fin n → Bool} {i : Fin n}
    (h : (List.finRange n).reverse.find? p = some i)
    : p i = true ∧ ∀ j, i < j → p j = false := by
  obtain ⟨hi, before, after, heq, hbefore⟩ := List.find?_eq_some_iff_append.mp h
  refine ⟨hi, fun j hij => ?_⟩
  have hsorted : ((List.finRange n).reverse).Pairwise (fun a b => b < a) :=
    List.pairwise_reverse.mpr (List.pairwise_lt_finRange n)
  have hmem : j ∈ (List.finRange n).reverse := List.mem_reverse.mpr (List.mem_finRange j)
  rw [heq] at hsorted hmem
  have hafter : ∀ k ∈ after, k < i := fun k hk => List.rel_of_pairwise_cons
    (List.pairwise_append.mp hsorted).2.1 hk
  rcases List.mem_append.mp hmem with hj | hj
  . simpa using hbefore j hj
  . cases List.mem_cons.mp hj with
    | inl hji => exact absurd hij (hji ▸ Nat.lt_irrefl _)
    | inr hj => exact absurd (hafter j hj) (Nat.lt_asymm hij)

theorem mem_drop_active {a : CategoryArray} {n : Nat} {p : AccessCategory} (h : p ∈ a.active.drop n)
    : ∃ j : Fin MAX_ACCESS_CATEGORIES, n ≤ j.val ∧ j.val < a.numActiveCategories
        ∧ a.categories j = p := by
  obtain ⟨k, hk⟩ := List.mem_iff_getElem?.mp h
  rw [List.getElem?_drop, getElem?_active] at hk
  split at hk
  . next hlt => exact ⟨⟨n + k, Nat.lt_of_lt_of_le hlt a.active_le⟩, Nat.le_add_right n k, hlt,
      Option.some.inj hk⟩
  . cases hk

theorem dequeue_toQueue (a : CategoryArray) : a.toQueue.dequeue = (a.dequeue.1, a.dequeue.2.toQueue) := by
  unfold dequeue
  split
  . next i hfind =>
    obtain ⟨hi, hlater⟩ := find?_reverse_finRange hfind
    rw [Bool.and_eq_true, decide_eq_true_eq, Bool.not_eq_true', List.isEmpty_eq_false_iff] at hi
    obtain ⟨hactive, hne⟩ := hi
    obtain ⟨entry, queue, hqueue⟩ := List.exists_cons_of_ne_nil hne
    have hlength : i.val < a.active.length := by
      rw [active_eq_ofFn, List.length_ofFn]
      exact hactive
    have hget : a.active[i.val] = a.categories i := by
      have hsome := a.getElem?_active i.val
      rw [dif_pos hactive, List.getElem?_eq_getElem hlength] at hsome
      exact Option.some.inj hsome
    have hsplit : a.active = a.active.take i.val ++ a.categories i :: a.active.drop (i.val + 1) := by
      rw [← hget, List.getElem_cons_drop, List.take_append_drop]
    have hempty : ∀ q ∈ a.active.drop (i.val + 1), q.queue = [] := by
      intro q hq
      obtain ⟨j, hle, hj, rfl⟩ := mem_drop_active hq
      have hno := hlater j hle
      rw [decide_eq_true hj, Bool.true_and, Bool.not_eq_false', List.isEmpty_iff] at hno
      exact hno
    have hgo := DownstreamQueue.dequeue_go_of_cons hqueue (a.active.take i.val) hempty
    rw [← hsplit] at hgo
    unfold DownstreamQueue.dequeue
    simp only [toQueue, hgo, active_update, List.set_eq_take_append_cons_drop, if_pos hlength,
      hqueue, List.head?_cons, List.tail_cons]
    rfl
  . next hfind =>
    have hempty : ∀ p ∈ a.active, p.queue = [] := by
      intro p hp
      obtain ⟨i, hi, rfl⟩ := mem_active hp
      have hno := List.find?_eq_none.mp hfind i (List.mem_reverse.mpr (List.mem_finRange i))
      simpa [hi] using hno
    unfold DownstreamQueue.dequeue
    simp only [toQueue, DownstreamQueue.dequeue_go_of_forall_nil hempty]

end CategoryArray
end Ieee80211abg
end Emane

import Mathlib.Data.List.Nodup
import Emane.Timer.Impl.Timer

/-!
This module contains what the operations on timers do to the two maps and to the timer of the
kernel.
-/

namespace Emane
namespace Timer

variable (t : Timer) (timePoint : Int)

@[simp]
theorem settime_timePointMap : (t.settime timePoint).timePointMap = t.timePointMap := by
  unfold settime
  split
  . rfl
  . split <;> rfl

@[simp]
theorem settime_timerIdMap : (t.settime timePoint).timerIdMap = t.timerIdMap := by
  unfold settime
  split
  . rfl
  . split <;> rfl

@[simp]
theorem settime_timerId : (t.settime timePoint).timerId = t.timerId := by
  unfold settime
  split
  . rfl
  . split <;> rfl

theorem settime_armed {timePoint : Int} (h : 0 < timePoint)
    : (t.settime timePoint).armed = some timePoint := by
  unfold settime
  rw [if_neg (by omega), if_neg (by omega)]

@[simp]
theorem schedule_i_timePointMap : t.schedule_i.timePointMap = t.timePointMap := by
  unfold schedule_i
  split
  . exact settime_timePointMap _ _
  . rfl

@[simp]
theorem schedule_i_timerIdMap : t.schedule_i.timerIdMap = t.timerIdMap := by
  unfold schedule_i
  split
  . exact settime_timerIdMap _ _
  . rfl

@[simp]
theorem schedule_i_timerId : t.schedule_i.timerId = t.timerId := by
  unfold schedule_i
  split
  . exact settime_timerId _ _
  . rfl

structure Consistent (t : Timer) : Prop where
  nodup : (t.timePointMap.toList.map TimerInfo.timerId).Nodup
  find? : ∀ timerId timePoint,
    t.timerIdMap.find? timerId = some timePoint
      ↔
    ∃ info ∈ t.timePointMap.toList, info.timerId = timerId ∧ info.expireTime = timePoint
  issued : ∀ info ∈ t.timePointMap.toList, info.timerId.toNat ≤ t.timerId.toNat

def Positive (t : Timer) : Prop :=
  ∀ info ∈ t.timePointMap.toList, 0 < info.expireTime

def Armed (t : Timer) : Prop :=
  ∀ info, t.timePointMap.first? = some info → t.armed = some info.expireTime

theorem init_consistent : init.Consistent := by
  constructor
  . exact List.nodup_nil
  . simp [init, SortedMultiMap.empty]
  . simp [init, SortedMultiMap.empty]

section

variable {t : Timer}

theorem Consistent.eq_of_timerId (h : t.Consistent) {info info' : TimerInfo}
    (hinfo : info ∈ t.timePointMap.toList)
    (hinfo' : info' ∈ t.timePointMap.toList) (heq : info.timerId = info'.timerId)
    : info = info' := by
  exact List.inj_on_of_nodup_map h.nodup hinfo hinfo' heq

theorem Consistent.of_eq {t' : Timer} (h : t.Consistent)
    (htimePointMap : t'.timePointMap = t.timePointMap)
    (htimerIdMap : t'.timerIdMap = t.timerIdMap) (htimerId : t.timerId.toNat ≤ t'.timerId.toNat)
    : t'.Consistent := by
  constructor
  . rw [htimePointMap]
    exact h.nodup
  . rw [htimePointMap, htimerIdMap]
    exact h.find?
  . rw [htimePointMap]
    intro info hinfo
    exact Nat.le_trans (h.issued info hinfo) htimerId

theorem Consistent.schedule_i (h : t.Consistent) : t.schedule_i.Consistent := by
  apply h.of_eq
  . simp
  . simp
  . simp

theorem schedule_i_armed (h : t.Positive) : t.schedule_i.Armed := by
  intro info hfirst
  rw [schedule_i_timePointMap] at hfirst
  unfold Timer.schedule_i
  rw [hfirst]
  exact settime_armed _ (h info (SortedMultiMap.mem_of_first? hfirst))

theorem Consistent.mem_erase (h : t.Consistent) {info info' : TimerInfo}
    (hinfo : info ∈ t.timePointMap.toList)
    : info' ∈ (t.erase info.expireTime info.timerId).timePointMap.toList
        ↔ info' ∈ t.timePointMap.toList ∧ info' ≠ info := by
  unfold erase
  rw [SortedMultiMap.mem_erase]
  constructor
  . rintro ⟨hmem, hkey⟩
    refine ⟨hmem, ?_⟩
    rintro rfl
    exact hkey rfl
  . rintro ⟨hmem, hne⟩
    refine ⟨hmem, ?_⟩
    intro hkey
    have hpair := toLex_inj.mp hkey
    exact hne (h.eq_of_timerId hmem hinfo (Prod.mk.inj hpair).2)

theorem Consistent.erase (h : t.Consistent) {info : TimerInfo} (hinfo : info ∈ t.timePointMap.toList)
    : (t.erase info.expireTime info.timerId).Consistent := by
  constructor
  . exact h.nodup.sublist (List.filter_sublist.map _)
  . intro timerId timePoint
    change (t.timerIdMap.erase info.timerId).find? timerId = some timePoint ↔ _
    rw [SortedMap.find?_erase]
    simp only [h.mem_erase hinfo]
    split
    . next heq =>
      simp only [reduceCtorEq, false_iff, not_exists]
      rintro info' ⟨⟨hmem, hne⟩, hid, _⟩
      exact hne (h.eq_of_timerId hmem hinfo (hid.trans heq))
    . next hne =>
      rw [h.find?]
      constructor
      . rintro ⟨info', hmem, hid, htime⟩
        refine ⟨info', ⟨hmem, ?_⟩, hid, htime⟩
        rintro rfl
        exact hne hid.symm
      . rintro ⟨info', ⟨hmem, _⟩, hid, htime⟩
        exact ⟨info', hmem, hid, htime⟩
  . intro info' hinfo'
    exact h.issued info' ((h.mem_erase hinfo).mp hinfo').1

theorem mem_insert (t : Timer) (info info' : TimerInfo)
    : info' ∈ (t.insert info).timePointMap.toList ↔ info' = info ∨ info' ∈ t.timePointMap.toList := by
  exact SortedMultiMap.mem_insert

theorem Consistent.insert (h : t.Consistent) {info : TimerInfo}
    (hfresh : ∀ info' ∈ t.timePointMap.toList, info'.timerId ≠ info.timerId)
    (hissued : info.timerId.toNat ≤ t.timerId.toNat)
    : (t.insert info).Consistent := by
  constructor
  . have hperm := (t.timePointMap.perm_insert info).map TimerInfo.timerId
    rw [show (t.insert info).timePointMap = t.timePointMap.insert info from rfl, hperm.nodup_iff,
      List.map_cons, List.nodup_cons]
    refine ⟨?_, h.nodup⟩
    rw [List.mem_map]
    rintro ⟨info', hmem, heq⟩
    exact hfresh info' hmem heq
  . intro timerId timePoint
    change (t.timerIdMap.insert info.timerId info.expireTime).find? timerId = some timePoint ↔ _
    rw [SortedMap.find?_insert]
    simp only [mem_insert]
    split
    . next heq =>
      have hnone : t.timerIdMap.find? info.timerId = none := by
        rw [Option.eq_none_iff_forall_ne_some]
        intro timePoint' hsome
        obtain ⟨info', hmem, hid, _⟩ := (h.find? _ _).mp hsome
        exact hfresh info' hmem hid
      rw [hnone, Option.getD_none, Option.some.injEq]
      constructor
      . intro htime
        exact ⟨info, .inl rfl, heq.symm, htime⟩
      . rintro ⟨info', rfl | hmem, hid, htime⟩
        . exact htime
        . exact absurd (hid.trans heq) (hfresh info' hmem)
    . next hne =>
      rw [h.find?]
      constructor
      . rintro ⟨info', hmem, hid, htime⟩
        exact ⟨info', .inr hmem, hid, htime⟩
      . rintro ⟨info', rfl | hmem, hid, htime⟩
        . exact absurd hid.symm hne
        . exact ⟨info', hmem, hid, htime⟩
  . intro info' hinfo'
    rw [mem_insert] at hinfo'
    rcases hinfo' with rfl | hmem
    . exact hissued
    . exact h.issued info' hmem

theorem schedule_eq (t : Timer) (timePoint interval now : Int)
    : (t.schedule timePoint interval now).2 = t.timerId + 1
        ∧ (t.schedule timePoint interval now).1.timerId = t.timerId + 1
        ∧ ∀ info,
        info ∈ (t.schedule timePoint interval now).1.timePointMap.toList
          ↔
        info = ⟨t.timerId + 1, timePoint, interval, now⟩ ∨ info ∈ t.timePointMap.toList := by
  unfold schedule
  split
  . refine ⟨rfl, by rw [schedule_i_timerId]; rfl, ?_⟩
    intro info
    rw [schedule_i_timePointMap]
    exact mem_insert _ _ _
  . split
    . refine ⟨rfl, by rw [schedule_i_timerId]; rfl, ?_⟩
      intro info
      rw [schedule_i_timePointMap, mem_insert]
      unfold cancel_i
      simp only [settime_timePointMap]
    . exact ⟨rfl, rfl, fun info => mem_insert _ _ _⟩

theorem Consistent.schedule (h : t.Consistent) (timePoint interval now : Int)
    (hroom : t.timerId.toNat + 1 < 2^64)
    : (t.schedule timePoint interval now).1.Consistent := by
  have hnext : (t.timerId + 1).toNat = t.timerId.toNat + 1 := by
    exact Nat.mod_eq_of_lt hroom
  have hlater : t.timerId.toNat ≤ (t.timerId + 1).toNat := by omega
  have hfresh : ∀ info' ∈ t.timePointMap.toList, info'.timerId ≠ t.timerId + 1 := by
    intro info' hmem heq
    have hle := h.issued info' hmem
    rw [heq] at hle
    omega
  have hinserted : ({ t with timerId := t.timerId + 1 }.insert
      ⟨t.timerId + 1, timePoint, interval, now⟩).Consistent :=
    (@Consistent.of_eq t { t with timerId := t.timerId + 1 } h rfl rfl hlater).insert hfresh
      (Nat.le_refl _)
  have hcancelled : ({ t.cancel_i with timerId := t.timerId + 1 }.insert
      ⟨t.timerId + 1, timePoint, interval, now⟩).Consistent :=
    hinserted.of_eq (by simp [Timer.insert, cancel_i]) (by simp [Timer.insert, cancel_i]) (Nat.le_refl _)
  unfold Timer.schedule
  split
  . exact hinserted.schedule_i
  . split
    . exact hcancelled.schedule_i
    . exact hinserted

theorem schedule_armed (harmed : t.Armed) (hpositive : t.Positive) {timePoint : Int}
    (interval now : Int) (htimePoint : 0 < timePoint)
    : (t.schedule timePoint interval now).1.Armed := by
  have hinserted : ({ t with timerId := t.timerId + 1 }.insert
      ⟨t.timerId + 1, timePoint, interval, now⟩).Positive := by
    intro info hinfo
    rcases (mem_insert _ _ _).mp hinfo with rfl | hold
    . exact htimePoint
    . exact hpositive info hold
  unfold schedule
  split
  . exact schedule_i_armed hinserted
  . next first hfirst =>
    split
    . apply schedule_i_armed
      intro info hinfo
      apply hinserted info
      rw [mem_insert] at hinfo ⊢
      simpa [cancel_i] using hinfo
    . next hle =>
      -- the first timer is still the first one
      intro info hinfo
      have htime := harmed first hfirst
      change t.armed = some info.expireTime
      rw [htime, Option.some.injEq]
      have hmem := SortedMultiMap.mem_of_first? hinfo
      have hkey := SortedMultiMap.first?_le hinfo
        ((mem_insert _ _ _).mpr (.inr (SortedMultiMap.mem_of_first? hfirst)))
      have hinfoFirst : info.expireTime ≤ first.expireTime := Prod.Lex.monotone_fst _ _ hkey
      rcases (mem_insert _ _ _).mp hmem with rfl | hold
      . exact Int.le_antisymm (Int.not_lt.mp hle) hinfoFirst
      . have hfirstInfo : first.expireTime ≤ info.expireTime := Prod.Lex.monotone_fst _ _
          (SortedMultiMap.first?_le hfirst hold)
        exact Int.le_antisymm hfirstInfo hinfoFirst

theorem Consistent.cancel (h : t.Consistent) (timerId : UInt64)
    : (t.cancel timerId).1.Consistent
        ∧ (t.cancel timerId).1.timerId = t.timerId
        ∧ ((t.cancel timerId).2 = true ↔ timerId ∈ t.timePointMap.toList.map TimerInfo.timerId)
        ∧ ∀ info, info ∈ (t.cancel timerId).1.timePointMap.toList ↔ info ∈ t.timePointMap.toList
        ∧ info.timerId ≠ timerId := by
  have hids : timerId ∈ t.timePointMap.toList.map TimerInfo.timerId
      ↔ ∃ timePoint, t.timerIdMap.find? timerId = some timePoint := by
    rw [List.mem_map]
    constructor
    . rintro ⟨info, hmem, hid⟩
      exact ⟨info.expireTime, (h.find? _ _).mpr ⟨info, hmem, hid, rfl⟩⟩
    . rintro ⟨timePoint, hfind⟩
      obtain ⟨info, hmem, hid, _⟩ := (h.find? _ _).mp hfind
      exact ⟨info, hmem, hid⟩
  unfold Timer.cancel
  split
  . next timePoint hfind =>
    obtain ⟨info, hmem, rfl, rfl⟩ := (h.find? _ _).mp hfind
    have hthere := hids.mpr ⟨_, hfind⟩
    have hothers : ∀ info', info' ∈ (t.erase info.expireTime info.timerId).timePointMap.toList
        ↔ info' ∈ t.timePointMap.toList ∧ info'.timerId ≠ info.timerId := by
      intro info'
      rw [h.mem_erase hmem]
      constructor
      . rintro ⟨hmem', hne⟩
        exact ⟨hmem', fun heq => hne (h.eq_of_timerId hmem' hmem heq)⟩
      . rintro ⟨hmem', hne⟩
        exact ⟨hmem', fun heq => hne (by rw [heq])⟩
    split
    . have herased : (t.cancel_i.erase info.expireTime info.timerId).Consistent :=
        (h.erase hmem).of_eq (by simp [Timer.erase, cancel_i]) (by simp [Timer.erase, cancel_i])
          (by simp [Timer.erase, cancel_i])
      refine ⟨herased.schedule_i, by simp [Timer.erase, cancel_i], by simp [hthere], ?_⟩
      intro info'
      rw [schedule_i_timePointMap, ← hothers]
      simp [Timer.erase, cancel_i]
    . exact ⟨h.erase hmem, rfl, by simp [hthere], hothers⟩
  . next hfind =>
    have hgone : timerId ∉ t.timePointMap.toList.map TimerInfo.timerId := by
      rw [hids, hfind]
      simp
    refine ⟨h, rfl, by simp [hgone], ?_⟩
    intro info
    constructor
    . intro hmem
      refine ⟨hmem, ?_⟩
      rintro rfl
      exact hgone (List.mem_map_of_mem hmem)
    . exact fun hmem => hmem.1

theorem Consistent.cancel_armed (h : t.Consistent) (harmed : t.Armed) (hpositive : t.Positive)
    (timerId : UInt64)
    : (t.cancel timerId).1.Armed := by
  have hmem := (h.cancel timerId).2.2.2
  unfold Timer.cancel at hmem ⊢
  split
  . next timePoint hfind =>
    simp only [hfind] at hmem
    split
    . next hfirst =>
      apply schedule_i_armed
      intro info hinfo
      rw [if_pos hfirst, schedule_i_timePointMap] at hmem
      exact hpositive info ((hmem info).mp hinfo).1
    . next hfirst =>
      rw [if_neg hfirst] at hmem
      -- the earliest timer is another one, and it is the earliest still
      intro info hinfo
      have hold := ((hmem info).mp (SortedMultiMap.mem_of_first? hinfo)).1
      cases hfirst' : t.timePointMap.first? with
      | none =>
        rw [SortedMultiMap.first?_eq_none_iff] at hfirst'
        simp [hfirst'] at hold
      | some first =>
        have hne : first.timerId ≠ timerId := by
          intro heq
          apply hfirst
          rw [hfirst', Option.map_some, heq]
        have hfirstMem := (hmem first).mpr ⟨SortedMultiMap.mem_of_first? hfirst', hne⟩
        have hle : info.expireTime ≤ first.expireTime := Prod.Lex.monotone_fst _ _
          (SortedMultiMap.first?_le hinfo hfirstMem)
        have hge : first.expireTime ≤ info.expireTime := Prod.Lex.monotone_fst _ _
          (SortedMultiMap.first?_le hfirst' hold)
        have htime := harmed first hfirst'
        change t.armed = some info.expireTime
        rw [htime, Int.le_antisymm hge hle]
  . exact harmed

def again (now : Int) (info : TimerInfo) : TimerInfo :=
  { info with expireTime := info.expireTime + info.interval, scheduleTime := now }

theorem Consistent.reschedule (h : t.Consistent) {info : TimerInfo}
    (hinfo : info ∈ t.timePointMap.toList) (now : Int)
    : (t.reschedule now info).Consistent
        ∧ (t.reschedule now info).timerId = t.timerId
        ∧ ∀ info',
        info' ∈ (t.reschedule now info).timePointMap.toList
          ↔
        (info' ∈ t.timePointMap.toList ∧ info' ≠ info)
            ∨ (info.interval ≠ 0 ∧ info' = again now info) := by
  have herased := h.erase hinfo
  have hmem := fun info' => @Consistent.mem_erase t h info info' hinfo
  unfold Timer.reschedule
  split
  . next hinterval =>
    refine ⟨?_, rfl, ?_⟩
    . apply herased.insert
      . intro info' hinfo' heq
        rw [hmem] at hinfo'
        exact hinfo'.2 (h.eq_of_timerId hinfo'.1 hinfo heq)
      . exact h.issued info hinfo
    . intro info'
      rw [mem_insert, hmem]
      simp only [hinterval, not_false_eq_true, ne_eq, true_and]
      exact or_comm
  . next hinterval =>
    refine ⟨herased, rfl, ?_⟩
    intro info'
    rw [hmem]
    simp [hinterval]

theorem Consistent.foldl_reschedule {infos : List TimerInfo} (h : t.Consistent)
    (hinfos : ∀ info ∈ infos, info ∈ t.timePointMap.toList)
    (hnodup : infos.Nodup) (now : Int)
    : (infos.foldl (Timer.reschedule now) t).Consistent
        ∧ (infos.foldl (Timer.reschedule now) t).timerId = t.timerId
        ∧ ∀ info',
        info' ∈ (infos.foldl (Timer.reschedule now) t).timePointMap.toList
          ↔
        (info' ∈ t.timePointMap.toList ∧ info' ∉ infos) ∨ ∃ info ∈ infos, info.interval ≠ 0
            ∧ info' = again now info := by
  induction infos generalizing t with
  | nil => exact ⟨h, rfl, by simp⟩
  | cons info infos ih =>
    rw [List.forall_mem_cons] at hinfos
    rw [List.nodup_cons] at hnodup
    obtain ⟨hconsistent, htimerId, hmem⟩ := h.reschedule hinfos.1 now
    have hrest : ∀ info' ∈ infos, info' ∈ (t.reschedule now info).timePointMap.toList := by
      intro info' hinfo'
      rw [hmem]
      refine .inl ⟨hinfos.2 info' hinfo', ?_⟩
      rintro rfl
      exact hnodup.1 hinfo'
    obtain ⟨hconsistent', htimerId', hmem'⟩ := ih hconsistent hrest hnodup.2
    rw [List.foldl_cons]
    refine ⟨hconsistent', htimerId'.trans htimerId, ?_⟩
    intro info'
    rw [hmem', hmem]
    -- what has been put back is not in the rest of the list, an identifier is there only once
    have hagain : again now info ∉ infos := by
      intro hin
      obtain heq := h.eq_of_timerId (hinfos.2 _ hin) hinfos.1 rfl
      exact hnodup.1 (heq ▸ hin)
    simp only [List.mem_cons, exists_eq_or_imp, not_or]
    constructor
    . rintro (⟨⟨hin, hne⟩ | ⟨hinterval, rfl⟩, hnot⟩ | hput)
      . exact .inl ⟨hin, hne, hnot⟩
      . exact .inr (.inl ⟨hinterval, rfl⟩)
      . exact .inr (.inr hput)
    . rintro (⟨hin, hne, hnot⟩ | ⟨hinterval, rfl⟩ | hput)
      . exact .inl ⟨.inl ⟨hin, hne⟩, hnot⟩
      . exact .inl ⟨.inr ⟨hinterval, rfl⟩, hagain⟩
      . exact .inr hput

theorem expire_snd (t : Timer) (now : Int)
    : (t.expire now).2 = t.timePointMap.toList.filter (fun info => info.expireTime ≤ now) := by
  apply t.timePointMap.takeWhile_eq_filter
  intro a b hle hb
  have htime : a.expireTime ≤ b.expireTime := Prod.Lex.monotone_fst _ _ hle
  simp only [ge_iff_le, decide_eq_true_eq] at hb ⊢
  omega

theorem mem_expire_snd {now : Int} {info : TimerInfo}
    : info ∈ (t.expire now).2 ↔ info ∈ t.timePointMap.toList ∧ info.expireTime ≤ now := by
  rw [expire_snd, List.mem_filter, decide_eq_true_iff]

theorem expire_fst (t : Timer) (now : Int)
    : (t.expire now).1
        = ((t.expire now).2.foldl (Timer.reschedule now) { t with armed := none }).schedule_i := by
  rfl

theorem Consistent.expire (h : t.Consistent) (now : Int)
    : (t.expire now).1.Consistent
        ∧ (t.expire now).1.timerId = t.timerId
        ∧ ∀ info',
        info' ∈ (t.expire now).1.timePointMap.toList
          ↔
        (info' ∈ t.timePointMap.toList ∧ now < info'.expireTime)
          ∨ ∃ info ∈ t.timePointMap.toList, info.expireTime ≤ now ∧ info.interval ≠ 0
              ∧ info' = again now info := by
  have hmem := fun info => @mem_expire_snd t now info
  have hnodup : (t.expire now).2.Nodup := by
    rw [expire_snd]
    exact (h.nodup.of_map _).filter _
  have hunarmed : ({ t with armed := none } : Timer).Consistent := h.of_eq rfl rfl (Nat.le_refl _)
  obtain ⟨hconsistent, htimerId, hall⟩ := hunarmed.foldl_reschedule
    (fun info hinfo => ((hmem info).mp hinfo).1) hnodup now
  refine ⟨hconsistent.schedule_i, ?_, ?_⟩
  . exact (schedule_i_timerId _).trans htimerId
  . intro info'
    rw [expire_fst, schedule_i_timePointMap, hall]
    simp only [hmem, and_assoc]
    constructor
    . rintro (⟨hin, hnot⟩ | hput)
      . exact .inl ⟨hin, Int.not_le.mp (fun hle => hnot ⟨hin, hle⟩)⟩
      . exact .inr hput
    . rintro (⟨hin, hlt⟩ | hput)
      . exact .inl ⟨hin, fun hle => absurd hle.2 (Int.not_le.mpr hlt)⟩
      . exact .inr hput

theorem Consistent.expire_armed (h : t.Consistent) (hpositive : t.Positive) {now : Int}
    (hagain : ∀ info ∈ t.timePointMap.toList, info.expireTime ≤ now → info.interval ≠ 0
      → 0 < info.expireTime + info.interval)
    : (t.expire now).1.Armed ∧ (t.expire now).1.Positive := by
  have hmem := (h.expire now).2.2
  have hpositive' : (t.expire now).1.Positive := by
    intro info hinfo
    rcases (hmem info).mp hinfo with ⟨hold, _⟩ | ⟨info', hold, hle, hinterval, rfl⟩
    . exact hpositive info hold
    . exact hagain info' hold hle hinterval
  refine ⟨?_, hpositive'⟩
  rw [expire_fst] at hpositive' ⊢
  apply schedule_i_armed
  intro info hinfo
  apply hpositive' info
  rw [schedule_i_timePointMap]
  exact hinfo

end

end Timer
end Emane

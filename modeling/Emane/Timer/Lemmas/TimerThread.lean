import Mathlib.Data.List.Pairwise
import Mathlib.Tactic.Ring
import Emane.Lib.Machine
import Emane.Timer.Lemmas.Timer

/-!
This module contains what holds in every run of timers with their thread.
-/

namespace Emane

namespace TimerEvent

def timerId? : TimerEvent → Option UInt64
  | scheduled timerId _ => some timerId
  | cancelled timerId true => some timerId
  | cancelled _ false => none
  | started timerId => some timerId

end TimerEvent

namespace TimerThread

def storedIds (s : TimerThread) : List UInt64 :=
  s.timer.timePointMap.toList.map TimerInfo.timerId

def expiredIds (s : TimerThread) : List UInt64 :=
  s.expired.map TimerInfo.timerId

def Distinct (e e' : TimerEvent) : Prop :=
  ∀ timerId interval interval', e = .scheduled timerId interval → e' ≠ .scheduled timerId interval'

def Final (timerId : UInt64) (e e' : TimerEvent) : Prop :=
  e = .cancelled timerId true → e' ≠ .started timerId

theorem distinct_append {events : List TimerEvent} (h : events.Pairwise Distinct) {e : TimerEvent}
    (he : ∀ timerId interval, e ≠ .scheduled timerId interval)
    : (events ++ [e]).Pairwise Distinct := by
  rw [List.pairwise_append]
  refine ⟨h, List.pairwise_singleton _ _, ?_⟩
  intro _ _ e' he' timerId _ interval _ heq
  rw [List.mem_singleton] at he'
  exact he timerId interval (he'.symm.trans heq)

theorem final_append {events : List TimerEvent} {timerId : UInt64}
    (h : events.Pairwise (Final timerId)) {e : TimerEvent}
    (he : e = .started timerId → .cancelled timerId true ∉ events)
    : (events ++ [e]).Pairwise (Final timerId) := by
  rw [List.pairwise_append]
  refine ⟨h, List.pairwise_singleton _ _, ?_⟩
  intro e' hmem e'' he'' hcancelled hstarted
  rw [List.mem_singleton] at he''
  rw [hcancelled] at hmem
  exact he (he''.symm.trans hstarted) hmem

structure Invariant (s : TimerThread) : Prop where
  consistent : s.timer.Consistent
  issued : ∀ e ∈ s.events, ∀ timerId, e.timerId? = some timerId → timerId.toNat ≤ s.timer.timerId.toNat
  distinct : s.events.Pairwise Distinct
  stored : ∀ info ∈ s.timer.timePointMap.toList, .scheduled info.timerId info.interval ∈ s.events
  expired : ∀ info ∈ s.expired, .scheduled info.timerId info.interval ∈ s.events
  expiredNodup : s.expiredIds.Nodup

def HasRoom (s : TimerThread) : Action → Prop
  | .schedule _ _ _ => s.timer.timerId.toNat + 1 < 2^64
  | _ => True

section

variable {s s' : TimerThread} {a : Action}

theorem init_invariant : init.Invariant := by
  constructor
  . exact Timer.init_consistent
  . simp [init]
  . exact .nil
  . simp [init, Timer.init, SortedMultiMap.empty]
  . simp [init]
  . exact List.nodup_nil

theorem step_cases (h : s.step a = some s')
    : (∃ timePoint interval now,
        a = .schedule timePoint interval now
          ∧ s' = {
          timer := (s.timer.schedule timePoint interval now).1
          expired := s.expired
          events := s.events ++ [.scheduled (s.timer.timerId + 1) interval]
        })
        ∨ (∃ timerId,
        a = .cancel timerId
          ∧ s' = {
          timer := (s.timer.cancel timerId).1
          expired := s.expired
          events := s.events ++ [.cancelled timerId (s.timer.cancel timerId).2]
        })
        ∨ (∃ now,
        a = .expire now
          ∧ s.expired = []
          ∧ s' = { timer := (s.timer.expire now).1, expired :=
            (s.timer.expire now).2, events := s.events })
        ∨ ∃ info expired,
        a = .callback
          ∧ s.expired = info :: expired
          ∧ s' = { timer := s.timer, expired := expired, events :=
              s.events ++ [.started info.timerId] } := by
  cases a with
  | schedule timePoint interval now =>
    have hid := (Timer.schedule_eq s.timer timePoint interval now).1
    have hschedule : s.step (.schedule timePoint interval now) = some {
      timer := (s.timer.schedule timePoint interval now).1
      expired := s.expired
      events := s.events ++ [.scheduled (s.timer.schedule timePoint interval now).2 interval]
    } := rfl
    rw [hschedule, hid] at h
    exact .inl ⟨timePoint, interval, now, rfl, (Option.some.inj h).symm⟩
  | cancel timerId => exact .inr (.inl ⟨timerId, rfl, (Option.some.inj h).symm⟩)
  | expire now =>
    cases hexpired : s.expired with
    | nil =>
      simp only [step, hexpired] at h
      exact .inr (.inr (.inl ⟨now, rfl, rfl, (Option.some.inj h).symm⟩))
    | cons info expired => simp [step, hexpired] at h
  | callback =>
    cases hexpired : s.expired with
    | nil => simp [step, hexpired] at h
    | cons info expired =>
      simp only [step, hexpired] at h
      exact .inr (.inr (.inr ⟨info, expired, rfl, rfl, (Option.some.inj h).symm⟩))

theorem toNat_next (hroom : s.timer.timerId.toNat + 1 < 2^64)
    : (s.timer.timerId + 1).toNat = s.timer.timerId.toNat + 1 := by
  exact Nat.mod_eq_of_lt hroom

theorem Invariant.fresh (hinv : s.Invariant) (hroom : s.timer.timerId.toNat + 1 < 2^64)
    {e : TimerEvent} (he : e ∈ s.events)
    : e.timerId? ≠ some (s.timer.timerId + 1) := by
  intro heq
  have hle := hinv.issued e he _ heq
  rw [toNat_next hroom] at hle
  omega

theorem Invariant.step (hinv : s.Invariant) (hok : s.HasRoom a) (hstep : s.step a = some s')
    : s'.Invariant := by
  rcases step_cases hstep with ⟨timePoint, interval, now, rfl, rfl⟩ | ⟨timerId, rfl, rfl⟩ | ⟨now,
    rfl, hexpired, rfl⟩
    | ⟨info, expired, rfl, hexpired, rfl⟩
  . obtain ⟨_, hnext, hmem⟩ := Timer.schedule_eq s.timer timePoint interval now
    have hlater := @toNat_next s hok
    constructor
    . exact hinv.consistent.schedule timePoint interval now hok
    . rw [List.forall_mem_append, List.forall_mem_singleton, hnext]
      constructor
      . intro e he timerId heq
        have hle := hinv.issued e he timerId heq
        omega
      . intro timerId heq
        cases heq
        exact Nat.le_refl _
    . rw [List.pairwise_append]
      refine ⟨hinv.distinct, List.pairwise_singleton _ _, ?_⟩
      intro e he e' he' timerId interval' interval'' heq heq'
      rw [List.mem_singleton] at he'
      rw [he', TimerEvent.scheduled.injEq] at heq'
      rw [heq] at he
      exact hinv.fresh hok he (by rw [heq'.1]; rfl)
    . intro info hinfo
      rcases (hmem info).mp hinfo with rfl | hold
      . simp
      . simp [hinv.stored info hold]
    . intro info hinfo
      simp [hinv.expired info hinfo]
    . exact hinv.expiredNodup
  . obtain ⟨hconsistent, hnext, hresult, hmem⟩ := hinv.consistent.cancel timerId
    constructor
    . exact hconsistent
    . rw [List.forall_mem_append, List.forall_mem_singleton, hnext]
      refine ⟨hinv.issued, ?_⟩
      intro timerId' heq
      cases hcancel : (s.timer.cancel timerId).2 with
      | false => simp [hcancel, TimerEvent.timerId?] at heq
      | true =>
        obtain ⟨info, hinfo, rfl⟩ := List.mem_map.mp (hresult.mp hcancel)
        rw [hcancel] at heq
        cases heq
        exact hinv.consistent.issued info hinfo
    . exact distinct_append hinv.distinct (by simp)
    . intro info hinfo
      simp [hinv.stored info ((hmem info).mp hinfo).1]
    . intro info hinfo
      simp [hinv.expired info hinfo]
    . exact hinv.expiredNodup
  . obtain ⟨hconsistent, hnext, hmem⟩ := hinv.consistent.expire now
    constructor
    . exact hconsistent
    . rw [hnext]
      exact hinv.issued
    . exact hinv.distinct
    . intro info hinfo
      rcases (hmem info).mp hinfo with ⟨hold, _⟩ | ⟨info', hold, _, _, rfl⟩
      . exact hinv.stored info hold
      . exact hinv.stored info' hold
    . intro info hinfo
      exact hinv.stored info (Timer.mem_expire_snd.mp hinfo).1
    . unfold expiredIds
      rw [Timer.expire_snd]
      exact hinv.consistent.nodup.sublist (List.filter_sublist.map _)
  . have hnodup := hinv.expiredNodup
    have hcollected := hinv.expired
    unfold expiredIds at hnodup
    rw [hexpired, List.map_cons, List.nodup_cons] at hnodup
    rw [hexpired, List.forall_mem_cons] at hcollected
    constructor
    . exact hinv.consistent
    . rw [List.forall_mem_append, List.forall_mem_singleton]
      refine ⟨hinv.issued, ?_⟩
      intro timerId heq
      cases heq
      exact hinv.issued _ hcollected.1 _ rfl
    . exact distinct_append hinv.distinct (by simp)
    . intro info' hinfo'
      simp [hinv.stored info' hinfo']
    . intro info' hinfo'
      simp [hcollected.2 info' hinfo']
    . exact hnodup.2

theorem storedIds_of_schedule {timePoint interval now : Int}
    (heq : s'.timer = (s.timer.schedule timePoint interval now).1)
    {timerId : UInt64} (h : timerId ∈ s'.storedIds)
    : timerId = s.timer.timerId + 1 ∨ timerId ∈ s.storedIds := by
  obtain ⟨_, _, hmem⟩ := Timer.schedule_eq s.timer timePoint interval now
  obtain ⟨info, hinfo, rfl⟩ := List.mem_map.mp h
  rw [heq] at hinfo
  rcases (hmem info).mp hinfo with rfl | hold
  . exact .inl rfl
  . exact .inr (List.mem_map_of_mem hold)

theorem Invariant.storedIds_of_cancel (hinv : s.Invariant) {timerId' : UInt64}
    (heq : s'.timer = (s.timer.cancel timerId').1)
    {timerId : UInt64} (h : timerId ∈ s'.storedIds)
    : timerId ∈ s.storedIds ∧ timerId ≠ timerId' := by
  obtain ⟨_, _, _, hmem⟩ := hinv.consistent.cancel timerId'
  obtain ⟨info, hinfo, rfl⟩ := List.mem_map.mp h
  rw [heq] at hinfo
  obtain ⟨hold, hne⟩ := (hmem info).mp hinfo
  exact ⟨List.mem_map_of_mem hold, hne⟩

theorem Invariant.storedIds_of_expire (hinv : s.Invariant) {now : Int}
    (heq : s'.timer = (s.timer.expire now).1)
    {timerId : UInt64} (h : timerId ∈ s'.storedIds)
    : ∃ info ∈ s.timer.timePointMap.toList, info.timerId = timerId
        ∧ (now < info.expireTime ∨ info.interval ≠ 0) := by
  obtain ⟨_, _, hmem⟩ := hinv.consistent.expire now
  obtain ⟨info, hinfo, rfl⟩ := List.mem_map.mp h
  rw [heq] at hinfo
  rcases (hmem info).mp hinfo with ⟨hold, hlt⟩ | ⟨info', hold, _, hinterval, rfl⟩
  . exact ⟨info, hold, rfl, .inl hlt⟩
  . exact ⟨info', hold, rfl, .inr hinterval⟩

theorem expiredIds_of_expire {now : Int} (heq : s'.expired = (s.timer.expire now).2) {timerId : UInt64}
    (h : timerId ∈ s'.expiredIds)
    : ∃ info ∈ s.timer.timePointMap.toList, info.timerId = timerId ∧ info.expireTime ≤ now := by
  obtain ⟨info, hinfo, rfl⟩ := List.mem_map.mp h
  rw [heq] at hinfo
  obtain ⟨hold, hle⟩ := Timer.mem_expire_snd.mp hinfo
  exact ⟨info, hold, rfl, hle⟩

structure Over (s : TimerThread) (timerId : UInt64) : Prop where
  gone : .cancelled timerId true ∈ s.events → timerId ∉ s.storedIds ∧ timerId ∉ s.expiredIds
  final : s.events.Pairwise (Final timerId)

theorem Over.step (hinv : s.Invariant) {timerId : UInt64} (h : s.Over timerId) (hok : s.HasRoom a)
    (hcancel : a = .cancel timerId → timerId ∈ s.storedIds → timerId ∉ s.expiredIds)
    (hstep : s.step a = some s')
    : s'.Over timerId := by
  rcases step_cases hstep with ⟨timePoint, interval, now, rfl, rfl⟩ | ⟨timerId', rfl, rfl⟩ | ⟨now,
    rfl, hexpired, rfl⟩
    | ⟨info, expired, rfl, hexpired, rfl⟩
  . constructor
    . intro hcancelled
      simp only [List.mem_append, List.mem_singleton, reduceCtorEq, or_false] at hcancelled
      obtain ⟨hstored, hexpired⟩ := h.gone hcancelled
      refine ⟨?_, hexpired⟩
      intro hin
      rcases @storedIds_of_schedule s _ _ _ _ rfl _ hin with rfl | hold
      . exact hinv.fresh hok hcancelled rfl
      . exact hstored hold
    . exact final_append h.final (by simp)
  . obtain ⟨_, _, hresult, _⟩ := hinv.consistent.cancel timerId'
    constructor
    . intro hcancelled
      simp only [List.mem_append, List.mem_singleton, TimerEvent.cancelled.injEq] at hcancelled
      rcases hcancelled with hcancelled | ⟨rfl, hsuccess⟩
      . obtain ⟨hstored, hexpired⟩ := h.gone hcancelled
        exact ⟨fun hin => hstored (hinv.storedIds_of_cancel rfl hin).1, hexpired⟩
      . exact ⟨fun hin => (hinv.storedIds_of_cancel rfl hin).2 rfl, hcancel
          rfl (hresult.mp hsuccess.symm)⟩
    . exact final_append h.final (by simp)
  . constructor
    . intro hcancelled
      have hstored := (h.gone hcancelled).1
      constructor
      . intro hin
        obtain ⟨info, hold, rfl, _⟩ := hinv.storedIds_of_expire rfl hin
        exact hstored (List.mem_map_of_mem hold)
      . intro hin
        obtain ⟨info, hold, rfl, _⟩ := @expiredIds_of_expire s _ now rfl _ hin
        exact hstored (List.mem_map_of_mem hold)
    . exact h.final
  . have hgone := h.gone
    unfold expiredIds at hgone
    rw [hexpired, List.map_cons, List.mem_cons, not_or] at hgone
    constructor
    . intro hcancelled
      simp only [List.mem_append, List.mem_singleton, reduceCtorEq, or_false] at hcancelled
      obtain ⟨hstored, _, hrest⟩ := hgone hcancelled
      exact ⟨hstored, hrest⟩
    . apply final_append h.final
      intro hstarted hcancelled
      rw [TimerEvent.started.injEq] at hstarted
      exact (hgone hcancelled).2.1 hstarted.symm

def OneShot (s : TimerThread) (timerId : UInt64) : Prop :=
  ∀ interval, .scheduled timerId interval ∈ s.events → interval = 0

structure Once (s : TimerThread) (timerId : UInt64) : Prop where
  count_le : s.events.count (.started timerId) ≤ 1
  expired : timerId ∈ s.expiredIds → .started timerId ∉ s.events ∧ timerId ∉ s.storedIds
  stored : timerId ∈ s.storedIds → .started timerId ∉ s.events

theorem OneShot.of_append {timerId : UInt64} {events : List TimerEvent} (h : s'.OneShot timerId)
    (heq : s'.events = s.events ++ events)
    : s.OneShot timerId := by
  intro interval hmem
  apply h
  rw [heq]
  exact List.mem_append_left _ hmem

theorem Once.step (hinv : s.Invariant) {timerId : UInt64} (h : s.OneShot timerId → s.Once timerId)
    (hok : s.HasRoom a)
    (hstep : s.step a = some s') (honeShot : s'.OneShot timerId)
    : s'.Once timerId := by
  rcases step_cases hstep with ⟨timePoint, interval, now, rfl, rfl⟩ | ⟨timerId', rfl, rfl⟩ | ⟨now,
    rfl, hexpired, rfl⟩
    | ⟨info, expired, rfl, hexpired, rfl⟩
  . have honce := h (@OneShot.of_append s _ timerId _ honeShot rfl)
    have hnot : timerId = s.timer.timerId + 1 → .started timerId ∉ s.events := by
      rintro rfl hstarted
      exact hinv.fresh hok hstarted rfl
    constructor
    . simpa using honce.count_le
    . intro hin
      obtain ⟨hstarted, hstored⟩ := honce.expired hin
      refine ⟨by simpa using hstarted, ?_⟩
      intro hin'
      rcases @storedIds_of_schedule s _ _ _ _ rfl _ hin' with rfl | hold
      . obtain ⟨info, hinfo, heq⟩ := List.mem_map.mp hin
        exact hinv.fresh hok (hinv.expired info hinfo) (by rw [← heq]; rfl)
      . exact hstored hold
    . intro hin
      rcases @storedIds_of_schedule s _ _ _ _ rfl _ hin with heq | hold
      . simpa using hnot heq
      . simpa using honce.stored hold
  . have honce := h (@OneShot.of_append s _ timerId _ honeShot rfl)
    constructor
    . simpa using honce.count_le
    . intro hin
      obtain ⟨hstarted, hstored⟩ := honce.expired hin
      exact ⟨by simpa using hstarted, fun hin' => hstored (hinv.storedIds_of_cancel rfl hin').1⟩
    . intro hin
      simpa using honce.stored (hinv.storedIds_of_cancel rfl hin).1
  . have honce := h honeShot
    constructor
    . exact honce.count_le
    . intro hin
      obtain ⟨info, hold, rfl, hle⟩ := @expiredIds_of_expire s _ now rfl _ hin
      refine ⟨honce.stored (List.mem_map_of_mem hold), ?_⟩
      intro hin'
      obtain ⟨info', hold', heq, hlater⟩ := hinv.storedIds_of_expire rfl hin'
      rw [hinv.consistent.eq_of_timerId hold' hold heq] at hlater
      rcases hlater with hlt | hinterval
      . exact absurd hle (Int.not_le.mpr hlt)
      -- a timer that fires once is not put back
      . exact absurd (honeShot _ (hinv.stored info hold)) hinterval
    . intro hin
      obtain ⟨info, hold, rfl, _⟩ := hinv.storedIds_of_expire rfl hin
      exact honce.stored (List.mem_map_of_mem hold)
  . have honce := h (@OneShot.of_append s _ timerId _ honeShot rfl)
    have hnodup := hinv.expiredNodup
    have hcollected := honce.expired
    unfold expiredIds at hnodup hcollected
    rw [hexpired, List.map_cons] at hnodup hcollected
    rw [List.nodup_cons] at hnodup
    by_cases heq : timerId = info.timerId
    . obtain ⟨hstarted, hstored⟩ := hcollected (by simp [heq])
      constructor
      . have hzero := List.count_eq_zero.mpr hstarted
        simp only [List.count_append, hzero]
        exact Nat.le_trans (Nat.add_le_add_left List.count_le_length _) (by simp)
      . intro hin
        rw [heq] at hin
        exact absurd hin hnodup.1
      . intro hin
        exact absurd hin hstored
    . have hne : TimerEvent.started info.timerId ≠ .started timerId := by
        intro hsame
        rw [TimerEvent.started.injEq] at hsame
        exact heq hsame.symm
      constructor
      . simpa [List.count_singleton, hne] using honce.count_le
      . intro hin
        obtain ⟨hstarted, hstored⟩ := hcollected (List.mem_cons_of_mem _ hin)
        exact ⟨by simpa [hne.symm] using hstarted, hstored⟩
      . intro hin
        simpa [hne.symm] using honce.stored hin

end

/--
All times are after the epoch, also those of timers that are put back, and there are identifiers
left.
-/
def Admissible (s : TimerThread) : Action → Prop
  | .schedule timePoint _ _ => 0 < timePoint ∧ s.timer.timerId.toNat + 1 < 2^64
  | .expire now =>
    ∀ info ∈ s.timer.timePointMap.toList, info.expireTime ≤ now → info.interval ≠ 0
      → 0 < info.expireTime + info.interval
  | _ => True

instance Admissible.decidable (s : TimerThread) : (a : Action) → Decidable (s.Admissible a)
  | .schedule timePoint _ _ =>
    inferInstanceAs (Decidable (0 < timePoint ∧ s.timer.timerId.toNat + 1 < 2^64))
  | .expire now => inferInstanceAs (Decidable (∀ info ∈ s.timer.timePointMap.toList,
      info.expireTime ≤ now → info.interval ≠ 0 → 0 < info.expireTime + info.interval))
  | .cancel _ => isTrue trivial
  | .callback => isTrue trivial

structure Sound (s : TimerThread) : Prop where
  inv : s.Invariant
  armed : s.timer.Armed
  positive : s.timer.Positive
  once : ∀ timerId, s.OneShot timerId → s.Once timerId
  ended : ∀ timerId, s.OneShot timerId → s.Over timerId

section

variable {s s' : TimerThread} {a : Action}

theorem init_sound : init.Sound := by
  constructor
  . exact init_invariant
  . intro info hfirst
    simp [init, Timer.init, SortedMultiMap.empty, SortedMultiMap.first?] at hfirst
  . intro info hinfo
    simp [init, Timer.init, SortedMultiMap.empty] at hinfo
  . intro timerId _
    constructor
    . simp [init]
    . simp [init, expiredIds]
    . simp [init]
  . intro timerId _
    constructor
    . simp [init]
    . exact .nil

theorem Admissible.hasRoom (h : s.Admissible a) : s.HasRoom a := by
  cases a with
  | schedule timePoint interval now => exact h.2
  | cancel timerId => trivial
  | expire now => trivial
  | callback => trivial

theorem events_of_step (hstep : s.step a = some s') : ∃ events, s'.events = s.events ++ events := by
  rcases step_cases hstep with ⟨_, _, _, _, rfl⟩ | ⟨_, _, rfl⟩ | ⟨_, _, _, rfl⟩ | ⟨_, _, _, _, rfl⟩
  . exact ⟨_, rfl⟩
  . exact ⟨_, rfl⟩
  . exact ⟨[], (List.append_nil _).symm⟩
  . exact ⟨_, rfl⟩

theorem Sound.timer (h : s.Sound) (hok : s.Admissible a) (hstep : s.step a = some s')
    : s'.timer.Armed ∧ s'.timer.Positive := by
  rcases step_cases hstep with ⟨timePoint, interval, now, rfl, rfl⟩ | ⟨timerId', rfl, rfl⟩ | ⟨now,
    rfl, hexpired, rfl⟩
    | ⟨info, expired, rfl, hexpired, rfl⟩
  . refine ⟨Timer.schedule_armed h.armed h.positive interval now hok.1, ?_⟩
    intro info hinfo
    rcases ((Timer.schedule_eq s.timer timePoint interval now).2.2 info).mp hinfo with rfl | hold
    . exact hok.1
    . exact h.positive info hold
  . refine ⟨h.inv.consistent.cancel_armed h.armed h.positive timerId', ?_⟩
    intro info hinfo
    exact h.positive info (((h.inv.consistent.cancel timerId').2.2.2 info).mp hinfo).1
  . exact h.inv.consistent.expire_armed h.positive hok
  . exact ⟨h.armed, h.positive⟩

theorem Sound.step (h : s.Sound) (hok : s.Admissible a) (hstep : s.step a = some s') : s'.Sound := by
  obtain ⟨harmed, hpositive⟩ := h.timer hok hstep
  obtain ⟨events, hevents⟩ := events_of_step hstep
  constructor
  . exact h.inv.step hok.hasRoom hstep
  . exact harmed
  . exact hpositive
  . intro timerId honeShot
    exact Once.step h.inv (h.once timerId) hok.hasRoom hstep honeShot
  . intro timerId honeShot
    have hold := honeShot.of_append hevents
    apply Over.step h.inv (h.ended timerId hold) hok.hasRoom ?_ hstep
    intro _ hstored hexpired
    exact ((h.once timerId hold).expired hexpired).2 hstored

theorem Invariant.oneShot (hinv : s.Invariant) {timerId : UInt64}
    (h : .scheduled timerId 0 ∈ s.events) : s.OneShot timerId := by
  intro interval hmem
  by_contra hne
  have hsymm : Std.Symm Distinct := ⟨by
    intro e e' hdistinct timerId interval interval' heq heq'
    exact hdistinct timerId interval' interval heq' heq⟩
  have hdistinct := hinv.distinct.forall h hmem (by
    intro heq
    rw [TimerEvent.scheduled.injEq] at heq
    exact hne heq.2.symm)
  exact hdistinct timerId 0 interval rfl rfl

end

theorem store_of_run
    {actions : List Action} {s : TimerThread} (hok : Guarded step Admissible init actions)
    (hrun : run step init actions = some s)
    : (∀ timerId timePoint,
        s.timer.timerIdMap.find? timerId = some timePoint
          ↔
        ∃ info ∈ s.timer.timePointMap.toList, info.timerId = timerId ∧ info.expireTime = timePoint)
        ∧ (s.timer.timePointMap.toList.map TimerInfo.timerId).Nodup
        ∧ s.events.Pairwise Distinct
        ∧ (∀ first, s.timer.timePointMap.first? = some first →
        s.timer.armed = some first.expireTime ∧ ∀ info ∈ s.timer.timePointMap.toList,
          first.expireTime ≤ info.expireTime)
        ∧ (∀ now s',
        s.step (.expire now) = some s'
          →
        s'.expired = s.timer.timePointMap.toList.filter (fun info => info.expireTime ≤ now)
          ∧ s'.expired.Pairwise (fun info info' => info.key ≤ info'.key)
          ∧ ∀ info',
          info' ∈ s'.timer.timePointMap.toList
            ↔
          (info' ∈ s.timer.timePointMap.toList ∧ now < info'.expireTime)
            ∨ ∃ info ∈ s.timer.timePointMap.toList, info.expireTime ≤ now ∧ info.interval ≠ 0
              ∧ info' = Timer.again now info)
        ∧ ∀ timerId, .scheduled timerId 0 ∈ s.events →
        s.events.count (.started timerId) ≤ 1 ∧ s.events.Pairwise (Final timerId) := by
  have hsound := @run_inv _ _ step Admissible Sound (fun _ _ _ h hok hstep => h.step hok hstep) init
    actions s init_sound hok hrun
  refine ⟨hsound.inv.consistent.find?, hsound.inv.consistent.nodup, hsound.inv.distinct, ?_, ?_, ?_⟩
  . intro first hfirst
    refine ⟨hsound.armed first hfirst, ?_⟩
    intro info hinfo
    exact Prod.Lex.monotone_fst _ _ (SortedMultiMap.first?_le hfirst hinfo)
  . intro now s' hstep
    rcases step_cases hstep with ⟨_, _, _, heq, _⟩ | ⟨_, heq, _⟩ | ⟨now', heq, _, rfl⟩ | ⟨_, _, heq, _, _⟩
    . simp at heq
    . simp at heq
    . obtain rfl := Action.expire.inj heq
      have hfilter := Timer.expire_snd s.timer now
      refine ⟨hfilter, ?_, (hsound.inv.consistent.expire now).2.2⟩
      rw [hfilter]
      exact s.timer.timePointMap.sorted.filter _
    . simp at heq
  . intro timerId hscheduled
    have honeShot := hsound.inv.oneShot hscheduled
    exact ⟨(hsound.once timerId honeShot).count_le, (hsound.ended timerId honeShot).final⟩

def twoTimers : List Action :=
  [.schedule 5 0 1, .schedule 5 3 1, .cancel 1, .expire 6, .callback, .expire 7]

theorem store_of_run_example
    : Guarded step Admissible init twoTimers
        ∧ ∃ s,
        run step init twoTimers = some s
          ∧ s.events.count (.started 1) ≤ 1
          ∧ s.events = [.scheduled 1 0, .scheduled 2 3, .cancelled 1 true, .started 2]
          ∧ s.timer.armed = some 8 := by
  have hok : Guarded step Admissible init twoTimers := by decide +kernel
  have hresult : (run step init twoTimers).map (fun s => (s.events, s.timer.armed))
      = some ([.scheduled 1 0, .scheduled 2 3, .cancelled 1 true, .started 2],
        some 8) := by decide +kernel
  rw [Option.map_eq_some_iff] at hresult
  obtain ⟨s, hrun, hresult⟩ := hresult
  rw [Prod.mk.injEq] at hresult
  obtain ⟨_, _, _, _, _, hcallbacks⟩ := store_of_run hok hrun
  refine ⟨hok, s, hrun, ?_, hresult⟩
  exact (hcallbacks 1 (by simp [hresult.1])).1

theorem run_replicate_schedule (n : Nat)
    : ∃ s,
        run step init (List.replicate n (.schedule 1 0 0)) = some s
          ∧ s.timer.timerId = .ofNat n
          ∧ s.events = (List.range n).map (fun i => .scheduled (.ofNat (i + 1)) 0) := by
  induction n with
  | zero => exact ⟨init, rfl, rfl, rfl⟩
  | succ n ih =>
    obtain ⟨s, hrun, htimerId, hevents⟩ := ih
    have hid := (Timer.schedule_eq s.timer 1 0 0).1
    have hnext := (Timer.schedule_eq s.timer 1 0 0).2.1
    have hsucc : UInt64.ofNat n + 1 = UInt64.ofNat (n + 1) := by
      rw [UInt64.ofNat_add]
      rfl
    rw [htimerId, hsucc] at hid hnext
    refine ⟨{
      timer := (s.timer.schedule 1 0 0).1
      expired := s.expired
      events := s.events ++ [.scheduled (s.timer.schedule 1 0 0).2 0]
    }, ?_, hnext, ?_⟩
    . rw [List.replicate_succ', run_append, hrun]
      rfl
    . rw [hevents, hid, List.range_succ, List.map_append]
      rfl

theorem store_of_run_counterexample
    : ∃ s, run step init (List.replicate (2^64 + 1) (.schedule 1 0 0)) = some s
        ∧ ¬ s.events.Pairwise Distinct := by
  obtain ⟨s, hrun, _, hevents⟩ := run_replicate_schedule (2^64 + 1)
  refine ⟨s, hrun, ?_⟩
  rw [hevents, List.pairwise_map]
  intro hdistinct
  have hpair := List.pairwise_iff_getElem.mp hdistinct 0 (2^64) (by simp) (by simp) (by decide)
  rw [List.getElem_range, List.getElem_range] at hpair
  exact hpair 1 0 0 rfl rfl

def InTime (s : TimerThread) : Action → Prop
  | .schedule _ _ _ => s.timer.timerId.toNat + 1 < 2^64
  | .cancel timerId => timerId ∈ s.storedIds → timerId ∉ s.expiredIds
  | _ => True

instance InTime.decidable (s : TimerThread) : (a : Action) → Decidable (s.InTime a)
  | .schedule _ _ _ => inferInstanceAs (Decidable (s.timer.timerId.toNat + 1 < 2^64))
  | .cancel timerId => inferInstanceAs (Decidable (timerId ∈ s.storedIds → timerId ∉ s.expiredIds))
  | .expire _ => isTrue trivial
  | .callback => isTrue trivial

section

variable {s : TimerThread}

theorem InTime.hasRoom {a : Action} (h : s.InTime a) : s.HasRoom a := by
  cases a with
  | schedule timePoint interval now => exact h
  | cancel timerId => trivial
  | expire now => trivial
  | callback => trivial

theorem run_callbacks (s : TimerThread)
    : run step s (List.replicate s.expired.length .callback)
        =
      some { timer := s.timer, expired := [], events := s.events ++ s.expiredIds.map .started } := by
  obtain ⟨timer, expired, events⟩ := s
  induction expired generalizing events with
  | nil => simp [expiredIds]
  | cons info expired ih =>
    rw [List.length_cons, List.replicate_succ, run_cons]
    simp only [step, Option.bind_some]
    rw [ih]
    simp [expiredIds]

theorem not_final_of_cancel (hinv : s.Invariant) {timerId : UInt64}
    (hstored : timerId ∈ s.storedIds) (hexpired : timerId ∈ s.expiredIds)
    : ∃ s',
        run step s (.cancel timerId :: List.replicate s.expired.length .callback) = some s'
          ∧ ¬ s'.events.Pairwise (Final timerId) := by
  have hresult := (hinv.consistent.cancel timerId).2.2.1.mpr hstored
  have hcallbacks := run_callbacks {
    timer := (s.timer.cancel timerId).1
    expired := s.expired
    events := s.events ++ [.cancelled timerId (s.timer.cancel timerId).2]
  }
  refine ⟨_, (run_cons _ _ _ _).trans hcallbacks, ?_⟩
  rw [List.pairwise_append]
  rintro ⟨_, _, hfinal⟩
  exact hfinal (.cancelled timerId true) (by simp [hresult]) (.started timerId)
    (List.mem_map_of_mem hexpired) rfl rfl

end

theorem cancel_final {actions : List Action} {s : TimerThread} (hok : Guarded step InTime init actions)
    (hrun : run step init actions = some s)
    : (∀ timerId, s.events.Pairwise (Final timerId))
        ∧ ∀ timerId, ¬ s.InTime (.cancel timerId) →
        ∃ s',
          run step s (.cancel timerId :: List.replicate s.expired.length .callback) = some s'
            ∧ ¬ s'.events.Pairwise (Final timerId) := by
  have hstep : ∀ (s : TimerThread) (a : Action) (s' : TimerThread),
      (s.Invariant ∧ ∀ timerId, s.Over timerId) → s.InTime a → s.step a = some s' → s'.Invariant
          ∧ ∀ timerId, s'.Over timerId := by
    rintro s a s' ⟨hinv, hover⟩ hintime hstep
    refine ⟨hinv.step hintime.hasRoom hstep, ?_⟩
    intro timerId
    apply Over.step hinv (hover timerId) hintime.hasRoom ?_ hstep
    rintro rfl
    exact hintime
  have hinit : init.Invariant ∧ ∀ timerId, init.Over timerId := by
    refine ⟨init_invariant, ?_⟩
    intro timerId
    exact ⟨by simp [init], .nil⟩
  obtain ⟨hinv, hover⟩ := run_inv hstep hinit hok hrun
  refine ⟨fun timerId => (hover timerId).final, ?_⟩
  intro timerId hlate
  simp only [InTime, not_forall, not_not] at hlate
  obtain ⟨hstored, hexpired⟩ := hlate
  exact not_final_of_cancel hinv hstored hexpired

def afterCallback : List Action :=
  [.schedule 5 3 1, .expire 6, .callback, .cancel 1]

theorem cancel_final_example
    : Guarded step InTime init afterCallback
        ∧ ∃ s,
        run step init afterCallback = some s
          ∧ s.events.Pairwise (Final 1)
          ∧ s.events = [.scheduled 1 3, .started 1, .cancelled 1 true] := by
  have hok : Guarded step InTime init afterCallback := by decide +kernel
  have hresult : (run step init afterCallback).map events = some
    [.scheduled 1 3, .started 1, .cancelled 1 true] := by decide +kernel
  rw [Option.map_eq_some_iff] at hresult
  obtain ⟨s, hrun, hevents⟩ := hresult
  exact ⟨hok, s, hrun, (cancel_final hok hrun).1 1, hevents⟩

theorem cancel_final_counterexample
    : (run step init [.schedule 5 3 1, .expire 6, .cancel 1, .callback]).map events
        =
      some [.scheduled 1 3, .cancelled 1 true, .started 1] := by
  decide +kernel

/--
Where a timer comes from. Its time is the one that it has been scheduled for, or it is later by
some of its intervals.
-/
def Stems (actions : List Action) (info : TimerInfo) : Prop :=
  ∃ before timePoint now after, ∃ k : Nat,
    actions = before ++ .schedule timePoint info.interval now :: after
    ∧ (run step init before).map (fun s => s.timer.timerId + 1) = some info.timerId
    ∧ info.expireTime = timePoint + k * info.interval

def Due (actions : List Action) (info : TimerInfo) : Prop :=
  ∃ before now after, actions = before ++ .expire now :: after ∧ info.expireTime ≤ now

section

variable {actions : List Action} {info : TimerInfo}

theorem Stems.snoc (h : Stems actions info) (a : Action) : Stems (actions ++ [a]) info := by
  obtain ⟨before, timePoint, now, after, k, rfl, hid, htime⟩ := h
  exact ⟨before, timePoint, now, after ++ [a], k, by simp, hid, htime⟩

theorem Stems.again (h : Stems actions info) (now : Int) : Stems actions (Timer.again now info) := by
  obtain ⟨before, timePoint, now', after, k, hactions, hid, htime⟩ := h
  refine ⟨before, timePoint, now', after, k + 1, hactions, hid, ?_⟩
  unfold Timer.again
  rw [htime]
  push_cast
  ring

theorem Due.snoc (h : Due actions info) (a : Action) : Due (actions ++ [a]) info := by
  obtain ⟨before, now, after, rfl, htime⟩ := h
  exact ⟨before, now, after ++ [a], by simp, htime⟩

end

theorem callbacks_timely
    {actions : List Action} {s : TimerThread} (hok : Guarded step HasRoom init actions)
    (hrun : run step init actions = some s)
    : ∀ info ∈ s.expired, Stems actions info ∧ Due actions info := by
  have hstep : ∀ (actions : List Action) (s : TimerThread) (a : Action) (s' : TimerThread),
    run step init actions = some s →
      (s.Invariant ∧ (∀ info ∈ s.timer.timePointMap.toList, Stems actions info)
        ∧ ∀ info ∈ s.expired, Stems actions info ∧ Due actions info) →
      s.HasRoom a → s.step a = some s' →
      s'.Invariant ∧ (∀ info ∈ s'.timer.timePointMap.toList, Stems (actions ++ [a]) info)
        ∧ ∀ info ∈ s'.expired, Stems (actions ++ [a]) info ∧ Due (actions ++ [a]) info := by
    intro actions s a s' hs ⟨hinv, hstored, hexpired⟩ hroom hstep
    have hlater : ∀ info ∈ s.expired, Stems (actions ++ [a]) info ∧ Due (actions ++ [a]) info :=
      fun info hinfo => ⟨(hexpired info hinfo).1.snoc a, (hexpired info hinfo).2.snoc a⟩
    refine ⟨hinv.step hroom hstep, ?_⟩
    rcases step_cases hstep with ⟨timePoint, interval, now, rfl, rfl⟩ | ⟨timerId, rfl, rfl⟩ | ⟨now,
      rfl, _, rfl⟩ | ⟨info, expired, rfl, heq, rfl⟩
    . refine ⟨?_, hlater⟩
      intro info hinfo
      rcases ((Timer.schedule_eq s.timer timePoint interval now).2.2 info).mp hinfo with rfl | hinfo
      . exact ⟨actions, timePoint, now, [], 0, rfl, by rw [hs]; rfl, by simp⟩
      . exact (hstored info hinfo).snoc _
    . refine ⟨?_, hlater⟩
      intro info hinfo
      exact (hstored info (((hinv.consistent.cancel timerId).2.2.2 info).mp hinfo).1).snoc _
    . constructor
      . intro info hinfo
        rcases ((hinv.consistent.expire now).2.2 info).mp
          hinfo with ⟨hinfo, _⟩ | ⟨info', hinfo', _, _, rfl⟩
        . exact (hstored info hinfo).snoc _
        . exact ((hstored info' hinfo').again now).snoc _
      . intro info hinfo
        obtain ⟨hinfo, htime⟩ := Timer.mem_expire_snd.mp hinfo
        exact ⟨(hstored info hinfo).snoc _, actions, now, [], rfl, htime⟩
    . exact ⟨fun info hinfo => (hstored info hinfo).snoc _, fun info' hinfo' => hlater info'
        (heq ▸ List.mem_cons_of_mem info hinfo')⟩
  have hinit : init.Invariant ∧ (∀ info ∈ init.timer.timePointMap.toList, Stems [] info)
      ∧ ∀ info ∈ init.expired, Stems [] info ∧ Due [] info := by
    refine ⟨init_invariant, ?_, ?_⟩
    . intro info hinfo
      cases hinfo
    . intro info hinfo
      cases hinfo
  exact (run_history hstep hinit hok hrun).2.2

theorem callbacks_timely_example
    : ∃ s, run step init [.schedule 5 3 1, .expire 6, .callback, .expire 9] = some s
        ∧ s.expired.map TimerInfo.expireTime = [8]
        ∧ ∀ info ∈ s.expired, Stems [.schedule 5 3 1, .expire 6, .callback, .expire 9] info
            ∧ Due [.schedule 5 3 1, .expire 6, .callback, .expire 9] info := by
  have hok : Guarded step HasRoom init [.schedule 5 3 1, .expire 6, .callback, .expire 9] := by
    exact (show Guarded step InTime init _ by decide +kernel).mono (fun _ _ h => h.hasRoom)
  have hresult : (run step init [.schedule 5 3 1, .expire 6, .callback, .expire 9]).map
    (fun s => s.expired.map TimerInfo.expireTime)
      = some [8] := by decide +kernel
  rw [Option.map_eq_some_iff] at hresult
  obtain ⟨s, hrun, hexpired⟩ := hresult
  exact ⟨s, hrun, hexpired, callbacks_timely hok hrun⟩

end TimerThread
end Emane

import Mathlib.Data.List.Perm.Basic
import Emane.Ieee80211abg.Impl.DownstreamQueue

/-!
This module contains what the operations of the queue do to the entries in it.
-/

namespace Emane
namespace Ieee80211abg

def DownstreamQueue.entries (categories : List AccessCategory) : List DownstreamQueueEntry :=
  categories.flatMap (fun p => p.queue)

namespace AccessCategory

theorem overflow_append (capacity : Nat) (queue : List DownstreamQueueEntry)
    : (overflow capacity queue).1 ++ (overflow capacity queue).2 = queue := by
  induction queue with
  | nil => rfl
  | cons e queue ih =>
    unfold overflow
    split
    . simp only [List.cons_append, ih]
    . rfl

@[simp]
theorem queue_push (p : AccessCategory) (queue : List DownstreamQueueEntry)
    : (p.push queue).queue = queue := by
  unfold push
  split
  . rfl
  . rfl

@[simp]
theorem queue_tooLarge (p : AccessCategory) (pkt : DownstreamPacket)
    : (p.tooLarge pkt).queue = p.queue := by
  unfold tooLarge
  split
  . rfl
  . rfl

def isTooLarge (p : AccessCategory) (entry : DownstreamQueueEntry) : Bool :=
  p.maxQueueCapacity ≠ 0 && p.maxPacketSize ≠ 0 && p.maxPacketSize < entry.pkt.length

theorem enqueue_eq_tooLarge {p : AccessCategory} {entry : DownstreamQueueEntry}
    (h : p.isTooLarge entry = true)
    : p.enqueue entry = ([entry], p.tooLarge entry.pkt) := by
  simp only [isTooLarge, ne_eq, Bool.and_eq_true, decide_eq_true_eq] at h
  obtain ⟨⟨hcapacity, hsize⟩, hlength⟩ := h
  unfold enqueue
  rw [if_neg hcapacity, if_pos ⟨hsize, hlength⟩]

theorem enqueue_eq_push {p : AccessCategory} {entry : DownstreamQueueEntry}
    (h : p.isTooLarge entry = false)
    : ∃ queue mark max,
        (p.enqueue entry).2 = { p with queue := queue, numHighWaterMark := mark, numHighWaterMax := max }
        ∧ queue.Sublist (p.queue ++ [entry]) := by
  unfold enqueue
  split
  . exact ⟨p.queue, p.numHighWaterMark, p.numHighWaterMax, rfl, List.sublist_append_left _ _⟩
  . next hcapacity =>
    split
    . next hlarge => simp [isTooLarge, hcapacity, hlarge.1, hlarge.2] at h
    . have happend := overflow_append p.maxQueueCapacity p.queue
      have hkept : (overflow p.maxQueueCapacity p.queue).2.Sublist p.queue := by
        nth_rewrite 2 [← happend]
        apply List.sublist_append_right
      simp only
      unfold push
      split
      . exact ⟨_, _, _, rfl, hkept.append (List.Sublist.refl _)⟩
      . exact ⟨_, _, _, rfl, hkept.append (List.Sublist.refl _)⟩

theorem enqueue_perm (p : AccessCategory) (entry : DownstreamQueueEntry)
    : ((p.enqueue entry).1 ++ (p.enqueue entry).2.queue).Perm (p.queue ++ [entry]) := by
  unfold enqueue
  split
  . exact List.perm_append_comm
  . split
    . simp only [queue_tooLarge]
      exact List.perm_append_comm
    . simp only [queue_push]
      rw [← List.append_assoc, overflow_append]

end AccessCategory

namespace DownstreamQueue

theorem entries_append (ps qs : List AccessCategory) : entries (ps ++ qs) = entries ps ++ entries qs := by
  simp [entries]

theorem entries_cons (p : AccessCategory) (ps : List AccessCategory)
    : entries (p :: ps) = p.queue ++ entries ps := by
  simp [entries]

variable {ps : List AccessCategory} {i : Nat}

theorem set_split {p : AccessCategory} (h : ps[i]? = some p) (p' : AccessCategory)
    : ∃ before after, ps = before ++ p :: after ∧ ps.set i p' = before ++ p' :: after := by
  induction ps generalizing i with
  | nil => simp at h
  | cons q ps ih =>
    cases i with
    | zero =>
      cases h
      exact ⟨[], ps, rfl, rfl⟩
    | succ i =>
      obtain ⟨before, after, heq, hset⟩ := ih h
      refine ⟨q :: before, after, ?_, ?_⟩
      . rw [heq, List.cons_append]
      . rw [List.set_cons_succ, hset, List.cons_append]

@[simp]
theorem categories_unsupported (q : DownstreamQueue) (pkt : DownstreamPacket)
    : (q.unsupported pkt).categories = q.categories := by
  unfold unsupported
  split
  . rfl
  . rfl

theorem enqueue_perm (q : DownstreamQueue) (entry : DownstreamQueueEntry)
    : ((q.enqueue entry).1 ++ entries (q.enqueue entry).2.categories).Perm
        (entries q.categories ++ [entry]) := by
  unfold enqueue
  split
  . next p hp =>
    obtain ⟨before, after, heq, hset⟩ := set_split hp (p.enqueue entry).2
    simp only
    rw [hset, heq, entries_append, entries_append, entries_cons, entries_cons]
    have hone := p.enqueue_perm entry
    generalize (p.enqueue entry).1 = dropped at hone ⊢
    generalize (p.enqueue entry).2.queue = queue at hone ⊢
    calc dropped ++ (entries before ++ (queue ++ entries after))
      List.Perm _ (entries before ++ ((dropped ++ queue) ++ entries after)) := by
        rw [List.append_assoc]
        exact List.perm_append_comm_assoc _ _ _
      List.Perm _ (entries before ++ ((p.queue ++ [entry]) ++ entries after)) := by
        exact (hone.append_right _).append_left _
      List.Perm _ (entries before ++ (p.queue ++ entries after) ++ [entry]) := by
        rw [List.append_assoc, List.append_assoc, List.append_assoc]
        exact ((List.perm_append_comm).append_left _).append_left _
  . simp only [categories_unsupported]
    exact List.perm_append_comm

variable {q : DownstreamQueue} {entry : DownstreamQueueEntry}

theorem getElem?_enqueue {p' : AccessCategory}
    (h : (q.enqueue entry).2.categories[i]? = some p')
    : (i ≠ entry.category ∧ q.categories[i]? = some p')
      ∨ ∃ p, i = entry.category ∧ q.categories[i]? = some p ∧ p' = (p.enqueue entry).2
        ∧ (q.enqueue entry).1 = (p.enqueue entry).1 := by
  unfold enqueue at h ⊢
  split at h
  . next p hp =>
    by_cases hi : i = entry.category
    . right
      refine ⟨p, hi, by rw [hi, hp], ?_, by simp⟩
      have hlt : entry.category < q.categories.length := (List.getElem?_eq_some_iff.mp hp).1
      rw [hi, List.getElem?_set_self hlt] at h
      exact (Option.some.inj h).symm
    . left
      rw [List.getElem?_set_ne (Ne.symm hi)] at h
      exact ⟨hi, h⟩
  . next hnone =>
    left
    rw [categories_unsupported] at h
    refine ⟨?_, h⟩
    rintro rfl
    rw [hnone] at h
    cases h

theorem dequeue_go_eq_none (h : dequeue.go ps = none) : ∀ p ∈ ps, p.queue = [] := by
  induction ps with
  | nil => exact fun _ hp => by cases hp
  | cons p ps ih =>
    unfold dequeue.go at h
    split at h
    . cases h
    . next hgo =>
      split at h
      . next hnil =>
        intro q hq
        cases List.mem_cons.mp hq with
        | inl heq => exact heq ▸ hnil
        | inr hmem => exact ih hgo q hmem
      . cases h

theorem dequeue_go_eq_some {ps' : List AccessCategory}
    (h : dequeue.go ps = some (entry, ps'))
    : ∃ before p queue after, ps = before ++ p :: after ∧ p.queue = entry :: queue
        ∧ (∀ q ∈ after, q.queue = [])
        ∧ ps' = before ++ { p with queue := queue } :: after := by
  induction ps generalizing ps' with
  | nil => cases h
  | cons p ps ih =>
    unfold dequeue.go at h
    split at h
    . next entry' ps'' hgo =>
      cases h
      obtain ⟨before, q, queue, after, heq, hqueue, hempty, heq'⟩ := ih hgo
      exact ⟨p :: before, q, queue,
        after, by rw [heq, List.cons_append], hqueue, hempty, by rw [heq', List.cons_append]⟩
    . next hgo =>
      split at h
      . cases h
      . next entry' queue hqueue =>
        cases h
        refine ⟨[], p, queue, ps, rfl, hqueue, ?_, rfl⟩
        exact dequeue_go_eq_none hgo

theorem dequeue_go_of_forall_nil (h : ∀ p ∈ ps, p.queue = []) : dequeue.go ps = none := by
  induction ps with
  | nil => rfl
  | cons p ps ih =>
    unfold dequeue.go
    rw [ih (fun q hq => h q (by simp [hq]))]
    simp only [h p (by simp)]

theorem dequeue_go_of_cons {p : AccessCategory} {queue : List DownstreamQueueEntry}
    (hqueue : p.queue = entry :: queue)
    (before : List AccessCategory) {after : List AccessCategory} (hempty : ∀ q ∈ after, q.queue = [])
    : dequeue.go (before ++ p :: after) = some (entry, before ++ { p with queue := queue } :: after) := by
  induction before with
  | nil =>
    rw [List.nil_append, List.nil_append]
    unfold dequeue.go
    rw [dequeue_go_of_forall_nil hempty]
    simp only [hqueue]
  | cons q before ih =>
    rw [List.cons_append]
    unfold dequeue.go
    rw [ih, List.cons_append]

def IsNext (categories : List AccessCategory) (entry : DownstreamQueueEntry) : Prop :=
  ∃ (i : Nat) (p : AccessCategory) (queue : List DownstreamQueueEntry), categories[i]? = some p
    ∧ p.queue = entry :: queue
    ∧ ∀ (j : Nat) (q : AccessCategory), i < j → categories[j]? = some q → q.queue = []

theorem isNext_dequeue (h : q.dequeue.1 = some entry)
    : IsNext q.categories entry := by
  unfold dequeue at h
  split at h
  . next entry' ps' hgo =>
    cases h
    obtain ⟨before, p, queue, after, heq, hqueue, hempty, -⟩ := dequeue_go_eq_some hgo
    refine ⟨before.length, p, queue, ?_, hqueue, ?_⟩
    . rw [heq, List.getElem?_append_right (Nat.le_refl _), Nat.sub_self, List.getElem?_cons_zero]
    . intro j r hlt hget
      rw [heq, List.getElem?_append_right (Nat.le_of_lt hlt)] at hget
      obtain ⟨k, hk⟩ : ∃ k, j - before.length = k + 1 := ⟨j - before.length - 1, by omega⟩
      rw [hk, List.getElem?_cons_succ] at hget
      exact hempty r (List.mem_of_getElem? hget)
  . cases h

theorem getElem?_dequeue {p' : AccessCategory} (h : q.dequeue.2.categories[i]? = some p')
    : ∃ p queue, q.categories[i]? = some p ∧ p' = { p with queue := queue } ∧ queue.Sublist p.queue := by
  unfold dequeue at h
  split at h
  . next entry ps' hgo =>
    obtain ⟨before, p, queue, after, heq, hqueue, -, heq'⟩ := dequeue_go_eq_some hgo
    simp only [heq'] at h
    rw [heq]
    rcases Nat.lt_trichotomy i before.length with hlt | rfl | hlt
    . rw [List.getElem?_append_left hlt] at h ⊢
      exact ⟨p', p'.queue, h, rfl, List.Sublist.refl _⟩
    . rw [List.getElem?_append_right (Nat.le_refl _), Nat.sub_self, List.getElem?_cons_zero] at h ⊢
      refine ⟨p, queue, rfl, (Option.some.inj h).symm, ?_⟩
      rw [hqueue]
      exact List.sublist_cons_self _ _
    . rw [List.getElem?_append_right (Nat.le_of_lt hlt)] at h ⊢
      obtain ⟨k, hk⟩ : ∃ k, i - before.length = k + 1 := ⟨i - before.length - 1, by omega⟩
      rw [hk, List.getElem?_cons_succ] at h ⊢
      exact ⟨p', p'.queue, h, rfl, List.Sublist.refl _⟩
  . exact ⟨p', p'.queue, h, rfl, List.Sublist.refl _⟩

theorem dequeue_perm (q : DownstreamQueue)
    : (q.dequeue.1.toList ++ entries q.dequeue.2.categories).Perm (entries q.categories) := by
  unfold dequeue
  split
  . next entry ps' hgo =>
    obtain ⟨before, p, queue, after, heq, hqueue, -, heq'⟩ := dequeue_go_eq_some hgo
    simp only [Option.toList_some, List.singleton_append]
    rw [heq, heq', entries_append, entries_append, entries_cons, entries_cons, hqueue]
    exact List.perm_middle.symm
  . exact List.Perm.refl _

end DownstreamQueue
end Ieee80211abg
end Emane

import Emane.Lib.Machine
import Emane.Lib.SortedMap

/-!
This module contains queues of which only the first element is sent, as often as it takes to get an
answer.
-/

namespace Emane

/--
What is known about an element: where it belongs, what is sent for it, and how often that has
happened.
-/
structure StopAndWait (ε : Type u) (κ : Type v) (μ : Type w) where
  key : ε → κ
  message : ε → μ
  tries : ε → Nat

namespace StopAndWait

inductive Act (ε : Type u) where
  | push (e : ε)
  | send (e e' : ε)
  | pop (e : ε)

variable {ε : Type u} {κ : Type v} {μ : Type w} (kind : StopAndWait ε κ μ)

structure Resent (e e' : ε) : Prop where
  key : kind.key e' = kind.key e
  message : kind.message e' = kind.message e
  tries : kind.tries e' = kind.tries e + 1

def Act.Valid : Act ε → Prop
  | .push e => kind.tries e = 0
  | .send e e' => kind.Resent e e'
  | .pop _ => True

def sendings (es : List ε) : List μ :=
  es.flatMap (fun e => List.replicate (kind.tries e) (kind.message e))

variable [LinearOrder κ]

def queued (k : κ) (acts : List (Act ε)) : List μ :=
  acts.filterMap (fun act =>
    match act with
    | .push e => if kind.key e = k then some (kind.message e) else none
    | _ => none)

def sent (k : κ) (acts : List (Act ε)) : List μ :=
  acts.filterMap (fun act =>
    match act with
    | .send e _ => if kind.key e = k then some (kind.message e) else none
    | _ => none)

def answered (k : κ) (acts : List (Act ε)) : List ε :=
  acts.filterMap (fun act =>
    match act with
    | .pop e => if kind.key e = k then some e else none
    | _ => none)

def queue (queues : SortedMap κ (List ε)) (k : κ) : List ε :=
  (queues.find? k).getD []

def apply [DecidableEq ε] (queues : SortedMap κ (List ε)) : Act ε → Option (SortedMap κ (List ε))
  | .push e => some (queues.set (kind.key e) (queue queues (kind.key e) ++ [e]))
  | .send e e' =>
    match queues.find? (kind.key e) with
    | some (head :: rest) => if head = e then some (queues.set (kind.key e) (e' :: rest)) else none
    | _ => none
  | .pop e =>
    match queues.find? (kind.key e) with
    | some (head :: rest) =>
      if head = e then
        some (if rest.isEmpty then queues.erase (kind.key e) else queues.set (kind.key e) rest)
      else
        none
    | _ => none

/--
All that was put in has been answered or still waits, in this order, and all that was sent has been
sent for these elements, in this order.
-/
structure Ledger (acts : List (Act ε)) (queues : SortedMap κ (List ε)) : Prop where
  nonempty : ∀ k, queues.find? k ≠ some []
  keys : ∀ k, ∀ e ∈ queue queues k, kind.key e = k
  unsent : ∀ k, ∀ e ∈ (queue queues k).tail, kind.tries e = 0
  queued : ∀ k, kind.queued k acts = (kind.answered k acts ++ queue queues k).map kind.message
  sent : ∀ k, kind.sent k acts = kind.sendings (kind.answered k acts ++ queue queues k)

theorem queue_set (queues : SortedMap κ (List ε)) (k k' : κ) (es : List ε)
    : queue (queues.set k es) k' = if k' = k then es else queue queues k' := by
  unfold queue
  rw [SortedMap.find?_set]
  split
  . rfl
  . rfl

theorem queue_erase (queues : SortedMap κ (List ε)) (k k' : κ)
    : queue (queues.erase k) k' = if k' = k then [] else queue queues k' := by
  unfold queue
  rw [SortedMap.find?_erase]
  split
  . rfl
  . rfl

theorem queue_of_find? {queues : SortedMap κ (List ε)} {k : κ} {es : List ε}
    (h : queues.find? k = some es) : queue queues k = es := by
  unfold queue
  rw [h]
  rfl

theorem find?_of_queue {queues : SortedMap κ (List ε)} {k : κ} {e : ε} {rest : List ε}
    (h : queue queues k = e :: rest)
    : queues.find? k = some (e :: rest) := by
  unfold queue at h
  cases hfind : queues.find? k with
  | none =>
    rw [hfind] at h
    cases h
  | some es =>
    rw [hfind] at h
    exact congrArg some h

section

variable {kind} {queues queues' : SortedMap κ (List ε)} {acts : List (Act ε)}

theorem apply_send_iff [DecidableEq ε] {e e' : ε}
    : kind.apply queues (.send e e') = some queues'
        ↔
      ∃ rest, queues.find? (kind.key e) = some (e :: rest)
          ∧ queues' = queues.set (kind.key e) (e' :: rest) := by
  unfold apply
  simp only
  constructor
  . intro h
    split at h
    . next head rest hfind =>
      split at h
      . next heq =>
        subst heq
        exact ⟨rest, hfind, (Option.some.inj h).symm⟩
      . cases h
    . cases h
  . rintro ⟨rest, hfind, rfl⟩
    simp [hfind]

theorem apply_pop_iff [DecidableEq ε] {e : ε}
    : kind.apply queues (.pop e) = some queues'
        ↔
      ∃ rest, queues.find? (kind.key e) = some (e :: rest)
        ∧ queues' = if rest.isEmpty then queues.erase (kind.key e) else queues.set (kind.key e) rest := by
  unfold apply
  simp only
  constructor
  . intro h
    split at h
    . next head rest hfind =>
      split at h
      . next heq =>
        subst heq
        exact ⟨rest, hfind, (Option.some.inj h).symm⟩
      . cases h
    . cases h
  . rintro ⟨rest, hfind, rfl⟩
    simp [hfind]

theorem Ledger.push (h : kind.Ledger acts queues) {e : ε} (hunsent : kind.tries e = 0)
    : kind.Ledger (acts ++ [.push e]) (queues.set (kind.key e) (queue queues (kind.key e) ++ [e])) := by
  constructor
  . intro k
    rw [SortedMap.find?_set]
    split
    . simp
    . exact h.nonempty k
  . intro k e' he'
    rw [queue_set] at he'
    split at he'
    . next heq =>
      rw [List.mem_append, List.mem_singleton] at he'
      rcases he' with he' | rfl
      . exact (h.keys _ e' he').trans heq.symm
      . exact heq.symm
    . exact h.keys k e' he'
  . intro k e' he'
    rw [queue_set] at he'
    split at he'
    . cases hqueue : queue queues (kind.key e) with
      | nil => simp [hqueue] at he'
      | cons head rest =>
        rw [hqueue] at he'
        simp only [List.cons_append, List.tail_cons, List.mem_append, List.mem_singleton] at he'
        rcases he' with he' | rfl
        . apply h.unsent (kind.key e)
          rw [hqueue]
          exact he'
        . exact hunsent
    . exact h.unsent k e' he'
  . intro k
    have hqueued := h.queued k
    unfold StopAndWait.queued answered at hqueued ⊢
    rw [queue_set, List.filterMap_append, List.filterMap_append, hqueued]
    by_cases heq : k = kind.key e
    . simp [heq]
    . simp [heq, Ne.symm heq]
  . intro k
    have hsent := h.sent k
    unfold StopAndWait.sent answered sendings at hsent ⊢
    rw [queue_set, List.filterMap_append, List.filterMap_append, hsent]
    by_cases heq : k = kind.key e
    . simp [heq, hunsent]
    . simp [heq]

theorem Ledger.send (h : kind.Ledger acts queues) {e e' : ε} (hresent : kind.Resent e e') {rest : List ε}
    (hfind : queues.find? (kind.key e) = some (e :: rest))
    : kind.Ledger (acts ++ [.send e e']) (queues.set (kind.key e) (e' :: rest)) := by
  have hqueue := queue_of_find? hfind
  have hrest := h.unsent (kind.key e)
  rw [hqueue, List.tail_cons] at hrest
  constructor
  . intro k
    rw [SortedMap.find?_set]
    split
    . simp
    . exact h.nonempty k
  . intro k e'' he''
    rw [queue_set] at he''
    split at he''
    . next heq =>
      rw [List.mem_cons] at he''
      rcases he'' with rfl | he''
      . exact hresent.key.trans heq.symm
      . refine (h.keys (kind.key e) e'' ?_).trans heq.symm
        rw [hqueue]
        exact List.mem_cons_of_mem _ he''
    . exact h.keys k e'' he''
  . intro k e'' he''
    rw [queue_set] at he''
    split at he''
    . exact hrest e'' he''
    . exact h.unsent k e'' he''
  . intro k
    have hqueued := h.queued k
    unfold StopAndWait.queued answered at hqueued ⊢
    rw [queue_set, List.filterMap_append, List.filterMap_append, hqueued]
    by_cases heq : k = kind.key e
    . simp [heq, hqueue, hresent.message]
    . simp [heq]
  . intro k
    have hsent := h.sent k
    unfold StopAndWait.sent answered sendings at hsent ⊢
    rw [queue_set, List.filterMap_append, List.filterMap_append, hsent]
    by_cases heq : k = kind.key e
    . -- nothing behind the head has been sent
      have hnil : rest.flatMap (fun e => List.replicate (kind.tries e) (kind.message e)) = [] := by
        rw [List.flatMap_eq_nil_iff]
        intro e'' he''
        rw [hrest e'' he'']
        rfl
      simp [heq, hqueue, hresent.message, hresent.tries, hnil, List.replicate_succ']
    . simp [heq, Ne.symm heq]

theorem Ledger.pop (h : kind.Ledger acts queues) {e : ε} {rest : List ε}
    (hfind : queues.find? (kind.key e) = some (e :: rest))
    : kind.Ledger (acts ++ [.pop e])
        (if rest.isEmpty then queues.erase (kind.key e) else queues.set (kind.key e) rest) := by
  have hqueue := queue_of_find? hfind
  have hafter : ∀ k,
    queue (if rest.isEmpty then queues.erase (kind.key e) else queues.set (kind.key e) rest) k
      = if k = kind.key e then rest else queue queues k := by
    intro k
    cases rest with
    | nil => exact queue_erase queues (kind.key e) k
    | cons head rest => exact queue_set queues (kind.key e) k _
  constructor
  . intro k
    cases rest with
    | nil =>
      simp only [List.isEmpty_nil, ↓reduceIte, SortedMap.find?_erase]
      split
      . simp
      . exact h.nonempty k
    | cons head rest =>
      simp only [List.isEmpty_cons, Bool.false_eq_true, ↓reduceIte, SortedMap.find?_set]
      split
      . simp
      . exact h.nonempty k
  . intro k e' he'
    rw [hafter] at he'
    split at he'
    . next heq =>
      refine (h.keys (kind.key e) e' ?_).trans heq.symm
      rw [hqueue]
      exact List.mem_cons_of_mem _ he'
    . exact h.keys k e' he'
  . intro k e' he'
    rw [hafter] at he'
    split at he'
    . apply h.unsent (kind.key e)
      rw [hqueue, List.tail_cons]
      exact List.mem_of_mem_tail he'
    . exact h.unsent k e' he'
  . intro k
    have hqueued := h.queued k
    unfold StopAndWait.queued answered at hqueued ⊢
    rw [hafter, List.filterMap_append, List.filterMap_append, hqueued]
    by_cases heq : k = kind.key e
    . simp [heq, hqueue]
    . simp [heq, Ne.symm heq]
  . intro k
    have hsent := h.sent k
    unfold StopAndWait.sent answered sendings at hsent ⊢
    rw [hafter, List.filterMap_append, List.filterMap_append, hsent]
    by_cases heq : k = kind.key e
    . simp [heq, hqueue]
    . simp [heq, Ne.symm heq]

theorem Ledger.step [DecidableEq ε] (h : kind.Ledger acts queues) {act : Act ε}
    (hvalid : act.Valid kind) (happly : kind.apply queues act = some queues')
    : kind.Ledger (acts ++ [act]) queues' := by
  cases act with
  | push e =>
    cases happly
    exact h.push hvalid
  | send e e' =>
    obtain ⟨rest, hfind, rfl⟩ := apply_send_iff.mp happly
    exact h.send hvalid hfind
  | pop e =>
    obtain ⟨rest, hfind, rfl⟩ := apply_pop_iff.mp happly
    exact h.pop hfind

theorem ledger_empty : kind.Ledger [] (.empty : SortedMap κ (List ε)) := by
  constructor
  all_goals
    simp [queue, queued, answered, sent, sendings]

theorem Ledger.run [DecidableEq ε] (h : kind.Ledger acts queues) {more : List (Act ε)}
    (hvalid : ∀ act ∈ more, act.Valid kind)
    (hrun : Emane.run kind.apply queues more = some queues')
    : kind.Ledger (acts ++ more) queues' := by
  induction more generalizing acts queues with
  | nil =>
    cases hrun
    rw [List.append_nil]
    exact h
  | cons act more ih =>
    rw [run_cons, Option.bind_eq_some_iff] at hrun
    obtain ⟨queues₁, happly, hrun⟩ := hrun
    have hstep := h.step (hvalid act List.mem_cons_self) happly
    have hrest := ih hstep (fun act' hact' => hvalid act' (List.mem_cons_of_mem _ hact')) hrun
    rw [List.append_assoc] at hrest
    exact hrest

end

end StopAndWait
end Emane

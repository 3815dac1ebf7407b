import Emane.Tdma.Lemmas.BasicQueueManager

/-!
This module contains how many packets a dequeue completes, compared to how many leave the queue.
-/

namespace Emane
namespace Tdma

def MessageComponents.completed (cs : MessageComponents) : Nat :=
  (cs.filter (fun c => !c.moreFragments)).length

namespace MessageComponents

@[simp]
theorem completed_nil : completed [] = 0 := by
  rfl

@[simp]
theorem completed_append (cs cs' : MessageComponents)
    : completed (cs ++ cs') = completed cs + completed cs' := by
  simp [completed]

theorem completed_flatMap {α : Type u} (f : α → MessageComponents) (as : List α)
    : completed (as.flatMap f) = (as.map (fun a => completed (f a))).sum := by
  induction as with
  | nil => rfl
  | cons a as ih => simp [ih]

theorem size_of_mem_flatMap {α : Type u} {f : α → MessageComponents} {as : List α}
    (h : size (as.flatMap f) = 0)
    : ∀ a ∈ as, size (f a) = 0 := by
  induction as with
  | nil => simp
  | cons a as ih =>
    rw [List.flatMap_cons, size_append] at h
    rw [List.forall_mem_cons]
    exact ⟨by omega, ih (by omega)⟩

end MessageComponents

namespace Fifo
namespace Fates

def sent (fs : Fates) : Nat :=
  (fs.filter (fun ef => ef.2 = .sent)).length

theorem sent_cons (ef : Entry × Fate) (fs : Fates)
    : sent (ef :: fs) = (if ef.2 = .sent then 1 else 0) + sent fs := by
  unfold sent
  split
  . next h => simp_all [Nat.add_comm]
  . next h => simp_all

theorem sent_eq_zero {fs : Fates} (h : ∀ ef ∈ fs, ef.2 ≠ .sent) : fs.sent = 0 := by
  unfold sent
  rw [List.length_eq_zero_iff, List.filter_eq_nil_iff]
  intro ef hef
  simpa using h ef hef

@[simp]
theorem sent_allKept (es : List Entry) : (allKept es).sent = 0 := by
  apply sent_eq_zero
  simp [allKept]

theorem completed_components {p : Request} {fs : Fates} (kind : MessageComponent.Kind)
    (hallowed : fs.Allowed p)
    (hvalid : ∀ e ∈ fs.before, e.Valid)
    : (fs.components kind).completed = fs.sent := by
  induction fs with
  | nil => rfl
  | cons ef fs ih =>
    rw [allowed_cons] at hallowed
    rw [before_cons, List.forall_mem_cons] at hvalid
    rw [components_cons, MessageComponents.completed_append, sent_cons]
    rw [ih hallowed.2 hvalid.2]
    congr 1
    cases hf : ef.2 with
    | kept => rfl
    | cut n =>
      rw [hf] at hallowed
      have hmore := Entry.moreFragments_of_lt kind hallowed.1.2
      simp [Fate.component, MessageComponents.completed, hmore]
    | sent =>
      have hlast := Entry.moreFragments_of_remaining kind hvalid.1.offset_le
      simp [Fate.component, MessageComponents.completed, hlast]
    | dropped => rfl

theorem length_after (fs : Fates)
    : fs.after.length + fs.sent + fs.discarded.length = fs.before.length := by
  induction fs with
  | nil => rfl
  | cons ef fs ih =>
    rw [after_cons, sent_cons, discarded_cons, before_cons]
    cases hf : ef.2 with
    | kept =>
      simp [Fate.after, Fate.discarded]
      omega
    | cut n =>
      simp [Fate.after, Fate.discarded]
      omega
    | sent =>
      simp [Fate.after, Fate.discarded]
      omega
    | dropped =>
      simp [Fate.after, Fate.discarded]
      omega

end Fates

def completes (p : Request) (es : List Entry) : Bool :=
  touches false p.requestedBytes (sizes p es)

def drops (p : Request) (es : List Entry) : Bool :=
  p.drop && !p.fragment && (es.find? (Entry.selectedBy p.destination)).any
    (fun e => p.requestedBytes < e.remaining)

section

variable {p : Request} {es : List Entry} {r : Queue.dequeue.Result}

theorem sent_of_not_completes (hr : r.components = []) (htotal : r.totalBytes = 0)
    (h : completes p es = false)
    : (fates p es r).sent = 0 := by
  induction es generalizing r with
  | nil => rfl
  | cons e es ih =>
    unfold completes at h ih
    unfold fates
    split
    . next hsel =>
      simp only
      split
      . next hfits =>
        rw [sizes_of_kept hsel (Or.inr (by omega))] at h
        simp only [touches, Bool.or_false, decide_eq_false_iff_not] at h
        omega
      . next hfits =>
        split
        . simp [Fates.sent_cons]
        . next hfrag =>
          split
          . next hdrop =>
            rw [Bool.and_eq_true] at hdrop
            rw [Fates.sent_cons, ih (r := discard r e) hr htotal]
            . rfl
            . rwa [sizes_of_dropped hsel (by simp [hdrop.1, hfrag]) (by omega)] at h
          . simp [Fates.sent_cons]
    . next hsel =>
      rw [Fates.sent_cons, ih hr htotal]
      . rfl
      . rwa [sizes_of_not_selected hsel] at h

theorem sent_of_completes (hr : r.components = []) (htotal : r.totalBytes = 0) (h : completes p es = true)
    : 0 < (fates p es r).sent := by
  induction es generalizing r with
  | nil => simp [completes, sizes, touches] at h
  | cons e es ih =>
    unfold completes at h ih
    unfold fates
    split
    . next hsel =>
      simp only
      split
      . split
        . rw [Fates.sent_cons, if_pos rfl]
          omega
        . rw [Fates.sent_cons, if_pos rfl]
          omega
      . next hfits =>
        split
        . next hfrag =>
          rw [sizes_of_kept hsel (Or.inl (by simp [hfrag]))] at h
          simp only [touches, Bool.or_false, decide_eq_true_eq] at h
          omega
        . next hfrag =>
          split
          . next hdrop =>
            rw [Bool.and_eq_true] at hdrop
            rw [sizes_of_dropped hsel (by simp [hdrop.1, hfrag]) (by omega)] at h
            rw [Fates.sent_cons]
            exact Nat.lt_add_left _ (@ih (discard r e) hr htotal h)
          . next hdrop =>
            have hkeep : p.drop = false := by simpa [hr] using hdrop
            rw [sizes_of_kept hsel (Or.inl (by simp [hkeep]))] at h
            simp only [touches, Bool.or_false, decide_eq_true_eq] at h
            omega
    . next hsel =>
      rw [sizes_of_not_selected hsel] at h
      rw [Fates.sent_cons]
      exact Nat.lt_add_left _ (ih hr htotal h)

theorem discarded_of_components (hr : r.components ≠ []) : (fates p es r).discarded = [] := by
  induction es generalizing r with
  | nil => rfl
  | cons e es ih =>
    unfold fates
    split
    . simp only
      split
      . split
        . rw [Fates.discarded_cons, ih (by simp [push])]
          rfl
        . simp [Fate.discarded]
      . split
        . simp [Fate.discarded]
        . split
          . next hdrop => simp [hr] at hdrop
          . simp [Fate.discarded]
    . rw [Fates.discarded_cons, ih hr]
      rfl

theorem discarded_of_not_drops (htotal : r.totalBytes = 0) (h : drops p es = false)
    : (fates p es r).discarded = [] := by
  induction es generalizing r with
  | nil => rfl
  | cons e es ih =>
    unfold fates
    split
    . next hsel =>
      simp only
      split
      . split
        . rw [Fates.discarded_cons, discarded_of_components (by simp [push])]
          rfl
        . simp [Fate.discarded]
      . next hfits =>
        split
        . simp [Fate.discarded]
        . next hfrag =>
          split
          . next hdrop =>
            rw [Bool.and_eq_true] at hdrop
            simp [drops, hdrop.1, hfrag, hsel] at h
            omega
          . simp [Fate.discarded]
    . next hsel =>
      rw [Fates.discarded_cons, ih htotal]
      . rfl
      . simpa [drops, hsel] using h

end

end Fifo

namespace BasicQueueManager

theorem completed_given_of_lost {i : QueueIndex} {fs : Fifo.Fates} (h : Lost i fs)
    : (given i fs).completed = 0 := by
  unfold given
  rw [if_pos h.2]
  rfl

def Unbalances (i : QueueIndex) (p : Fifo.Request) (es : List Entry) : Prop :=
  if i = 4 then
    Fifo.completes p es = true ∧ ¬ Fifo.Wastes p es
  else
    Fifo.drops p es = true ∨ Fifo.completes p es = true ∧ Fifo.Wastes p es

instance (i : QueueIndex) (p : Fifo.Request) (es : List Entry) : Decidable (Unbalances i p es) := by
  unfold Unbalances
  infer_instance

def counted (i : QueueIndex) (es : List Entry) : Nat :=
  if i = 4 then 0 else es.length

theorem completed_of_ask {cfg : QueueManagerConfig} {destination : NEMId} {es : List Entry}
    (hvalid : ∀ e ∈ es, e.Valid) {a : Ask} (h : ¬ Unbalances a.queue (a.request cfg destination) es)
    : let fs := Fifo.fates (a.request cfg destination) es ⟨[], 0, []⟩
      (given a.queue fs).completed + counted a.queue fs.after = counted a.queue es := by
  intro fs
  have hfs := Fifo.dequeue_decomposes (a.request cfg destination) es ⟨[], 0, []⟩
  have hcompleted := Fifo.Fates.completed_components (kind a.queue) hfs.allowed
    (by rw [hfs.before]; exact hvalid)
  have hlength := Fifo.Fates.length_after fs
  rw [hfs.before] at hlength
  have hsent : Fifo.completes (a.request cfg destination) es = false → fs.sent = 0 :=
    Fifo.sent_of_not_completes rfl rfl
  unfold Unbalances at h
  rw [← lost_iff] at h
  change ¬ (if a.queue = 4 then _ ∧ ¬ Lost a.queue fs else _ ∨ _ ∧ Lost a.queue fs) at h
  change (fs.components (kind a.queue)).completed = fs.sent at hcompleted
  unfold counted
  by_cases hlost : Lost a.queue fs
  . rw [completed_given_of_lost hlost]
    split
    . rfl
    . next hdata =>
      simp only [hdata, ↓reduceIte, hlost, and_true, not_or, Bool.not_eq_true] at h
      have hdiscarded : fs.discarded = [] := Fifo.discarded_of_not_drops rfl h.1
      rw [hsent h.2, hdiscarded] at hlength
      simpa using hlength
  . rw [given_of_not_lost hlost, hcompleted]
    split
    . next hcontrol =>
      simp only [hcontrol, ↓reduceIte] at h
      rw [← hcontrol] at h
      simp only [hlost, not_false_eq_true, and_true, Bool.not_eq_true] at h
      rw [hsent h]
    . next hdata =>
      simp only [hdata, ↓reduceIte, hlost, and_false, or_false, Bool.not_eq_true] at h
      have hdiscarded : fs.discarded = [] := Fifo.discarded_of_not_drops rfl h
      rw [hdiscarded] at hlength
      simp only [List.length_nil] at hlength
      omega

def Balances (m : BasicQueueManager) (queueIndex requestedBytes : Nat) (destination : NEMId) : Prop :=
  ∀ a ∈ m.asks queueIndex requestedBytes destination,
    ¬ Unbalances a.queue (a.request m.toQueueManagerConfig destination) (m.queues a.queue).entries

instance (m : BasicQueueManager) (queueIndex requestedBytes : Nat) (destination : NEMId)
    : Decidable (m.Balances queueIndex requestedBytes destination) :=
  inferInstanceAs (Decidable (∀ a ∈ _, _))

def userPackets (es : QueueIndex → List Entry) : Nat :=
  ((List.finRange 4).map (fun i => (es i.castSucc).length)).sum

theorem userPackets_eq (es : QueueIndex → List Entry)
    : userPackets es = (es 0).length + (es 1).length + (es 2).length + (es 3).length := by
  simp [userPackets, List.finRange_succ, Nat.add_assoc]

theorem userPackets_enqueue {es es' : QueueIndex → List Entry} {queueIndex n : Nat}
    (h : ∀ i : QueueIndex,
      (es' i).length + (if i.val = queueIndex then n else 0) = (es i).length
        + (if i.val = queueIndex then 1 else 0))
    : userPackets es' + (if queueIndex < 4 then n else 0) = userPackets es
        + (if queueIndex < 4 then 1 else 0) := by
  rw [userPackets_eq, userPackets_eq]
  grind

theorem visitOrder_perm (queueIndex : Nat) : (visitOrder queueIndex).Perm (List.finRange MAX_QUEUES) := by
  unfold visitOrder
  have hperm := List.filter_append_perm (fun i : QueueIndex => decide (i.val = queueIndex)) dequeue.order
  simp only [ne_eq, decide_not]
  exact hperm.trans (List.reverse_perm _)

section

variable {m m' : BasicQueueManager} {es : QueueIndex → List Entry} {queueIndex requestedBytes : Nat}
  {destination : NEMId}
  {d : Dequeued} {fs : QueueIndex → Fifo.Fates}

theorem Spends.completed_given (h : Spends m m' queueIndex requestedBytes destination d fs)
    (hmanages : Manages m.toQueueManagerConfig m.queues es)
    (hbalances : m.Balances queueIndex requestedBytes destination)
    (i : QueueIndex)
    : (given i (fs i)).completed + counted i (fs i).after = counted i (es i) := by
  have hentries := (hmanages.holds i).entries_eq
  by_cases hask : ∃ a ∈ m.asks queueIndex requestedBytes destination, a.queue = i
  . obtain ⟨a, ha, rfl⟩ := hask
    rw [h.fates a ha, hentries]
    apply completed_of_ask (hmanages.holds a.queue).valid
    rw [← hentries]
    exact hbalances a ha
  . rw [h.kept i (fun a ha hai => hask ⟨a, ha, hai⟩), hentries]
    simp

theorem Spends.completed (h : Spends m m' queueIndex requestedBytes destination d fs)
    (hmanages : Manages m.toQueueManagerConfig m.queues es)
    (hbalances : m.Balances queueIndex requestedBytes destination)
    : d.components.completed + userPackets (fun i => (fs i).after) = userPackets es := by
  have hgiven := h.completed_given hmanages hbalances
  have h0 := hgiven 0
  have h1 := hgiven 1
  have h2 := hgiven 2
  have h3 := hgiven 3
  have h4 := hgiven 4
  simp only [counted, Fin.reduceEq, ↓reduceIte] at h0 h1 h2 h3 h4
  have hall : ∀ f : QueueIndex → Nat, ((List.finRange MAX_QUEUES).map f).sum = f 0 + f 1 + f 2
      + f 3 + f 4 := by
    intro f
    simp [List.finRange_succ, Nat.add_assoc]
  rw [h.components, MessageComponents.completed_flatMap]
  rw [((visitOrder_perm queueIndex).map _).sum_eq]
  rw [hall, userPackets_eq, userPackets_eq]
  omega

theorem Spends.components_eq_nil (h : Spends m m' queueIndex requestedBytes destination d fs)
    (hzero : d.totalLength = 0)
    : d.components = [] := by
  rw [h.totalLength, h.components] at hzero
  rw [h.components, List.flatMap_eq_nil_iff]
  intro i hi
  have hsize := MessageComponents.size_of_mem_flatMap hzero i hi
  rw [size_given] at hsize
  unfold given
  rw [if_pos hsize]

end

end BasicQueueManager
end Tdma
end Emane

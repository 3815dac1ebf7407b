import Mathlib.Algebra.Order.BigOperators.Group.List
import Mathlib.Algebra.Order.Group.Nat
import Emane.Tdma.Impl.BasicQueueManager
import Emane.Tdma.Lemmas.Fill
import Emane.Tdma.Lemmas.History

/-!
This module contains what a dequeue of the queue manager takes from each queue and what it returns
of it.
-/

namespace Emane
namespace Tdma
namespace BasicQueueManager

structure Manages (cfg : QueueManagerConfig) (queues : QueueIndex → Queue)
    (es : QueueIndex → List Entry) : Prop where
  holds : ∀ i, Queue.Holds (queues i) (es i)
  config : ∀ i, (queues i).toQueueConfig = queueConfig cfg i

theorem Manages.of_configure (id : NEMId) (cfg : QueueManagerConfig)
    : Manages cfg (configure id cfg).queues (fun _ => []) where
  holds := fun i => Queue.Holds.of_init (queueConfig cfg i)
  config := fun _ => rfl

section

variable {cfg : QueueManagerConfig} {queues : QueueIndex → Queue} {es : QueueIndex → List Entry}

theorem Manages.update (h : Manages cfg queues es) {i : QueueIndex} {queue : Queue} {es' : List Entry}
    (hholds : Queue.Holds queue es') (hconfig : queue.toQueueConfig = queueConfig cfg i)
    : Manages cfg (Function.update queues i queue) (Function.update es i es') := by
  constructor
  . intro j
    by_cases hij : j = i
    . subst hij
      simpa using hholds
    . simpa [hij] using h.holds j
  . intro j
    by_cases hij : j = i
    . subst hij
      simpa using hconfig
    . simpa [hij] using h.config j

def request (cfg : QueueManagerConfig) (i : QueueIndex) (requestedBytes : Nat) (destination : NEMId)
    (drop : Bool)
    : Fifo.Request :=
  Queue.dequeue.request (queueConfig cfg i) requestedBytes destination drop

structure Ask where
  queue : QueueIndex
  room : Nat
  drop : Bool
  deriving DecidableEq

def Ask.request (cfg : QueueManagerConfig) (destination : NEMId) (a : Ask) : Fifo.Request :=
  BasicQueueManager.request cfg a.queue a.room destination a.drop

def kind (i : QueueIndex) : MessageComponent.Kind :=
  if i = 4 then .control else .data

theorem kind_request (cfg : QueueManagerConfig) (i : QueueIndex) (requestedBytes : Nat)
    (destination : NEMId) (drop : Bool)
    : (request cfg i requestedBytes destination drop).kind = kind i := by
  simp [request, Queue.dequeue.request, QueueConfig.kind, queueConfig, kind]

theorem Manages.dequeue (h : Manages cfg queues es) (i : QueueIndex) (requestedBytes : Nat)
    (destination : NEMId)
    (drop : Bool)
    : let p := request cfg i requestedBytes destination drop
      let fs := Fifo.fates p (es i) ⟨[], 0, []⟩
      let r := (Fifo.dequeue p (es i) ⟨[], 0, []⟩).2
      ∃ queue,
        (queues i).dequeue requestedBytes destination drop = some (r, queue)
          ∧ Manages cfg (Function.update queues i queue) (Function.update es i fs.after)
          ∧ Fifo.Decomposes p (es i) ⟨[], 0, []⟩ fs.after r fs := by
  intro p fs r
  obtain ⟨queue, heq, hholds, hconfig, _, hfs⟩ := (h.holds i).dequeue requestedBytes destination drop
  rw [h.config i] at heq hholds hfs hconfig
  exact ⟨queue, heq, h.update hholds hconfig, hfs⟩

end

def given (i : QueueIndex) (fs : Fifo.Fates) : MessageComponents :=
  if MessageComponents.size (fs.components (kind i)) = 0 then [] else fs.components (kind i)

def Lost (i : QueueIndex) (fs : Fifo.Fates) : Prop :=
  fs.components (kind i) ≠ [] ∧ MessageComponents.size (fs.components (kind i)) = 0

theorem size_given (i : QueueIndex) (fs : Fifo.Fates)
    : MessageComponents.size (given i fs) = MessageComponents.size (fs.components (kind i)) := by
  unfold given
  split
  . next h => exact h.symm
  . rfl

theorem size_flatMap_given (fs : QueueIndex → Fifo.Fates) (is : List QueueIndex)
    : MessageComponents.size (is.flatMap (fun i => given i (fs i)))
        =
      MessageComponents.size (is.flatMap (fun i => (fs i).components (kind i))) := by
  induction is with
  | nil => rfl
  | cons i is ih =>
    rw [List.flatMap_cons, List.flatMap_cons]
    rw [MessageComponents.size_append, MessageComponents.size_append]
    rw [size_given, ih]

@[simp]
theorem given_allKept (i : QueueIndex) (es : List Entry) : given i (Fifo.Fates.allKept es) = [] := by
  simp [given]

theorem given_of_not_lost {i : QueueIndex} {fs : Fifo.Fates} (h : ¬ Lost i fs)
    : given i fs = fs.components (kind i) := by
  unfold given
  split
  . next hsize =>
    unfold Lost at h
    rw [not_and_or, not_not] at h
    cases h with
    | inl h => exact h.symm
    | inr h => exact absurd hsize h
  . rfl

def Report.isTooBig : Report → Bool
  | .outbound _ _ _ _ .DROP_TOO_BIG => true
  | _ => false

namespace dequeue

section

variable {p : Fifo.Request} {es es' : List Entry} {r : Queue.dequeue.Result} {fs : Fifo.Fates}
  (h : Fifo.Decomposes p es ⟨[], 0, []⟩ es' r fs) {i : QueueIndex} (hkind : p.kind = kind i)
    (q : QueueIndex)
  (queue : Queue) (s : State)

@[simp]
theorem queues_record (i : QueueIndex) (r : Queue.dequeue.Result)
    : (record q i r queue s).queues = Function.update s.queues i queue := by
  unfold record
  split
  . rfl
  . rfl

theorem tooBig_record (i : QueueIndex) (r : Queue.dequeue.Result)
    : (record q i r queue s).reports.filter Report.isTooBig = s.reports.filter Report.isTooBig := by
  unfold record
  split
  . simp [Report.isTooBig]
  . rfl

include h hkind in
theorem totalLength_record
    : (record q i r queue s).totalLength
        = s.totalLength + MessageComponents.size (fs.components (kind i)) := by
  have htotal := h.totalBytes
  rw [hkind] at htotal
  unfold record
  split
  . simp [htotal]
  . next hzero =>
    simp only
    omega

include h hkind in
theorem components_record : (record q i r queue s).components = s.components ++ given i fs := by
  have htotal := h.totalBytes
  have hcomponents := h.components
  rw [hkind] at htotal hcomponents
  unfold record given
  rw [htotal, hcomponents]
  simp only [Nat.zero_add, List.nil_append]
  split
  . rfl
  . next hzero =>
    simp [hzero]

end

def asked (cfg : QueueManagerConfig) (q : QueueIndex) (requestedBytes : Nat) (destination : NEMId)
    (es : QueueIndex → List Entry)
    : List QueueIndex → Nat → List Ask
  | [], _ => []
  | i :: is, total =>
    if mayAggregate cfg requestedBytes total then
      if i ≠ q then
        let a : Ask := ⟨i, requestedBytes - total, false⟩
        a :: asked cfg q requestedBytes destination es is
          (total + Fifo.taken (a.request cfg destination) (es i))
      else
        asked cfg q requestedBytes destination es is total
    else
      []

section

variable {cfg : QueueManagerConfig} {q : QueueIndex} {requestedBytes : Nat} {destination : NEMId}

theorem asked_congr {es es' : QueueIndex → List Entry} {is : List QueueIndex}
    (h : ∀ i ∈ is, i ≠ q → es i = es' i)
    (total : Nat)
    : asked cfg q requestedBytes destination es is total
        = asked cfg q requestedBytes destination es' is total := by
  induction is generalizing total with
  | nil => rfl
  | cons i is ih =>
    have ih := ih (fun j hj => h j (by simp [hj]))
    unfold asked
    split
    . split
      . next hi => simp only [h i (by simp) hi, ih]
      . exact ih total
    . rfl

theorem mem_of_mem_asked {es : QueueIndex → List Entry} {is : List QueueIndex} {total : Nat} {a : Ask}
    (h : a ∈ asked cfg q requestedBytes destination es is total)
    : a.queue ∈ is ∧ a.queue ≠ q := by
  induction is generalizing total with
  | nil => simp [asked] at h
  | cons i is ih =>
    unfold asked at h
    rw [List.mem_cons]
    split at h
    . split at h
      . next hi =>
        rw [List.mem_cons] at h
        cases h with
        | inl h =>
          rw [h]
          exact ⟨Or.inl rfl, hi⟩
        | inr h => exact ⟨Or.inr (ih h).1, (ih h).2⟩
      . exact ⟨Or.inr (ih h).1, (ih h).2⟩
    . simp at h

end

structure Shares (cfg : QueueManagerConfig) (q : QueueIndex) (requestedBytes : Nat) (destination : NEMId)
    (es : QueueIndex → List Entry) (is : List QueueIndex) (s s' : State)
    (fs : QueueIndex → Fifo.Fates) : Prop where
  manages : Manages cfg s'.queues (fun i => (fs i).after)
  before : ∀ i, (fs i).before = es i
  components : s'.components = s.components ++ is.flatMap (fun i => given i (fs i))
  totalLength : s'.totalLength
    = s.totalLength + MessageComponents.size (is.flatMap (fun i => (fs i).components (kind i)))
  bound : s'.totalLength ≤ requestedBytes
  tooBig : s'.reports.filter Report.isTooBig = s.reports.filter Report.isTooBig
  discarded : ∀ i, (fs i).discarded = []
  untouched : ∀ i, i ∉ is ∨ i = q → s'.queues i = s.queues i ∧ fs i = Fifo.Fates.allKept (es i)
  touched : ∀ pre i post, is = pre ++ i :: post → s'.queues i ≠ s.queues i →
    mayAggregate cfg requestedBytes
      (s.totalLength + MessageComponents.size (pre.flatMap (fun i => (fs i).components (kind i))))
  fates : ∀ a ∈ asked cfg q requestedBytes destination es is s.totalLength,
    fs a.queue = Fifo.fates (a.request cfg destination) (es a.queue) ⟨[], 0, []⟩
  kept : ∀ i, (∀ a ∈ asked cfg q requestedBytes destination es is s.totalLength, a.queue ≠ i) →
    fs i = Fifo.Fates.allKept (es i)

section

variable {cfg : QueueManagerConfig} {q : QueueIndex} {requestedBytes : Nat} {destination : NEMId}
  {es : QueueIndex → List Entry} {i : QueueIndex} {is : List QueueIndex} {s s' : State}
    {fs : QueueIndex → Fifo.Fates}

theorem not_lost_allKept (i : QueueIndex) (es : List Entry) : ¬ Lost i (Fifo.Fates.allKept es) := by
  simp [Lost]

theorem Shares.refl (h : Manages cfg s.queues es) (hbound : s.totalLength ≤ requestedBytes)
    (hasked : asked cfg q requestedBytes destination es is s.totalLength = [])
    : Shares cfg q requestedBytes destination es is s s (fun i => Fifo.Fates.allKept (es i)) := by
  have hnone : is.flatMap (fun i => (Fifo.Fates.allKept (es i)).components (kind i)) = [] := by simp
  constructor
  . simpa using h
  . simp
  . simp
  . rw [hnone]
    rfl
  . exact hbound
  . rfl
  . simp
  . simp
  . simp
  . simp [hasked]
  . simp

theorem Shares.skip (hmay : mayAggregate cfg requestedBytes s.totalLength)
    (h : Shares cfg i requestedBytes destination es is s s' fs)
    : Shares cfg i requestedBytes destination es (i :: is) s s' fs := by
  have hkept := (h.untouched i (Or.inr rfl)).2
  have hnone : (fs i).components (kind i) = [] := by
    rw [hkept]
    simp
  constructor
  . exact h.manages
  . exact h.before
  . rw [h.components]
    simp [hkept]
  . rw [h.totalLength]
    simp [hnone]
  . exact h.bound
  . exact h.tooBig
  . exact h.discarded
  . intro j hj
    apply h.untouched
    simp only [List.mem_cons, not_or] at hj
    cases hj with
    | inl hj => exact Or.inl hj.2
    | inr hj => exact Or.inr hj
  . intro pre j post heq hne
    cases pre with
    | nil => simpa using hmay
    | cons k pre =>
      simp only [List.cons_append, List.cons.injEq] at heq
      have := h.touched pre j post heq.2 hne
      rw [← heq.1]
      simpa [hnone] using this
  . simpa [asked, hmay] using h.fates
  . simpa [asked, hmay] using h.kept

theorem flatMap_update {α : Type u} {β : Type v} [DecidableEq α] {as : List α} {a : α} (ha : a ∉ as)
    (f : α → γ) (c : γ) (g : α → γ → List β)
    : as.flatMap (fun b => g b (Function.update f a c b)) = as.flatMap (fun b => g b (f b)) := by
  apply List.flatMap_congr
  intro b hb
  rw [Function.update_of_ne]
  intro heq
  exact ha (heq ▸ hb)

theorem Shares.visit (hmay : mayAggregate cfg requestedBytes s.totalLength) (hi : i ≠ q) (hnotin : i ∉ is)
    {fs₀ : Fifo.Fates} {r : Queue.dequeue.Result} {queue : Queue}
    (hr : r = (Fifo.dequeue (request cfg i (requestedBytes - s.totalLength) destination false)
      (es i) ⟨[], 0, []⟩).2)
    (hfates : fs₀ = Fifo.fates (request cfg i (requestedBytes - s.totalLength) destination false)
      (es i) ⟨[], 0, []⟩)
    (hfs : Fifo.Decomposes (request cfg i (requestedBytes - s.totalLength) destination false)
      (es i) ⟨[], 0, []⟩
      fs₀.after r fs₀)
    (h : Shares cfg q requestedBytes destination (Function.update es i fs₀.after) is
      (record q i r queue s) s' fs)
    : Shares cfg q requestedBytes destination es (i :: is) s s' (Function.update fs i fs₀) := by
  have hkind := kind_request cfg i (requestedBytes - s.totalLength) destination false
  have hkept := h.untouched i (Or.inl hnotin)
  have hother : ∀ j, j ≠ i → Function.update fs i fs₀ j = fs j := fun j hj => Function.update_of_ne hj _ _
  have htotal : (record q i r queue s).totalLength
      = s.totalLength + MessageComponents.size (fs₀.components (kind i)) :=
        totalLength_record hfs hkind q queue s
  have hcomponents : (record q i r queue s).components = s.components ++ given i fs₀ :=
    components_record hfs hkind q queue s
  have htaken : s.totalLength + Fifo.taken
    (request cfg i (requestedBytes - s.totalLength) destination false) (es i)
      = (record q i r queue s).totalLength := by
    rw [htotal, ← Fifo.totalBytes_dequeue_nil, ← hr, hfs.totalBytes, hkind]
    simp
  have hcongr : ∀ j ∈ is, j ≠ q → es j = Function.update es i fs₀.after j := by
    intro j hj _
    rw [Function.update_of_ne]
    intro hji
    exact hnotin (hji ▸ hj)
  have hasked : asked cfg q requestedBytes destination es (i :: is) s.totalLength
      = ⟨i, requestedBytes - s.totalLength, false⟩
        :: asked cfg q requestedBytes destination (Function.update es i fs₀.after) is
            (record q i r queue s).totalLength := by
    rw [← asked_congr hcongr, ← htaken]
    simp [asked, hmay, hi, Ask.request]
  have hmem : ∀ a ∈ asked cfg q requestedBytes destination (Function.update es i fs₀.after) is
      (record q i r queue s).totalLength, a.queue ≠ i := by
    intro a ha hai
    exact hnotin (hai ▸ (mem_of_mem_asked ha).1)
  constructor
  . have hafter : (fun j => (Function.update fs i fs₀ j).after) = (fun j => (fs j).after) := by
      funext j
      by_cases hj : j = i
      . subst hj
        simp [hkept.2]
      . rw [hother j hj]
    rw [hafter]
    exact h.manages
  . intro j
    by_cases hj : j = i
    . subst hj
      simpa using hfs.before
    . simpa [hj] using h.before j
  . rw [h.components, hcomponents]
    simp only [List.flatMap_cons, Function.update_self, List.append_assoc]
    rw [flatMap_update hnotin fs fs₀ (fun j fs => given j fs)]
  . rw [h.totalLength, htotal]
    simp only [List.flatMap_cons, Function.update_self, MessageComponents.size_append]
    rw [flatMap_update hnotin fs fs₀ (fun j fs => fs.components (kind j))]
    omega
  . exact h.bound
  . rw [h.tooBig]
    exact tooBig_record q queue s i r
  . intro j
    by_cases hj : j = i
    . subst hj
      rw [Function.update_self]
      exact Fifo.Fates.discarded_of_not_drop hfs.allowed rfl
    . rw [hother j hj]
      exact h.discarded j
  . intro j hj
    have hji : j ≠ i := by
      rw [List.mem_cons, not_or] at hj
      cases hj with
      | inl hj => exact hj.1
      | inr hj => exact hj ▸ hi.symm
    have hj' : j ∉ is ∨ j = q := by
      rw [List.mem_cons, not_or] at hj
      exact hj.imp_left And.right
    have huntouched := h.untouched j hj'
    rw [queues_record, Function.update_of_ne hji, Function.update_of_ne hji] at huntouched
    rw [hother j hji]
    exact huntouched
  . intro pre j post heq hne
    cases pre with
    | nil => simpa using hmay
    | cons k pre =>
      simp only [List.cons_append, List.cons.injEq] at heq
      obtain ⟨rfl, heq⟩ := heq
      have hji : j ≠ i := by
        intro hji
        rw [heq, hji] at hnotin
        simp at hnotin
      have hpre : i ∉ pre := by
        intro hmem
        rw [heq] at hnotin
        simp [hmem] at hnotin
      have htouched := h.touched pre j post heq (by rwa [queues_record, Function.update_of_ne hji])
      rw [htotal] at htouched
      simp only [List.flatMap_cons, Function.update_self, MessageComponents.size_append]
      rw [flatMap_update hpre fs fs₀ (fun j fs => fs.components (kind j))]
      rw [← Nat.add_assoc]
      exact htouched
  . intro a ha
    rw [hasked, List.mem_cons] at ha
    cases ha with
    | inl ha =>
      rw [ha, Function.update_self]
      exact hfates
    | inr ha =>
      have hai := hmem a ha
      rw [hother _ hai, h.fates a ha, Function.update_of_ne hai]
  . intro j hj
    rw [hasked] at hj
    have hji : j ≠ i := (hj _ List.mem_cons_self).symm
    rw [hother j hji, h.kept j (fun a ha => hj a (List.mem_cons_of_mem _ ha)), Function.update_of_ne hji]

theorem others_eq (cfg : QueueManagerConfig) (q : QueueIndex) (requestedBytes : Nat) (destination : NEMId)
    (is : List QueueIndex) (hnodup : is.Nodup) {s : State} {es : QueueIndex → List Entry}
    (h : Manages cfg s.queues es) (hbound : s.totalLength ≤ requestedBytes)
    : ∃ s' fs,
        others cfg q requestedBytes destination is s = some s'
          ∧ Shares cfg q requestedBytes destination es is s s' fs := by
  induction is generalizing s es with
  | nil => exact ⟨s, _, rfl, Shares.refl h hbound rfl⟩
  | cons i is ih =>
    rw [List.nodup_cons] at hnodup
    unfold others
    split
    . next hmay =>
      split
      . next hi =>
        obtain ⟨queue, heq, hmanages, hfs⟩ := h.dequeue i
          (requestedBytes - s.totalLength) destination false
        have hkind := kind_request cfg i (requestedBytes - s.totalLength) destination false
        generalize hr : (Fifo.dequeue
          (request cfg i (requestedBytes - s.totalLength) destination false) (es i)
          ⟨[], 0, []⟩).2 = r at heq hfs
        generalize hfates : Fifo.fates
          (request cfg i (requestedBytes - s.totalLength) destination false) (es i)
          ⟨[], 0, []⟩ = fs₀ at hfs hmanages
        have hle : r.totalBytes ≤ requestedBytes - s.totalLength := by
          rw [← hr]
          exact Fifo.totalBytes_dequeue_le _ _ _ (Nat.zero_le _)
        have htotal := hfs.totalBytes
        rw [hkind] at htotal
        obtain ⟨s', fs, hothers, hshares⟩ := ih hnodup.2 (s := record q i r queue s)
          (by rw [queues_record]; exact hmanages)
          (by rw [totalLength_record hfs hkind]; simp only [Nat.zero_add] at htotal; omega)
        refine ⟨s', _, ?_, hshares.visit hmay hi hnodup.1 hr.symm hfates.symm hfs⟩
        rw [heq]
        exact hothers
      . next hi =>
        rw [not_not] at hi
        obtain ⟨s', fs, hothers, hshares⟩ := ih hnodup.2 h hbound
        subst hi
        exact ⟨s', fs, hothers, hshares.skip hmay⟩
    . next hmay => exact ⟨s, _, rfl, Shares.refl h hbound (by simp [asked, hmay])⟩

end

theorem tooBig_reportDrops (i : QueueIndex) (dropped : List OwnedPacket) (s : State)
    : (reportDrops i dropped s).reports.filter Report.isTooBig
        =
      s.reports.filter Report.isTooBig ++ dropped.map (fun d => outbound d.packet .DROP_TOO_BIG) := by
  unfold reportDrops
  simp only [List.filter_append]
  congr 1
  induction dropped with
  | nil => rfl
  | cons d dropped ih =>
    rw [List.flatMap_cons, List.filter_append, ih]
    rfl

theorem order_eq (i : QueueIndex)
    : order = order.filter (fun j => i < j) ++ i :: order.filter (fun j => j < i) := by
  revert i
  decide

theorem order_filter_eq (i : QueueIndex) : order.filter (fun j => j.val = i.val) = [i] := by
  revert i
  decide

theorem flatMap_filter_of_nil {α : Type u} {β : Type v} {as : List α} {p : α → Bool} {f : α → List β}
    (h : ∀ a ∈ as, ¬ p a → f a = [])
    : (as.filter p).flatMap f = as.flatMap f := by
  induction as with
  | nil => rfl
  | cons a as ih =>
    have ih := ih (fun b hb => h b (by simp [hb]))
    by_cases hp : p a
    . rw [List.filter_cons_of_pos hp, List.flatMap_cons, List.flatMap_cons, ih]
    . rw [List.filter_cons_of_neg hp, List.flatMap_cons, ih, h a (by simp) hp]
      rfl

section

variable {cfg : QueueManagerConfig} {q : QueueIndex} {requestedBytes : Nat} {destination : NEMId}
  {es : QueueIndex → List Entry} {is : List QueueIndex} {s s' : State} {fs : QueueIndex → Fifo.Fates}

theorem Shares.flatMap_eq (h : Shares cfg q requestedBytes destination es is s s' fs) (fs₀ : Fifo.Fates)
    (g : QueueIndex → Fifo.Fates → List β) (hg : ∀ i es, g i (Fifo.Fates.allKept es) = [])
    (js : List QueueIndex)
    : js.flatMap (fun i => g i (fs i))
        =
      (js.filter (fun i => i.val ≠ q.val)).flatMap (fun i => g i (Function.update fs q fs₀ i)) := by
  rw [← flatMap_filter_of_nil (p := fun i => decide (i.val ≠ q.val))]
  . apply List.flatMap_congr
    intro i hi
    rw [Function.update_of_ne]
    intro heq
    simp [heq] at hi
  . intro i _ hi
    have heq : i = q := by
      apply Fin.ext
      simpa using hi
    rw [(h.untouched i (Or.inr heq)).2]
    exact hg i (es i)

theorem Shares.flatMap_order (h : Shares cfg q requestedBytes destination es is s s' fs)
    (his : is = order ∨ is = [])
    (g : QueueIndex → Fifo.Fates → List β) (hg : ∀ i es, g i (Fifo.Fates.allKept es) = [])
    : is.flatMap (fun i => g i (fs i)) = order.flatMap (fun i => g i (fs i)) := by
  cases his with
  | inl his => rw [his]
  | inr his =>
    rw [his, List.flatMap_nil]
    symm
    rw [List.flatMap_eq_nil_iff]
    intro i _
    rw [(h.untouched i (Or.inl (by simp [his]))).2]
    exact hg i (es i)

end

end dequeue

def visitOrder (queueIndex : Nat) : List QueueIndex :=
  dequeue.order.filter (fun i => i.val = queueIndex) ++ dequeue.order.filter (fun i => i.val ≠ queueIndex)

def visitedBefore (queueIndex : Nat) (i : QueueIndex) : List QueueIndex :=
  dequeue.order.filter (fun j => j.val = queueIndex) ++ dequeue.order.filter
    (fun j => j.val ≠ queueIndex ∧ i < j)

/--
The conservation of packets and fragments by one call: `fs` says what happened to every packet of
every queue, and all of it shows in the components or in the drops.
-/
structure Conserves (m m' : BasicQueueManager) (queueIndex requestedBytes : Nat) (d : Dequeued)
    (fs : QueueIndex → Fifo.Fates) : Prop where
  before : ∀ i, (fs i).before = (m.queues i).entries
  after : ∀ i, (fs i).after = (m'.queues i).entries
  components : d.components = (visitOrder queueIndex).flatMap (fun i => (fs i).components (kind i))
  drops : d.reports.filter Report.isTooBig
    = (visitOrder queueIndex).flatMap
      (fun i => (fs i).discarded.map (fun d => outbound d.packet .DROP_TOO_BIG))
  totalLength : d.totalLength = MessageComponents.size d.components
  bound : d.totalLength ≤ requestedBytes
  -- a queue that may not contribute is left exactly as it was
  touched : ∀ i : QueueIndex, i.val ≠ queueIndex → m'.queues i ≠ m.queues i →
    let total := MessageComponents.size
      ((visitedBefore queueIndex i).flatMap (fun j => (fs j).components (kind j)))
    m.strictDequeueEnable = false
      ∧ (total = 0 ∨ m.aggregationEnable = true ∧ total ≤ m.aggregationThreshold requestedBytes)

def asks (m : BasicQueueManager) (queueIndex requestedBytes : Nat) (destination : NEMId) : List Ask :=
  if h : queueIndex < MAX_QUEUES then
    let a : Ask := ⟨⟨queueIndex, h⟩, requestedBytes, true⟩
    let total := Fifo.taken (a.request m.toQueueManagerConfig destination) (m.queues a.queue).entries
    a :: if m.strictDequeueEnable then [] else
      dequeue.asked m.toQueueManagerConfig a.queue requestedBytes destination
        (fun i => (m.queues i).entries)
        dequeue.order total
  else
    []

def LosesNothing (m : BasicQueueManager) (queueIndex requestedBytes : Nat) (destination : NEMId) : Prop :=
  ∀ a ∈ m.asks queueIndex requestedBytes destination,
    ¬ Fifo.Wastes (a.request m.toQueueManagerConfig destination) (m.queues a.queue).entries

instance (m : BasicQueueManager) (queueIndex requestedBytes : Nat) (destination : NEMId)
    : Decidable (m.LosesNothing queueIndex requestedBytes destination) :=
  inferInstanceAs (Decidable (∀ a ∈ _, _))

structure Spends (m m' : BasicQueueManager) (queueIndex requestedBytes : Nat) (destination : NEMId)
    (d : Dequeued)
    (fs : QueueIndex → Fifo.Fates) : Prop where
  config : m'.toQueueManagerConfig = m.toQueueManagerConfig
  manages : Manages m.toQueueManagerConfig m'.queues (fun i => (fs i).after)
  before : ∀ i, (fs i).before = (m.queues i).entries
  components : d.components = (visitOrder queueIndex).flatMap (fun i => given i (fs i))
  drops : d.reports.filter Report.isTooBig
    = (visitOrder queueIndex).flatMap
      (fun i => (fs i).discarded.map (fun d => outbound d.packet .DROP_TOO_BIG))
  totalLength : d.totalLength = MessageComponents.size d.components
  bound : d.totalLength ≤ requestedBytes
  touched : ∀ i : QueueIndex, i.val ≠ queueIndex → m'.queues i ≠ m.queues i →
    m.strictDequeueEnable = false
      ∧ dequeue.mayAggregate m.toQueueManagerConfig requestedBytes
      (MessageComponents.size
        ((visitedBefore queueIndex i).flatMap (fun j => (fs j).components (kind j))))
  fates : ∀ a ∈ m.asks queueIndex requestedBytes destination,
    fs a.queue = Fifo.fates (a.request m.toQueueManagerConfig destination)
      (m.queues a.queue).entries ⟨[], 0, []⟩
  kept : ∀ i, (∀ a ∈ m.asks queueIndex requestedBytes destination, a.queue ≠ i) →
    fs i = Fifo.Fates.allKept (m.queues i).entries

variable {destination : NEMId}

theorem lost_iff {cfg : QueueManagerConfig} {es : List Entry} (a : Ask)
    : Lost a.queue (Fifo.fates (a.request cfg destination) es ⟨[], 0, []⟩)
        ↔
      Fifo.Wastes (a.request cfg destination) es := by
  have hkind : (a.request cfg destination).kind = kind a.queue :=
    kind_request cfg a.queue a.room destination a.drop
  have hfs := Fifo.dequeue_decomposes (a.request cfg destination) es ⟨[], 0, []⟩
  rw [Fifo.wastes_iff, hfs.components, hfs.totalBytes, hkind]
  simp [Lost]

variable {m m' : BasicQueueManager} {queueIndex requestedBytes : Nat} {d : Dequeued}
  {fs : QueueIndex → Fifo.Fates}

theorem Spends.losesNothing_iff (h : Spends m m' queueIndex requestedBytes destination d fs)
    : m.LosesNothing queueIndex requestedBytes destination ↔ ∀ i, ¬ Lost i (fs i) := by
  constructor
  . intro hloses i
    by_cases hask : ∃ a ∈ m.asks queueIndex requestedBytes destination, a.queue = i
    . obtain ⟨a, ha, rfl⟩ := hask
      rw [h.fates a ha, lost_iff]
      exact hloses a ha
    . rw [h.kept i (fun a ha hai => hask ⟨a, ha, hai⟩)]
      exact dequeue.not_lost_allKept i _
  . intro hlost a ha
    rw [← lost_iff, ← h.fates a ha]
    exact hlost a.queue

section

variable {m : BasicQueueManager} {es : QueueIndex → List Entry}

theorem Manages.entries_eq (h : Manages m.toQueueManagerConfig m.queues es)
    : (fun i => (m.queues i).entries) = es := by
  funext i
  exact (h.holds i).entries_eq

theorem exists_spends_of_le (h : Manages m.toQueueManagerConfig m.queues es) {queueIndex : Nat}
    (hle : ¬ queueIndex < MAX_QUEUES) (requestedBytes : Nat) (destination : NEMId)
    : ∃ d m' fs,
        m.dequeue queueIndex requestedBytes destination = some (d, m')
          ∧ Spends m m' queueIndex requestedBytes destination d fs := by
  refine ⟨⟨[], 0, []⟩, m, fun i => Fifo.Fates.allKept (m.queues i).entries, ?_, ?_⟩
  . unfold dequeue dequeue.collect
    rw [dif_neg hle]
    rfl
  . have hentries := h.entries_eq
    constructor
    . rfl
    . simp only [Fifo.Fates.after_allKept]
      rw [hentries]
      exact h
    . simp
    . simp
    . simp
    . rfl
    . simp
    . simp
    . simp [asks, hle]
    . simp

structure Starts (m : BasicQueueManager) (q : QueueIndex) (requestedBytes : Nat) (destination : NEMId)
    (es : QueueIndex → List Entry) (queue : Queue) (s : dequeue.State) (fs : Fifo.Fates) : Prop where
  queues : s.queues = Function.update m.queues q queue
  manages : Manages m.toQueueManagerConfig s.queues (Function.update es q fs.after)
  before : fs.before = es q
  components : s.components = given q fs
  totalLength : s.totalLength = MessageComponents.size (fs.components (kind q))
  bound : s.totalLength ≤ requestedBytes
  drops : s.reports.filter Report.isTooBig = fs.discarded.map (fun d => outbound d.packet .DROP_TOO_BIG)
  fates : fs = Fifo.fates (request m.toQueueManagerConfig q requestedBytes destination true)
    (es q) ⟨[], 0, []⟩
  taken : Fifo.taken (request m.toQueueManagerConfig q requestedBytes destination true)
    (es q) = s.totalLength

theorem exists_starts (h : Manages m.toQueueManagerConfig m.queues es) (q : QueueIndex)
    (requestedBytes : Nat)
    (destination : NEMId)
    : ∃ r queue fs,
        (m.queues q).dequeue requestedBytes destination true = some (r, queue)
          ∧ Starts m q requestedBytes destination es queue
          (dequeue.reportDrops q r.dropped (dequeue.record q q r queue ⟨m.queues, [], 0, []⟩)) fs := by
  obtain ⟨queue, heq, hmanages, hfs⟩ := h.dequeue q requestedBytes destination true
  have hkind := kind_request m.toQueueManagerConfig q requestedBytes destination true
  have htotal := dequeue.totalLength_record hfs hkind q queue ⟨m.queues, [], 0, []⟩
  have hbytes := hfs.totalBytes
  have hle := Fifo.totalBytes_dequeue_le
    (request m.toQueueManagerConfig q requestedBytes destination true) (es q)
    ⟨[], 0, []⟩ (Nat.zero_le _)
  rw [hkind] at hbytes
  simp only [Nat.zero_add] at hbytes htotal
  refine ⟨_, queue, Fifo.fates (request m.toQueueManagerConfig q requestedBytes destination true)
    (es q) ⟨[], 0, []⟩,
    heq, ?_⟩
  constructor
  . exact dequeue.queues_record q queue ⟨m.queues, [], 0, []⟩ q _
  . have hqueues := dequeue.queues_record q queue ⟨m.queues, [], 0, []⟩ q
      (Fifo.dequeue (request m.toQueueManagerConfig q requestedBytes destination true) (es q)
        ⟨[], 0, []⟩).2
    unfold dequeue.reportDrops
    rw [hqueues]
    exact hmanages
  . exact hfs.before
  . exact dequeue.components_record hfs hkind q queue ⟨m.queues, [], 0, []⟩
  . exact htotal
  . unfold dequeue.reportDrops
    rw [htotal, ← hbytes]
    exact hle
  . rw [dequeue.tooBig_reportDrops, dequeue.tooBig_record, hfs.dropped]
    rfl
  . rfl
  . rw [← Fifo.totalBytes_dequeue_nil, hbytes]
    exact htotal.symm

variable {q : QueueIndex} {requestedBytes : Nat} {destination : NEMId} {s : dequeue.State}
  {fs₀ : Fifo.Fates}

theorem Starts.asks_eq {queue : Queue} (hs : Starts m q requestedBytes destination es queue s fs₀)
    (h : Manages m.toQueueManagerConfig m.queues es)
    : m.asks q.val requestedBytes destination
        =
      ⟨q, requestedBytes, true⟩
        :: dequeue.asked m.toQueueManagerConfig q requestedBytes destination
          (Function.update es q fs₀.after)
          (if m.strictDequeueEnable then [] else dequeue.order) s.totalLength := by
  have hentries := h.entries_eq
  have hcongr : ∀ j ∈ dequeue.order, j ≠ q → es j = Function.update es q fs₀.after j := by
    intro j _ hj
    rw [Function.update_of_ne hj]
  unfold asks
  rw [dif_pos q.isLt]
  simp only
  rw [hentries, congrFun hentries q, ← hs.taken]
  split
  . rfl
  . rw [dequeue.asked_congr hcongr]
    rfl

variable {s' : dequeue.State} {fs : QueueIndex → Fifo.Fates}

theorem dequeue.Shares.flatMap_visitOrder {cfg : QueueManagerConfig} {strict : Bool}
    (hshares : dequeue.Shares cfg q requestedBytes destination es
      (if strict then [] else dequeue.order) s s' fs)
    (fs₀ : Fifo.Fates) {β : Type} (g : QueueIndex → Fifo.Fates → List β)
    (hg : ∀ i es, g i (Fifo.Fates.allKept es) = [])
    : (visitOrder q.val).flatMap (fun i => g i (Function.update fs q fs₀ i))
        =
      g q fs₀ ++ (if strict then [] else dequeue.order).flatMap (fun i => g i (fs i)) := by
  unfold visitOrder
  rw [dequeue.order_filter_eq, List.flatMap_append]
  rw [← hshares.flatMap_eq fs₀ g hg]
  rw [hshares.flatMap_order (by split <;> simp) g hg]
  simp

theorem dequeue.Shares.room_of_touched {cfg : QueueManagerConfig} {strict : Bool}
    (hshares : dequeue.Shares cfg q requestedBytes destination es
      (if strict then [] else dequeue.order) s s' fs)
      (htotal : s.totalLength = MessageComponents.size (fs₀.components (kind q))) {i : QueueIndex}
    (hne : s'.queues i ≠ s.queues i)
    : strict = false
        ∧ dequeue.mayAggregate cfg requestedBytes
        (MessageComponents.size
          ((visitedBefore q.val i).flatMap
              (fun j => (Function.update fs q fs₀ j).components (kind j)))) := by
  cases strict with
  | true => exact absurd (hshares.untouched i (Or.inl (by simp))).1 hne
  | false =>
    have htouched := hshares.touched _ i _ (dequeue.order_eq i) hne
    rw [hshares.flatMap_eq fs₀ (fun i fs => fs.components (kind i)) (by simp), htotal,
      List.filter_filter] at htouched
    refine ⟨rfl, ?_⟩
    unfold visitedBefore
    rw [dequeue.order_filter_eq, List.flatMap_append, MessageComponents.size_append]
    simpa using htouched

theorem Starts.spends {queue : Queue}
    (h : Manages m.toQueueManagerConfig m.queues es)
    (hs : Starts m q requestedBytes destination es queue s fs₀)
    (hshares : dequeue.Shares m.toQueueManagerConfig q requestedBytes destination
      (Function.update es q fs₀.after)
      (if m.strictDequeueEnable then [] else dequeue.order) s s' fs)
    : Spends m { m with queues := s'.queues } q.val requestedBytes destination
        ⟨
          s'.components,
          s'.totalLength,
          s'.reports ++ s'.components.map
            (fun c => Report.outbound m.id c.destination c.priority c.size .ACCEPT_GOOD)
        ⟩
        (Function.update fs q fs₀) := by
  have hkept := hshares.untouched q (Or.inr rfl)
  have hother : ∀ i, i ≠ q → Function.update fs q fs₀ i = fs i := fun i hi => Function.update_of_ne hi _ _
  have hentries := h.entries_eq
  have hasks := hs.asks_eq h
  have hmem : ∀ a ∈ dequeue.asked m.toQueueManagerConfig q requestedBytes destination
      (Function.update es q fs₀.after) (if m.strictDequeueEnable then [] else dequeue.order)
        s.totalLength,
      a.queue ≠ q := fun a ha => (dequeue.mem_of_mem_asked ha).2
  constructor
  . rfl
  . have hafter : (fun i => (Function.update fs q fs₀ i).after) = (fun i => (fs i).after) := by
      funext i
      by_cases hi : i = q
      . subst hi
        simp [hkept.2]
      . rw [hother i hi]
    rw [hafter]
    exact hshares.manages
  . intro i
    rw [congrFun hentries i]
    by_cases hi : i = q
    . subst hi
      simpa using hs.before
    . simpa [hi] using hshares.before i
  . rw [hshares.flatMap_visitOrder fs₀ (fun i fs => given i fs) (fun i es => given_allKept i es)]
    rw [hshares.components, hs.components]
  . rw [hshares.flatMap_visitOrder fs₀
      (fun i fs => fs.discarded.map (fun d => outbound d.packet .DROP_TOO_BIG)) (by simp)]
    rw [List.filter_append, hshares.tooBig, hs.drops]
    congr 1
    rw [List.filter_eq_nil_iff.mpr, List.flatMap_eq_nil_iff.mpr]
    . intro i _
      simp [hshares.discarded i]
    . intro report hreport
      rw [List.mem_map] at hreport
      obtain ⟨c, _, rfl⟩ := hreport
      simp [Report.isTooBig]
  . rw [hshares.totalLength, hshares.components, hs.totalLength, hs.components]
    rw [MessageComponents.size_append, size_given, size_flatMap_given]
  . exact hshares.bound
  . intro i hi hne
    have hiq : i ≠ q := fun heq => hi (congrArg Fin.val heq)
    have hne' : s'.queues i ≠ s.queues i := by
      rw [hs.queues, Function.update_of_ne hiq]
      exact hne
    exact hshares.room_of_touched hs.totalLength hne'
  . intro a ha
    rw [hasks, List.mem_cons] at ha
    cases ha with
    | inl ha =>
      rw [ha, Function.update_self, congrFun hentries q]
      exact hs.fates
    | inr ha =>
      have haq := hmem a ha
      rw [hother _ haq, hshares.fates a ha, Function.update_of_ne haq, congrFun hentries a.queue]
  . intro i hi
    rw [hasks] at hi
    have hiq : i ≠ q := (hi _ List.mem_cons_self).symm
    rw [hother i hiq, hshares.kept i (fun a ha => hi a (List.mem_cons_of_mem _ ha)),
      Function.update_of_ne hiq]
    rw [congrFun hentries i]

theorem exists_spends (h : Manages m.toQueueManagerConfig m.queues es) (queueIndex requestedBytes : Nat)
    (destination : NEMId)
    : ∃ d m' fs,
        m.dequeue queueIndex requestedBytes destination = some (d, m')
          ∧ Spends m m' queueIndex requestedBytes destination d fs := by
  by_cases hlt : queueIndex < MAX_QUEUES
  . obtain ⟨r, queue, fs₀, heq, hstarts⟩ := exists_starts h ⟨queueIndex, hlt⟩ requestedBytes destination
    generalize hs : dequeue.reportDrops ⟨queueIndex, hlt⟩ r.dropped
      (dequeue.record ⟨queueIndex, hlt⟩ ⟨queueIndex, hlt⟩ r queue ⟨m.queues, [], 0, []⟩) = s at hstarts
    -- a strict dequeue is one that asks an empty list of other queues
    obtain ⟨s', fs, hothers, hshares⟩ :
        ∃ s' fs,
          (if m.strictDequeueEnable then some s
            else dequeue.others m.toQueueManagerConfig ⟨queueIndex, hlt⟩ requestedBytes destination
              dequeue.order s)
            = some s'
            ∧ dequeue.Shares m.toQueueManagerConfig ⟨queueIndex, hlt⟩ requestedBytes destination
            (Function.update es ⟨queueIndex, hlt⟩ fs₀.after)
              (if m.strictDequeueEnable then [] else dequeue.order) s s'
            fs := by
      split
      . exact ⟨s, _, rfl, dequeue.Shares.refl hstarts.manages hstarts.bound rfl⟩
      . exact dequeue.others_eq m.toQueueManagerConfig ⟨queueIndex, hlt⟩ requestedBytes destination
          dequeue.order
          (by decide) hstarts.manages hstarts.bound
    refine ⟨_, _, _, ?_, hstarts.spends h hshares⟩
    unfold dequeue dequeue.collect
    rw [dif_pos hlt]
    simp only [heq, Option.bind_eq_bind, Option.bind_some]
    rw [hs, hothers]
    rfl
  . exact exists_spends_of_le h hlt requestedBytes destination

end

theorem Spends.conserves (h : Spends m m' queueIndex requestedBytes destination d fs)
    (hlost : ∀ i, ¬ Lost i (fs i))
    : Conserves m m' queueIndex requestedBytes d fs := by
  constructor
  . exact h.before
  . intro i
    exact (h.manages.holds i).entries_eq.symm
  . rw [h.components]
    apply List.flatMap_congr
    intro i _
    exact given_of_not_lost (hlost i)
  . exact h.drops
  . exact h.totalLength
  . exact h.bound
  . intro i hi hne total
    obtain ⟨hstrict, hmay⟩ := h.touched i hi hne
    refine ⟨hstrict, ?_⟩
    unfold dequeue.mayAggregate at hmay
    simp only [ne_eq, Bool.and_eq_true, Bool.or_eq_true, decide_eq_true_eq] at hmay
    cases hmay.1 with
    | inl hzero => exact Or.inl hzero
    | inr hagg => exact Or.inr ⟨hagg.2, hmay.2⟩

theorem sum_eq_of_le {α : Type u} {as : List α} {f g : α → Nat} (hle : ∀ a ∈ as, f a ≤ g a)
    (hsum : (as.map g).sum ≤ (as.map f).sum)
    : ∀ a ∈ as, f a = g a := by
  induction as with
  | nil => simp
  | cons a as ih =>
    have htail : (as.map f).sum ≤ (as.map g).sum := List.sum_le_sum (fun b hb => hle b (by simp [hb]))
    have hhead := hle a (by simp)
    simp only [List.map_cons, List.sum_cons] at hsum
    intro b hb
    rw [List.mem_cons] at hb
    cases hb with
    | inl hb =>
      rw [hb]
      omega
    | inr hb => exact ih (fun b hb => hle b (by simp [hb])) (by omega) b hb

theorem mem_visitOrder (queueIndex : Nat) (i : QueueIndex) : i ∈ visitOrder queueIndex := by
  have hmem : i ∈ dequeue.order := by
    revert i
    decide
  unfold visitOrder
  rw [List.mem_append, List.mem_filter, List.mem_filter]
  by_cases hi : i.val = queueIndex
  . exact Or.inl ⟨hmem, by simpa using hi⟩
  . exact Or.inr ⟨hmem, by simpa using hi⟩

variable {es : QueueIndex → List Entry}

theorem Spends.not_lost {gs : QueueIndex → Fifo.Fates}
    (h : Spends m m' queueIndex requestedBytes destination d fs)
    (hmanages : Manages m.toQueueManagerConfig m.queues es)
    (hconserves : Conserves m m' queueIndex requestedBytes d gs)
    : ∀ i, ¬ Lost i (fs i) := by
  have htouched : ∀ i, ((fs i).components (kind i)).length + (fs i).discarded.length
      = ((gs i).components (kind i)).length + (gs i).discarded.length := by
    intro i
    apply Fifo.Fates.length_components_eq
    . rw [h.before, (hmanages.holds i).entries_eq]
      exact (hmanages.holds i).pairwise.imp (fun hlt => Nat.ne_of_lt hlt)
    . rw [h.before, hconserves.before]
    . rw [hconserves.after]
      exact (h.manages.holds i).entries_eq.symm
  have hcomponents := congrArg List.length (h.components.symm.trans hconserves.components)
  have hdrops := congrArg List.length (h.drops.symm.trans hconserves.drops)
  simp only [List.length_flatMap, List.length_map] at hcomponents hdrops
  have hsum := congrArg List.sum
    (List.map_congr_left (l := visitOrder queueIndex) (fun i _ => htouched i))
  rw [List.sum_map_add, List.sum_map_add] at hsum
  have hle : ∀ i ∈ visitOrder queueIndex,
      (given i (fs i)).length ≤ ((fs i).components (kind i)).length := by
    intro i _
    unfold given
    split
    . exact Nat.zero_le _
    . exact Nat.le_refl _
  have heq := sum_eq_of_le hle (by omega)
  intro i hlost
  have hlength := heq i (mem_visitOrder queueIndex i)
  unfold given at hlength
  rw [if_pos hlost.2] at hlength
  exact hlost.1 (List.length_eq_zero_iff.mp hlength.symm)

theorem enqueue_eq_some {m m' : BasicQueueManager} {i : QueueIndex} {n : Nat} {pkt : DownstreamPacket}
    {reports : List Report} (heq : m.enqueue i pkt = some (n, reports, m'))
    : ∃ dropped queue,
        (m.queues i).enqueue pkt = some (dropped, queue)
          ∧ n = dropped.toList.length
          ∧ reports
          =
        dropped.toList.flatMap
          (fun d => [.drop i .DROP_OVERFLOW 1, outbound d.packet .DROP_OVERFLOW]) ++ [.enqueue i]
          ∧ m' = { m with queues := Function.update m.queues i queue } := by
  unfold BasicQueueManager.enqueue at heq
  rw [dif_pos i.isLt] at heq
  cases henqueue : (m.queues i).enqueue pkt with
  | none => simp [henqueue] at heq
  | some res =>
    obtain ⟨dropped, queue⟩ := res
    refine ⟨dropped, queue, rfl, ?_⟩
    cases dropped with
    | none =>
      simp only [henqueue, Option.bind_eq_bind, Option.bind_some, Option.pure_def, Option.some.injEq,
        Prod.mk.injEq] at heq
      exact ⟨heq.1.symm, heq.2.1.symm, heq.2.2.symm⟩
    | some d =>
      simp only [henqueue, Option.bind_eq_bind, Option.bind_some, Option.pure_def, Option.some.injEq,
        Prod.mk.injEq] at heq
      exact ⟨heq.1.symm, heq.2.1.symm, heq.2.2.symm⟩

theorem Manages.enqueue {m m' : BasicQueueManager} {es : QueueIndex → List Entry} {queueIndex n : Nat}
    {pkt : DownstreamPacket} {reports : List Report} (h : Manages m.toQueueManagerConfig m.queues es)
    (heq : m.enqueue queueIndex pkt = some (n, reports, m'))
    : m'.toQueueManagerConfig = m.toQueueManagerConfig
        ∧ n ≤ 1
        ∧ ∃ es',
        Manages m.toQueueManagerConfig m'.queues es'
          ∧ ∀ i : QueueIndex,
          (es' i).length + (if i.val = queueIndex then n else 0) = (es i).length
              + (if i.val = queueIndex then 1 else 0) := by
  by_cases hlt : queueIndex < MAX_QUEUES
  . obtain ⟨dropped, queue, henqueue, hn, _, hm⟩ := @enqueue_eq_some m m'
      ⟨queueIndex, hlt⟩ n pkt reports heq
    obtain ⟨rest, hholds, hconfig, hlength, _⟩ := (h.holds ⟨queueIndex, hlt⟩).of_enqueue henqueue
    rw [h.config] at hconfig
    have hle : dropped.toList.length ≤ 1 := Option.length_toList_le
    rw [hn, hm]
    refine ⟨rfl, hle, _, h.update hholds hconfig, ?_⟩
    intro i
    by_cases hi : i.val = queueIndex
    . have hfin : i = ⟨queueIndex, hlt⟩ := Fin.ext hi
      subst hfin
      simp only [Function.update_self, List.length_append, List.length_singleton, ↓reduceIte]
      omega
    . have hne : i ≠ ⟨queueIndex, hlt⟩ := fun heq => hi (congrArg Fin.val heq)
      simp [hne, hi]
  . unfold BasicQueueManager.enqueue at heq
    rw [dif_neg hlt] at heq
    simp only [Option.pure_def, Option.some.injEq, Prod.mk.injEq] at heq
    rw [← heq.1, ← heq.2.2]
    refine ⟨rfl, Nat.zero_le _, es, h, ?_⟩
    intro i
    have hi : i.val ≠ queueIndex := by omega
    simp [hi]

theorem Manages.exists_enqueue
    (h : Manages m.toQueueManagerConfig m.queues es) (hdepth : 0 < m.queueDepth) (queueIndex : Nat)
    (pkt : DownstreamPacket)
    : ∃ res, m.enqueue queueIndex pkt = some res := by
  unfold BasicQueueManager.enqueue
  split
  . next hlt =>
    have hconfig := congrArg QueueConfig.queueDepth (h.config ⟨queueIndex, hlt⟩)
    simp only [queueConfig] at hconfig
    obtain ⟨⟨dropped, queue⟩, henqueue⟩ : ∃ res, (m.queues ⟨queueIndex, hlt⟩).enqueue pkt = some res := by
      by_cases hfull : (es ⟨queueIndex, hlt⟩).length = (m.queues ⟨queueIndex, hlt⟩).queueDepth
      . obtain ⟨_, _, _, _, _, _, henqueue, _⟩ := (h.holds ⟨queueIndex, hlt⟩).enqueue_full
          (by omega) hfull pkt
        exact ⟨_, henqueue⟩
      . exact ⟨_, ((h.holds ⟨queueIndex, hlt⟩).enqueue_room hfull pkt).1⟩
    simp only [henqueue, Option.bind_eq_bind, Option.bind_some]
    cases dropped with
    | none => exact ⟨_, rfl⟩
    | some d => exact ⟨_, rfl⟩
  . exact ⟨_, rfl⟩

theorem exists_manages {id : NEMId} {cfg : QueueManagerConfig} {calls : List Call}
    (hrun : run step (configure id cfg) calls = some m)
    : ∃ es, Manages m.toQueueManagerConfig m.queues es := by
  have hstep : ∀ (m : BasicQueueManager) (call : Call) (m' : BasicQueueManager),
      (∃ es, Manages m.toQueueManagerConfig m.queues es) → True → m.step call = some m' →
      ∃ es, Manages m'.toQueueManagerConfig m'.queues es := by
    intro m call m' ⟨es, hmanages⟩ _ heq
    cases call with
    | enqueue queueIndex pkt =>
      unfold step at heq
      rw [Option.map_eq_some_iff] at heq
      obtain ⟨⟨n, reports, m''⟩, heq, rfl⟩ := heq
      obtain ⟨hconfig, _, es', hmanages', _⟩ := hmanages.enqueue heq
      rw [hconfig]
      exact ⟨es', hmanages'⟩
    | dequeue queueIndex requestedBytes destination =>
      obtain ⟨d, m'', fs, heq', hspends⟩ := exists_spends hmanages queueIndex requestedBytes destination
      simp only [step, heq', Option.map_some, Option.some.injEq] at heq
      rw [← heq, hspends.config]
      exact ⟨_, hspends.manages⟩
  exact run_inv hstep ⟨_, Manages.of_configure id cfg⟩ (guarded_of_forall (fun _ _ => trivial)) hrun

theorem Manages.conserves_iff
    (h : Manages m.toQueueManagerConfig m.queues es) (queueIndex requestedBytes : Nat)
    (destination : NEMId)
    : (∃ d m' fs,
        m.dequeue queueIndex requestedBytes destination = some (d, m')
          ∧ Conserves m m' queueIndex requestedBytes d fs)
        ↔
      m.LosesNothing queueIndex requestedBytes destination := by
  obtain ⟨d, m', fs, heq, hspends⟩ := exists_spends h queueIndex requestedBytes destination
  rw [hspends.losesNothing_iff]
  constructor
  . intro ⟨d', m'', gs, heq', hconserves⟩
    rw [heq, Option.some.injEq, Prod.mk.injEq] at heq'
    rw [← heq'.1, ← heq'.2] at hconserves
    exact hspends.not_lost h hconserves
  . intro hlost
    exact ⟨d, m', fs, heq, hspends.conserves hlost⟩

theorem dequeue_conserves_iff {id : NEMId} {cfg : QueueManagerConfig} {calls : List Call}
    {m : BasicQueueManager}
    (hrun : run step (configure id cfg) calls = some m) (queueIndex requestedBytes : Nat)
    (destination : NEMId)
    : (∃ d m' fs,
        m.dequeue queueIndex requestedBytes destination = some (d, m')
          ∧ Conserves m m' queueIndex requestedBytes d fs)
        ↔
      m.LosesNothing queueIndex requestedBytes destination := by
  obtain ⟨es, hmanages⟩ := exists_manages hrun
  exact hmanages.conserves_iff queueIndex requestedBytes destination

theorem dequeue_conserves_iff_example
    : ∃ m,
        run step (configure 1 ⟨10, true, true, false, fun n => n * 90 / 100⟩)
          [.enqueue 0 ⟨⟨1, 2, 0, 0, 0⟩, [[1, 2, 3]]⟩, .enqueue 1 ⟨⟨1, 2, 8, 0, 0⟩, [[4, 5]]⟩]
          =
        some m
          ∧ ∃ d m' fs, m.dequeue 0 4 0 = some (d, m') ∧ Conserves m m' 0 4 d fs := by
  have hall : (run step (configure 1 ⟨10, true, true, false, fun n => n * 90 / 100⟩)
      [.enqueue 0 ⟨⟨1, 2, 0, 0, 0⟩, [[1, 2, 3]]⟩, .enqueue 1 ⟨⟨1, 2, 8, 0, 0⟩, [[4, 5]]⟩]).any
        (fun m => m.LosesNothing 0 4 0) := by decide
  rw [Option.any_eq_true] at hall
  obtain ⟨m, hrun, hok⟩ := hall
  exact ⟨m, hrun, (dequeue_conserves_iff hrun 0 4 0).mpr (of_decide_eq_true hok)⟩

theorem not_conserves_of_full_slot
    : ∃ m,
        run step (configure 1 ⟨10, true, true, false, fun n => n⟩)
          [.enqueue 0 ⟨⟨1, 2, 0, 0, 0⟩, [[1, 2, 3]]⟩, .enqueue 1 ⟨⟨1, 2, 8, 0, 0⟩, [[4, 5]]⟩]
          =
        some m
          ∧ ¬ ∃ d m' fs, m.dequeue 0 3 0 = some (d, m') ∧ Conserves m m' 0 3 d fs := by
  have hall : (run step (configure 1 ⟨10, true, true, false, fun n => n⟩)
      [.enqueue 0 ⟨⟨1, 2, 0, 0, 0⟩, [[1, 2, 3]]⟩, .enqueue 1 ⟨⟨1, 2, 8, 0, 0⟩, [[4, 5]]⟩]).any
        (fun m => ¬ m.LosesNothing 0 3 0) := by decide
  rw [Option.any_eq_true] at hall
  obtain ⟨m, hrun, hlost⟩ := hall
  obtain ⟨es, hmanages⟩ := exists_manages hrun
  refine ⟨m, hrun, ?_⟩
  rw [hmanages.conserves_iff]
  exact of_decide_eq_true hlost

end BasicQueueManager
end Tdma
end Emane

import Emane.Tdma.Impl.QueueStatusPublisher
import Emane.Tdma.Lemmas.Completion

/-!
This module contains how far the depth that the publisher keeps of a queue is the number of packets
in it.
-/

namespace Emane
namespace Tdma

namespace Fifo

def Vanishes (p : Request) (es : List Entry) : Prop :=
  completes p es = true ∧ Wastes p es

instance (p : Request) (es : List Entry) : Decidable (Vanishes p es) :=
  inferInstanceAs (Decidable (_ ∧ _))

theorem seen_add_length (p : Request) {es : List Entry} (hvalid : ∀ e ∈ es, e.Valid)
    : let fs := fates p es ⟨[], 0, []⟩
      let r := (dequeue p es ⟨[], 0, []⟩).2
      let seen := (if r.totalBytes ≠ 0 then r.components.completed else 0) + r.dropped.length
      seen + fs.after.length ≤ es.length ∧ (seen + fs.after.length = es.length ↔ ¬ Vanishes p es) := by
  intro fs r seen
  have hfs : Decomposes p es ⟨[], 0, []⟩ (dequeue p es ⟨[], 0, []⟩).1 r fs :=
    dequeue_decomposes p es ⟨[], 0, []⟩
  have hlength := Fates.length_after fs
  have hcompleted := Fates.completed_components p.kind hfs.allowed (by rw [hfs.before]; exact hvalid)
  have hcomponents : r.components = fs.components p.kind := by
    rw [hfs.components, List.nil_append]
  have hdropped : r.dropped = fs.discarded := by
    rw [hfs.dropped, List.nil_append]
  rw [hfs.before] at hlength
  change (if r.totalBytes ≠ 0 then r.components.completed else 0) + r.dropped.length
    + fs.after.length ≤ es.length
    ∧ ((if r.totalBytes ≠ 0 then r.components.completed else 0) + r.dropped.length
      + fs.after.length = es.length
      ↔ ¬ Vanishes p es)
  rw [hdropped, hcomponents, hcompleted]
  unfold Vanishes
  rw [wastes_iff]
  change _ ∧ (_ ↔ ¬ (_ ∧ r.components ≠ [] ∧ r.totalBytes = 0))
  by_cases hbytes : r.totalBytes = 0
  . rw [if_neg (not_not.mpr hbytes)]
    refine ⟨by omega, ?_⟩
    cases hcompletes : completes p es with
    | false =>
      have hnone : fs.sent = 0 := sent_of_not_completes rfl rfl hcompletes
      simp only [Bool.false_eq_true, false_and, not_false_eq_true, iff_true]
      omega
    | true =>
      have hsome : 0 < fs.sent := sent_of_completes rfl rfl hcompletes
      have hne : r.components ≠ [] := by
        intro hnil
        rw [← hcomponents, hnil] at hcompleted
        change 0 = fs.sent at hcompleted
        omega
      simp only [hne, hbytes, ne_eq, not_false_eq_true, and_self, not_true_eq_false, iff_false]
      omega
  . rw [if_pos hbytes]
    refine ⟨by omega, ?_⟩
    omega

end Fifo

namespace BasicQueueManager

def Report.departed (i : QueueIndex) : Report → Nat
  | .dequeue _ actualQueue components => if actualQueue = i then components.completed else 0
  | .drop queue _ count => if queue = i then count else 0
  | _ => 0

def departures (i : QueueIndex) (rs : List Report) : Nat :=
  (rs.map (Report.departed i)).sum

@[simp]
theorem departures_nil (i : QueueIndex) : departures i [] = 0 := by
  rfl

@[simp]
theorem departures_append (i : QueueIndex) (rs rs' : List Report)
    : departures i (rs ++ rs') = departures i rs + departures i rs' := by
  simp [departures]

def ShowsAll (m : BasicQueueManager) (queueIndex requestedBytes : Nat) (destination : NEMId) : Prop :=
  ∀ a ∈ m.asks queueIndex requestedBytes destination,
    ¬ Fifo.Vanishes (a.request m.toQueueManagerConfig destination) (m.queues a.queue).entries

instance (m : BasicQueueManager) (queueIndex requestedBytes : Nat) (destination : NEMId)
    : Decidable (m.ShowsAll queueIndex requestedBytes destination) :=
  inferInstanceAs (Decidable (∀ a ∈ _, _))

def Report.isGiven : Report → Bool
  | .outbound _ _ _ _ _ => true
  | .dequeue _ _ _ => true
  | _ => false

namespace dequeue

def balance (es : QueueIndex → List Entry) (rs : List Report) (i : QueueIndex) : Nat :=
  departures i rs + (es i).length

theorem eq_iff_of_le {f g h : QueueIndex → Nat} (hfg : ∀ i, f i ≤ g i) (hgh : ∀ i, g i ≤ h i)
    : (∀ i, f i = h i) ↔ (∀ i, f i = g i) ∧ ∀ i, g i = h i := by
  constructor
  . intro heq
    refine ⟨?_, ?_⟩
    . intro i
      have := heq i
      have := hfg i
      have := hgh i
      omega
    . intro i
      have := heq i
      have := hfg i
      have := hgh i
      omega
  . rintro ⟨hfg, hgh⟩ i
    rw [hfg, hgh]

theorem departures_record (q i j : QueueIndex) (r : Queue.dequeue.Result) (queue : Queue) (s : State)
    : departures j (record q i r queue s).reports
        =
      departures j s.reports +
          if i = j then (if r.totalBytes ≠ 0 then r.components.completed else 0) else 0 := by
  unfold record
  split
  . simp [departures, Report.departed]
  . simp

theorem departures_reportDrops (q j : QueueIndex) (dropped : List OwnedPacket) (s : State)
    : departures j (reportDrops q dropped s).reports
        =
      departures j s.reports + if q = j then dropped.length else 0 := by
  unfold reportDrops
  rw [departures_append]
  congr 1
  induction dropped with
  | nil => simp
  | cons d dropped ih =>
    rw [List.flatMap_cons, departures_append, ih]
    simp only [departures, Report.departed, outbound, List.map_cons, List.map_nil, List.sum_cons,
      List.sum_nil, List.length_cons]
    split
    . omega
    . rfl

theorem balance_visit {cfg : QueueManagerConfig} {destination : NEMId}
    {es : QueueIndex → List Entry} {i : QueueIndex}
    (room : Nat) (drop : Bool) (hvalid : ∀ e ∈ es i, e.Valid) {rs rs' : List Report}
    (hreports : ∀ j,
      let r := (Fifo.dequeue (request cfg i room destination drop) (es i) ⟨[], 0, []⟩).2
      departures j rs'
        =
      departures j rs
        + if i = j then (if r.totalBytes ≠ 0 then r.components.completed else 0)
          + r.dropped.length else 0)
    : let fs := Fifo.fates (request cfg i room destination drop) (es i) ⟨[], 0, []⟩
      (∀ j, balance (Function.update es i fs.after) rs' j ≤ balance es rs j)
        ∧ ((∀ j, balance (Function.update es i fs.after) rs' j = balance es rs j)
        ↔
      ¬ Fifo.Vanishes (request cfg i room destination drop) (es i)) := by
  intro fs
  obtain ⟨hle, heq⟩ := Fifo.seen_add_length (request cfg i room destination drop) hvalid
  change _ + fs.after.length ≤ _ at hle
  change _ + fs.after.length = _ ↔ _ at heq
  rw [← heq]
  have hother : ∀ j, j ≠ i → balance (Function.update es i fs.after) rs' j = balance es rs j := by
    intro j hj
    have := hreports j
    simp only [hj.symm, ↓reduceIte, Nat.add_zero] at this
    unfold balance
    rw [this, Function.update_of_ne hj]
  have hself := hreports i
  simp only [↓reduceIte] at hself
  constructor
  . intro j
    by_cases hj : j = i
    . rw [hj]
      unfold balance
      rw [hself, Function.update_self]
      omega
    . exact Nat.le_of_eq (hother j hj)
  . constructor
    . intro hall
      have := hall i
      unfold balance at this
      rw [hself, Function.update_self] at this
      omega
    . intro hlen j
      by_cases hj : j = i
      . rw [hj]
        unfold balance
        rw [hself, Function.update_self]
        omega
      . exact hother j hj

theorem balance_others (cfg : QueueManagerConfig) (q : QueueIndex) (requestedBytes : Nat)
    (destination : NEMId)
    {is : List QueueIndex} (hnodup : is.Nodup) {s s' : State} {es : QueueIndex → List Entry}
    (h : Manages cfg s.queues es)
    (heq : others cfg q requestedBytes destination is s = some s')
    : ∃ es',
        Manages cfg s'.queues es'
          ∧ (∀ j, balance es' s'.reports j ≤ balance es s.reports j)
          ∧ ((∀ j, balance es' s'.reports j = balance es s.reports j)
          ↔
        ∀ a ∈ asked cfg q requestedBytes destination es is s.totalLength,
          ¬ Fifo.Vanishes (a.request cfg destination) (es a.queue)) := by
  induction is generalizing s es with
  | nil =>
    cases heq
    exact ⟨es, h, fun _ => Nat.le_refl _, by simp [asked]⟩
  | cons i is ih =>
    rw [List.nodup_cons] at hnodup
    unfold others at heq
    unfold asked
    split at heq
    . next hmay =>
      rw [if_pos hmay]
      split at heq
      . next hi =>
        rw [if_pos hi]
        obtain ⟨queue, hdequeue, hmanages, hfs⟩ := h.dequeue i
          (requestedBytes - s.totalLength) destination false
        have hkind := kind_request cfg i (requestedBytes - s.totalLength) destination false
        have htotal := totalLength_record hfs hkind q queue s
        have htaken := Fifo.totalBytes_dequeue_nil
          (request cfg i (requestedBytes - s.totalLength) destination false) (es i)
        have hbytes := hfs.totalBytes
        rw [hkind, htaken] at hbytes
        simp only [Nat.zero_add] at hbytes
        rw [← hbytes] at htotal
        have hdropped : (Fifo.dequeue
          (request cfg i (requestedBytes - s.totalLength) destination false) (es i)
            ⟨[], 0, []⟩).2.dropped = [] := by
          rw [hfs.dropped, Fifo.Fates.discarded_of_not_drop hfs.allowed rfl]
          rfl
        simp only [hdequeue, Option.bind_eq_bind, Option.bind_some] at heq
        obtain ⟨es', hmanages', hle, hiff⟩ := ih hnodup.2 (by rw [queues_record]; exact hmanages) heq
        obtain ⟨hvisitle, hvisit⟩ := @balance_visit cfg destination es i
          (requestedBytes - s.totalLength) false
          (h.holds i).valid s.reports
          (record q i (Fifo.dequeue
            (request cfg i (requestedBytes - s.totalLength) destination false) (es i)
            ⟨[], 0, []⟩).2 queue s).reports (by
              intro j r
              have hnone : r.dropped = [] := hdropped
              rw [departures_record, hnone, List.length_nil, Nat.add_zero])
        have hne : ∀ j ∈ is, j ≠ i := fun j hj hji => hnodup.1 (hji ▸ hj)
        rw [htotal, asked_congr (fun j hj _ => Function.update_of_ne (hne j hj) _ _)] at hiff
        refine ⟨es', hmanages', fun j => Nat.le_trans (hle j) (hvisitle j), ?_⟩
        rw [eq_iff_of_le hle hvisitle, List.forall_mem_cons, and_comm]
        refine and_congr hvisit (hiff.trans ?_)
        refine forall₂_congr ?_
        intro b hb
        rw [Function.update_of_ne (hne _ (mem_of_mem_asked hb).1)]
      . next hi =>
        rw [if_neg hi]
        exact ih hnodup.2 h heq
    . next hmay =>
      rw [if_neg hmay]
      cases heq
      exact ⟨es, h, fun _ => Nat.le_refl _, by simp⟩

theorem reports_record (q i : QueueIndex) (r : Queue.dequeue.Result) (queue : Queue) (s : State)
    : ∃ rs, (record q i r queue s).reports = s.reports ++ rs ∧ ∀ rep ∈ rs, Report.isGiven rep := by
  unfold record
  split
  . exact ⟨[.dequeue q i r.components], rfl, by simp [Report.isGiven]⟩
  . exact ⟨[], by simp, by simp⟩

theorem reports_others {cfg : QueueManagerConfig} {q : QueueIndex} {requestedBytes : Nat}
    {destination : NEMId}
    {is : List QueueIndex} {s s' : State} (heq : others cfg q requestedBytes destination is s = some s')
    : ∃ rs, s'.reports = s.reports ++ rs ∧ ∀ rep ∈ rs, Report.isGiven rep := by
  induction is generalizing s with
  | nil =>
    cases heq
    exact ⟨[], by simp, by simp⟩
  | cons i is ih =>
    unfold others at heq
    split at heq
    . split at heq
      . rw [Option.bind_eq_bind, Option.bind_eq_some_iff] at heq
        obtain ⟨⟨r, queue⟩, -, heq⟩ := heq
        obtain ⟨rs, hrs, hgiven⟩ := reports_record q i r queue s
        obtain ⟨rs', hrs', hgiven'⟩ := ih heq
        refine ⟨rs ++ rs', by rw [hrs', hrs, List.append_assoc], ?_⟩
        rw [List.forall_mem_append]
        exact ⟨hgiven, hgiven'⟩
      . exact ih heq
    . cases heq
      exact ⟨[], by simp, by simp⟩

end dequeue

section

variable {m m' : BasicQueueManager} {requestedBytes : Nat} {destination : NEMId} {d : Dequeued}

theorem dequeue_eq_some {i : QueueIndex} (heq : m.dequeue i requestedBytes destination = some (d, m'))
    : ∃ r queue s accepted,
        (m.queues i).dequeue requestedBytes destination true = some (r, queue)
          ∧ dequeue.others m.toQueueManagerConfig i requestedBytes destination
          (if m.strictDequeueEnable then [] else dequeue.order)
          (dequeue.reportDrops i r.dropped (dequeue.record i i r queue ⟨m.queues, [], 0, []⟩))
          =
        some s
          ∧ d.reports = s.reports ++ accepted
          ∧ (∃ cs : MessageComponents,
          accepted = cs.map (fun c => Report.outbound m.id c.destination c.priority c.size .ACCEPT_GOOD))
          ∧ m' = { m with queues := s.queues } := by
  unfold dequeue dequeue.collect at heq
  rw [dif_pos i.isLt] at heq
  simp only [Option.bind_eq_bind, Option.bind_eq_some_iff, Option.pure_def, Option.some.injEq,
    Prod.mk.injEq] at heq
  obtain ⟨s, ⟨⟨r, queue⟩, hdequeue, hothers⟩, rfl, rfl⟩ := heq
  refine ⟨r, queue, s, _, hdequeue, ?_, rfl, ⟨s.components, rfl⟩, rfl⟩
  split at hothers
  . next hstrict =>
    rw [if_pos hstrict]
    exact hothers
  . next hstrict =>
    rw [if_neg hstrict]
    exact hothers

theorem reports_dequeue {i : QueueIndex} (heq : m.dequeue i requestedBytes destination = some (d, m'))
    : ∃ r queue rs rs',
        (m.queues i).dequeue requestedBytes destination true = some (r, queue)
          ∧ d.reports = rs ++ r.dropped.flatMap
            (fun d => [outbound d.packet .DROP_TOO_BIG, .drop i .DROP_TOOBIG 1]) ++ rs'
          ∧ (∀ rep ∈ rs ++ rs', Report.isGiven rep) := by
  obtain ⟨r, queue, s, accepted, hdequeue, hothers, hreports, ⟨cs, rfl⟩, -⟩ := dequeue_eq_some heq
  obtain ⟨rs, hrs, hgiven⟩ := dequeue.reports_record i i r queue ⟨m.queues, [], 0, []⟩
  obtain ⟨rs', hrs', hgiven'⟩ := dequeue.reports_others hothers
  refine ⟨r, queue, rs, rs' ++ cs.map
    (fun c => Report.outbound m.id c.destination c.priority c.size .ACCEPT_GOOD), hdequeue,
    ?_, ?_⟩
  . rw [hreports, hrs']
    unfold dequeue.reportDrops
    simp only [hrs, List.nil_append, List.append_assoc]
  . rw [List.forall_mem_append, List.forall_mem_append]
    refine ⟨hgiven, hgiven', ?_⟩
    simp [Report.isGiven]

theorem departures_outbound (i : QueueIndex) (id : NEMId) (cs : MessageComponents)
    : departures i
        (cs.map (fun c => Report.outbound id c.destination c.priority c.size .ACCEPT_GOOD))
        = 0 := by
  simp [departures, Report.departed, Function.comp_def]

theorem Manages.departures_dequeue {es : QueueIndex → List Entry}
    (h : Manages m.toQueueManagerConfig m.queues es)
    {queueIndex : Nat} (heq : m.dequeue queueIndex requestedBytes destination = some (d, m'))
    : m'.toQueueManagerConfig = m.toQueueManagerConfig
        ∧ ∃ es',
        Manages m.toQueueManagerConfig m'.queues es'
          ∧ (∀ j, departures j d.reports + (es' j).length ≤ (es j).length)
          ∧ ((∀ j, departures j d.reports + (es' j).length = (es j).length)
          ↔
        m.ShowsAll queueIndex requestedBytes destination) := by
  have hentries := h.entries_eq
  by_cases hlt : queueIndex < MAX_QUEUES
  . obtain ⟨i, rfl⟩ : ∃ i : QueueIndex, queueIndex = i.val := ⟨⟨queueIndex, hlt⟩, rfl⟩
    obtain ⟨r, queue, s, accepted, hdequeue, hothers, hreports, ⟨cs, rfl⟩, rfl⟩ := dequeue_eq_some heq
    obtain ⟨queue', hdequeue', hmanages, hfs⟩ := h.dequeue i requestedBytes destination true
    rw [hdequeue, Option.some.injEq, Prod.mk.injEq] at hdequeue'
    obtain ⟨rfl, rfl⟩ := hdequeue'
    have hkind := kind_request m.toQueueManagerConfig i requestedBytes destination true
    have htotal := dequeue.totalLength_record hfs hkind i queue ⟨m.queues, [], 0, []⟩
    have hbytes := hfs.totalBytes
    rw [hkind, Fifo.totalBytes_dequeue_nil] at hbytes
    rw [← hbytes] at htotal
    obtain ⟨hvisitle, hvisit⟩ := @dequeue.balance_visit m.toQueueManagerConfig destination es i
      requestedBytes true
      (h.holds i).valid [] (dequeue.reportDrops i
        (Fifo.dequeue (request m.toQueueManagerConfig i requestedBytes destination true) (es i)
          ⟨[], 0, []⟩).2.dropped
        (dequeue.record i i
          (Fifo.dequeue (request m.toQueueManagerConfig i requestedBytes destination true) (es i)
            ⟨[], 0, []⟩).2 queue
          ⟨m.queues, [], 0, []⟩)).reports (by
            intro j r
            rw [dequeue.departures_reportDrops, dequeue.departures_record]
            simp only [departures_nil, Nat.zero_add]
            split
            . rfl
            . rfl)
    obtain ⟨es', hmanages', hle, hiff⟩ := dequeue.balance_others m.toQueueManagerConfig i
      requestedBytes destination
      (by split <;> decide)
        (by unfold dequeue.reportDrops; simp only; rw [dequeue.queues_record]; exact hmanages)
        hothers
    have hdepartures : ∀ j, departures j d.reports = departures j s.reports := by
      intro j
      rw [hreports, departures_append, departures_outbound, Nat.add_zero]
    have hempty : ∀ j, dequeue.balance es [] j = (es j).length := fun j => Nat.zero_add _
    refine ⟨rfl, es', hmanages', ?_, ?_⟩
    . intro j
      rw [hdepartures, ← hempty]
      exact Nat.le_trans (hle j) (hvisitle j)
    . simp only [hdepartures, ← hempty]
      refine (dequeue.eq_iff_of_le hle hvisitle).trans ?_
      rw [and_comm]
      unfold ShowsAll asks
      rw [dif_pos i.isLt, List.forall_mem_cons]
      simp only [congrFun hentries]
      refine and_congr hvisit (hiff.trans ?_)
      have hother : ∀ j, j ≠ i → ∀ l : List Entry, Function.update es i l j = es j :=
        fun j hj l => Function.update_of_ne hj _ _
      change (∀ a ∈ dequeue.asked _ _ _ _ _ _ (dequeue.record i i _ queue ⟨m.queues, [], 0, []⟩).totalLength, _) ↔ _
      rw [htotal, dequeue.asked_congr (fun j _ hj => hother j hj _)]
      split
      . simp [dequeue.asked]
      . refine forall₂_congr ?_
        intro b hb
        rw [hother _ (dequeue.mem_of_mem_asked hb).2]
  . unfold BasicQueueManager.dequeue dequeue.collect at heq
    rw [dif_neg hlt] at heq
    obtain ⟨rfl, rfl⟩ := heq
    refine ⟨rfl, es, h, ?_, ?_⟩
    . simp
    . simp [ShowsAll, asks, hlt]

end

theorem Manages.enqueue_of_full {m m' : BasicQueueManager} {es : QueueIndex → List Entry}
    (h : Manages m.toQueueManagerConfig m.queues es) {i : QueueIndex} {n : Nat}
    {pkt : DownstreamPacket} {rs : List Report}
    (heq : m.enqueue i pkt = some (n, rs, m')) (hfull : (es i).length = m.queueDepth)
    : n = 1 := by
  obtain ⟨dropped, queue, henqueue, rfl, -, -⟩ := enqueue_eq_some heq
  have hdepth : (m.queues i).queueDepth = m.queueDepth := congrArg QueueConfig.queueDepth (h.config i)
  unfold Queue.enqueue at henqueue
  rw [if_pos (by rw [(h.holds i).size_eq, hdepth, hfull])] at henqueue
  simp only [Option.bind_eq_bind, Option.bind_eq_some_iff, Option.pure_def, Option.some.injEq,
    Prod.mk.injEq] at henqueue
  obtain ⟨⟨d, queue'⟩, -, rfl, -⟩ := henqueue
  rfl

end BasicQueueManager

namespace QueueStatusPublisher

open BasicQueueManager

variable (p : QueueStatusPublisher)

@[simp]
theorem reports_nil : p.reports [] = p := by
  rfl

@[simp]
theorem reports_cons (rep : Report) (rs : List Report)
    : p.reports (rep :: rs) = (p.report rep).reports rs := by
  rfl

def Report.isEnqueue : Report → Bool
  | .enqueue _ => true
  | _ => false

variable {rs : List Report}

theorem depthQueueInfo_reports (h : ∀ rep ∈ rs, Report.isEnqueue rep = false) (p : QueueStatusPublisher)
    (i : QueueIndex)
    : (p.reports rs).depthQueueInfo i = p.depthQueueInfo i - .ofNat (departures i rs) := by
  induction rs generalizing p with
  | nil => simp
  | cons rep rs ih =>
    rw [List.forall_mem_cons] at h
    rw [reports_cons, ih h.2]
    have hsplit : departures i (rep :: rs) = BasicQueueManager.Report.departed i rep
      + departures i rs := rfl
    have hone : (p.report rep).depthQueueInfo i
        = p.depthQueueInfo i - .ofNat (BasicQueueManager.Report.departed i rep) := by
      cases rep with
      | outbound source destination priority size action =>
        simp [report, BasicQueueManager.Report.departed]
      | enqueue queue => simp [Report.isEnqueue] at h
      | dequeue requestQueue actualQueue components =>
        simp only [report, dequeue, BasicQueueManager.Report.departed, MessageComponents.completed,
          Function.update_apply,
          eq_comm]
        split
        . next hi => rw [hi]
        . simp
      | drop queue reason count =>
        simp only [report, drop, BasicQueueManager.Report.departed, Function.update_apply, eq_comm]
        split
        . next hi => rw [hi]
        . simp
    rw [hone, hsplit, UInt64.ofNat_add]
    grind

theorem highWaterMarkQueueInfo_reports (h : ∀ rep ∈ rs, Report.isEnqueue rep = false)
    (p : QueueStatusPublisher)
    : (p.reports rs).highWaterMarkQueueInfo = p.highWaterMarkQueueInfo := by
  induction rs generalizing p with
  | nil => rfl
  | cons rep rs ih =>
    rw [List.forall_mem_cons] at h
    rw [reports_cons, ih h.2]
    cases rep with
    | outbound source destination priority size action => rfl
    | enqueue queue => simp [Report.isEnqueue] at h
    | dequeue requestQueue actualQueue components => rfl
    | drop queue reason count => rfl

def Report.dropped (reason : DropReason) (i : QueueIndex) : Report → Nat
  | .drop queue reason' count => if queue = i ∧ reason' = reason then count else 0
  | _ => 0

def dropsOf (reason : DropReason) (i : QueueIndex) (rs : List Report) : Nat :=
  (rs.map (Report.dropped reason i)).sum

theorem dropsOf_append (reason : DropReason) (i : QueueIndex) (rs rs' : List Report)
    : dropsOf reason i (rs ++ rs') = dropsOf reason i rs + dropsOf reason i rs' := by
  simp [dropsOf]

theorem dropsOf_given (h : ∀ rep ∈ rs, BasicQueueManager.Report.isGiven rep) (reason : DropReason)
    (i : QueueIndex)
    : dropsOf reason i rs = 0 := by
  unfold dropsOf
  rw [List.sum_eq_zero_iff, List.forall_mem_map]
  intro rep hrep
  have hgiven := h rep hrep
  cases rep with
  | outbound source destination priority size action => rfl
  | enqueue queue => simp [BasicQueueManager.Report.isGiven] at hgiven
  | dequeue requestQueue actualQueue components => rfl
  | drop queue reason count => simp [BasicQueueManager.Report.isGiven] at hgiven

def QueueStatus.drops (row : QueueStatus) : DropReason → UInt64
  | .DROP_OVERFLOW => row.overflow
  | .DROP_TOOBIG => row.toobig

theorem drops_reports (rs : List Report) (reason : DropReason) (i : QueueIndex)
    : QueueStatus.drops ((p.reports rs).statusTableInfo i) reason
        =
      QueueStatus.drops (p.statusTableInfo i) reason + .ofNat (dropsOf reason i rs) := by
  induction rs generalizing p with
  | nil => simp [dropsOf]
  | cons rep rs ih =>
    have hsplit : dropsOf reason i (rep :: rs) = Report.dropped reason i rep + dropsOf reason i rs := rfl
    have hone : QueueStatus.drops ((p.report rep).statusTableInfo i) reason
        = QueueStatus.drops (p.statusTableInfo i) reason + .ofNat (Report.dropped reason i rep) := by
      cases rep with
      | outbound source destination priority size action => simp [report, Report.dropped]
      | enqueue queue =>
        simp only [report, enqueue, Report.dropped, Function.update_apply]
        split
        . next hi => cases reason <;> simp [QueueStatus.drops, hi]
        . simp
      | dequeue requestQueue actualQueue components =>
        simp only [report, dequeue, Report.dropped, Function.update_apply]
        split
        . next hi => cases reason <;> simp [QueueStatus.drops, hi]
        . simp
      | drop queue reason' count =>
        simp only [report, drop, Report.dropped, Function.update_apply]
        split
        . next hi => cases reason <;> cases reason' <;> simp [QueueStatus.drops, hi]
        . next hi => simp [Ne.symm hi]
    rw [reports_cons, ih, hone, hsplit, UInt64.ofNat_add]
    grind

def enqueued (i : QueueIndex) (dropped : Option OwnedPacket) : List Report :=
  dropped.toList.flatMap (fun d => [.drop i .DROP_OVERFLOW 1, outbound d.packet .DROP_OVERFLOW])
    ++ [.enqueue i]

variable (i : QueueIndex)

theorem depthQueueInfo_enqueued (dropped : Option OwnedPacket)
    : (p.reports (enqueued i dropped)).depthQueueInfo
        =
      Function.update p.depthQueueInfo i (p.depthQueueInfo i + 1 - .ofNat dropped.toList.length) := by
  cases dropped with
  | none => simp [enqueued, report, enqueue]
  | some d =>
    simp only [enqueued, Option.toList, List.flatMap_cons, List.flatMap_nil, List.append_nil,
      List.cons_append, List.nil_append,
      reports_cons, reports_nil, report, outbound, enqueue, drop, Function.update_self,
        Function.update_idem, List.length_cons,
      List.length_nil]
    congr 1
    grind

theorem highWaterMarkQueueInfo_enqueued (dropped : Option OwnedPacket)
    : let depth := p.depthQueueInfo i + 1 - .ofNat dropped.toList.length
      (p.reports (enqueued i dropped)).highWaterMarkQueueInfo
        =
      Function.update p.highWaterMarkQueueInfo i
        (if depth > p.highWaterMarkQueueInfo i then depth else p.highWaterMarkQueueInfo i) := by
  intro depth
  have hdepth : (p.reports (enqueued i dropped)).depthQueueInfo i = depth := by
    rw [depthQueueInfo_enqueued, Function.update_self]
  rw [← hdepth]
  cases dropped with
  | none => simp [enqueued, report, enqueue]
  | some d => simp [enqueued, report, enqueue, drop, outbound]

theorem dropsOf_enqueued (j : QueueIndex) (dropped : Option OwnedPacket)
    : dropsOf .DROP_OVERFLOW j (enqueued i dropped) = (if j = i then dropped.toList.length else 0)
        ∧ dropsOf .DROP_TOOBIG j (enqueued i dropped) = 0 := by
  cases dropped with
  | none => simp [enqueued, dropsOf, Report.dropped]
  | some d => simp [enqueued, dropsOf, Report.dropped, outbound, eq_comm]

end QueueStatusPublisher

namespace QueueAudit

open BasicQueueManager QueueStatusPublisher

structure Agrees (a : QueueAudit) : Prop where
  depth : ∀ i, (a.publisher.depthQueueInfo i).toNat = packets a.manager i
  highWaterMark : ∀ i, (a.publisher.highWaterMarkQueueInfo i).toNat = a.peak i
  overflow : ∀ i, (a.publisher.statusTableInfo i).overflow = .ofNat (a.overflowed i)
  toobig : ∀ i, (a.publisher.statusTableInfo i).toobig = .ofNat (a.tooLarge i)

def Sees (a : QueueAudit) : BasicQueueManager.Call → Prop
  | .enqueue _ _ => True
  | .dequeue queueIndex requestedBytes destination =>
    a.manager.ShowsAll queueIndex requestedBytes destination

instance (a : QueueAudit) (call : BasicQueueManager.Call) : Decidable (a.Sees call) :=
  match call with
  | .enqueue _ _ => isTrue trivial
  | .dequeue queueIndex requestedBytes destination =>
    inferInstanceAs (Decidable (a.manager.ShowsAll queueIndex requestedBytes destination))

structure Tracks (cfg : QueueManagerConfig) (a : QueueAudit) : Prop where
  config : a.manager.toQueueManagerConfig = cfg
  manages : ∃ es, Manages cfg a.manager.queues es
  bound : ∀ i, packets a.manager i ≤ cfg.queueDepth
  peak : ∀ i, packets a.manager i ≤ a.peak i

theorem Tracks.of_configure (id : NEMId) (cfg : QueueManagerConfig) : Tracks cfg (configure id cfg) where
  config := rfl
  manages := ⟨_, Manages.of_configure id cfg⟩
  bound := fun _ => Nat.zero_le _
  peak := fun _ => Nat.le_refl _

theorem Agrees.of_configure (id : NEMId) (cfg : QueueManagerConfig) : Agrees (configure id cfg) where
  depth := fun _ => rfl
  highWaterMark := fun _ => rfl
  overflow := fun _ => rfl
  toobig := fun _ => rfl

section

variable {cfg : QueueManagerConfig} {a a' : QueueAudit}

theorem packets_eq {m : BasicQueueManager} {es : QueueIndex → List Entry}
    (h : Manages cfg m.queues es) (i : QueueIndex)
    : packets m i = (es i).length := by
  exact (h.holds i).size_eq

theorem Tracks.enqueue (h : Tracks cfg a) {queueIndex : Nat} {pkt : DownstreamPacket}
    (heq : a.step (.enqueue queueIndex pkt) = some a')
    : Tracks cfg a' := by
  unfold step at heq
  simp only [Option.bind_eq_bind, Option.bind_eq_some_iff, Option.pure_def, Option.some.injEq] at heq
  obtain ⟨⟨n, rs, m⟩, henqueue, rfl⟩ := heq
  obtain ⟨hconfig, ⟨es, hmanages⟩, hbound, hpeak⟩ := h
  subst hconfig
  obtain ⟨hconfig', hle, es', hmanages', hlength⟩ := hmanages.enqueue henqueue
  constructor
  . exact hconfig'
  . exact ⟨es', hmanages'⟩
  . intro i
    have hi := hlength i
    have hb := hbound i
    rw [packets_eq hmanages] at hb
    rw [packets_eq hmanages']
    by_cases hq : i.val = queueIndex
    . subst hq
      have hfull := hmanages.enqueue_of_full henqueue
      simp only [↓reduceIte] at hi
      omega
    . simp only [hq, ↓reduceIte] at hi
      omega
  . intro i
    exact Nat.le_max_right _ _

variable {queueIndex requestedBytes : Nat} {destination : NEMId}

theorem Tracks.dequeue (h : Tracks cfg a)
    (heq : a.step (.dequeue queueIndex requestedBytes destination) = some a')
    : Tracks cfg a' := by
  unfold step at heq
  simp only [Option.bind_eq_bind, Option.bind_eq_some_iff, Option.pure_def, Option.some.injEq] at heq
  obtain ⟨⟨d, m⟩, hdequeue, rfl⟩ := heq
  obtain ⟨hconfig, ⟨es, hmanages⟩, hbound, hpeak⟩ := h
  subst hconfig
  obtain ⟨hconfig', es', hmanages', hle, -⟩ := hmanages.departures_dequeue hdequeue
  constructor
  . exact hconfig'
  . exact ⟨es', hmanages'⟩
  . intro i
    have hi := hle i
    have hb := hbound i
    rw [packets_eq hmanages] at hb
    rw [packets_eq hmanages']
    omega
  . intro i
    exact Nat.le_max_right _ _

theorem Tracks.step (h : Tracks cfg a) {call : BasicQueueManager.Call} (heq : a.step call = some a')
    : Tracks cfg a' := by
  cases call with
  | enqueue queueIndex pkt => exact h.enqueue heq
  | dequeue queueIndex requestedBytes destination => exact h.dequeue heq

theorem toNat_depth {depth : UInt64} {dropped packets : Nat} (hbound : depth.toNat < 2 ^ 16)
    (h : packets + dropped = depth.toNat + 1)
    : (depth + 1 - .ofNat dropped).toNat = packets := by
  have hdropped : (UInt64.ofNat dropped).toNat = dropped := by
    rw [UInt64.toNat_ofNat']
    omega
  rw [UInt64.toNat_sub, UInt64.toNat_add, hdropped]
  simp only [UInt64.reduceToNat]
  omega

theorem Agrees.enqueue (hgood : Agrees a) (h : Tracks cfg a) (hdepth : cfg.queueDepth < 2 ^ 16)
    {queueIndex : Nat}
    {pkt : DownstreamPacket} (heq : a.step (.enqueue queueIndex pkt) = some a')
    : Agrees a' := by
  unfold QueueAudit.step at heq
  simp only [Option.bind_eq_bind, Option.bind_eq_some_iff, Option.pure_def, Option.some.injEq] at heq
  obtain ⟨⟨n, rs, m⟩, henqueue, rfl⟩ := heq
  obtain ⟨rfl, ⟨es, hmanages⟩, hbound, hpeak⟩ := h
  obtain ⟨-, hle, es', hmanages', hlength⟩ := hmanages.enqueue henqueue
  by_cases hlt : queueIndex < MAX_QUEUES
  . obtain ⟨i, rfl⟩ : ∃ i : QueueIndex, queueIndex = i.val := ⟨⟨queueIndex, hlt⟩, rfl⟩
    obtain ⟨dropped, queue, -, rfl, hrs, hm⟩ := enqueue_eq_some henqueue
    change rs = enqueued i dropped at hrs
    subst hrs
    have hother : ∀ j, j ≠ i → packets m j = packets a.manager j := by
      intro j hj
      have hi := hlength j
      simp only [Fin.val_inj, hj, ↓reduceIte, Nat.add_zero] at hi
      rw [packets_eq hmanages, packets_eq hmanages', hi]
    have hself : packets m i + dropped.toList.length = packets a.manager i + 1 := by
      have hi := hlength i
      simp only [↓reduceIte] at hi
      rw [packets_eq hmanages, packets_eq hmanages']
      exact hi
    have hbefore := hgood.depth i
    have hmark := hgood.highWaterMark i
    have hafter : (a.publisher.depthQueueInfo i + 1 - .ofNat dropped.toList.length).toNat
        = packets m i := by
      have hb := hbound i
      exact toNat_depth (by omega) (hbefore ▸ hself)
    constructor
    . intro j
      rw [depthQueueInfo_enqueued]
      by_cases hj : j = i
      . rw [hj, Function.update_self]
        exact hafter
      . rw [Function.update_of_ne hj, hother j hj]
        exact hgood.depth j
    . intro j
      simp only
      rw [highWaterMarkQueueInfo_enqueued]
      by_cases hj : j = i
      . rw [hj, Function.update_self]
        split
        . next hgt =>
          rw [gt_iff_lt, UInt64.lt_iff_toNat_lt, hafter, hmark] at hgt
          omega
        . next hle =>
          rw [gt_iff_lt, UInt64.lt_iff_toNat_lt, hafter, hmark] at hle
          omega
      . rw [Function.update_of_ne hj, hother j hj, hgood.highWaterMark j]
        exact (Nat.max_eq_left (hpeak j)).symm
    . intro j
      refine (drops_reports a.publisher _ .DROP_OVERFLOW j).trans ?_
      rw [(dropsOf_enqueued i j dropped).1, UInt64.ofNat_add, ← hgood.overflow j]
      simp only [Fin.val_inj]
      rfl
    . intro j
      refine (drops_reports a.publisher _ .DROP_TOOBIG j).trans ?_
      rw [(dropsOf_enqueued i j dropped).2, ← hgood.toobig j]
      exact UInt64.add_zero _
  . unfold BasicQueueManager.enqueue at henqueue
    rw [dif_neg hlt] at henqueue
    obtain ⟨rfl, rfl, rfl⟩ := henqueue
    constructor
    . exact hgood.depth
    . intro j
      exact (hgood.highWaterMark j).trans (Nat.max_eq_left (hpeak j)).symm
    . intro j
      simp only [ite_self, Nat.add_zero]
      exact hgood.overflow j
    . exact hgood.toobig

theorem reports_dequeue_eq {m m' : BasicQueueManager} {d : Dequeued}
    (heq : m.dequeue queueIndex requestedBytes destination = some (d, m'))
    : (∀ rep ∈ d.reports, QueueStatusPublisher.Report.isEnqueue rep = false)
        ∧ ∀ j,
        dropsOf .DROP_OVERFLOW j d.reports = 0
          ∧ dropsOf .DROP_TOOBIG j d.reports = returned m queueIndex requestedBytes destination j := by
  by_cases hlt : queueIndex < MAX_QUEUES
  . obtain ⟨i, rfl⟩ : ∃ i : QueueIndex, queueIndex = i.val := ⟨⟨queueIndex, hlt⟩, rfl⟩
    obtain ⟨r, queue, rs, rs', hdequeue, hreports, hgiven⟩ := reports_dequeue heq
    rw [List.forall_mem_append] at hgiven
    rw [hreports]
    constructor
    . have hquiet : ∀ rep, BasicQueueManager.Report.isGiven rep
          → QueueStatusPublisher.Report.isEnqueue rep = false := by
        intro rep hrep
        cases rep with
        | outbound source destination priority size action => rfl
        | enqueue queue => simp [BasicQueueManager.Report.isGiven] at hrep
        | dequeue requestQueue actualQueue components => rfl
        | drop queue reason count => rfl
      rw [List.forall_mem_append, List.forall_mem_append]
      refine ⟨⟨fun rep hrep => hquiet rep (hgiven.1 rep hrep), ?_⟩, fun rep hrep => hquiet rep
        (hgiven.2 rep hrep)⟩
      intro rep hrep
      simp only [List.mem_flatMap, List.mem_cons, List.not_mem_nil, or_false] at hrep
      obtain ⟨d, -, rfl | rfl⟩ := hrep
      . rfl
      . rfl
    . intro j
      simp only [dropsOf_append, dropsOf_given hgiven.1, dropsOf_given hgiven.2, Nat.zero_add,
        Nat.add_zero]
      have hdrops : ∀ dropped : List OwnedPacket, ∀ reason,
          dropsOf reason j
            (dropped.flatMap (fun d => [outbound d.packet .DROP_TOO_BIG, .drop i .DROP_TOOBIG 1]))
            = if i = j ∧ .DROP_TOOBIG = reason then dropped.length else 0 := by
        intro dropped reason
        induction dropped with
        | nil => simp [dropsOf]
        | cons d dropped ih =>
          rw [List.flatMap_cons, dropsOf_append, ih]
          simp only [dropsOf, QueueStatusPublisher.Report.dropped, outbound, List.map_cons,
            List.map_nil, List.sum_cons,
            List.sum_nil, List.length_cons]
          split
          . omega
          . rfl
      rw [hdrops, hdrops]
      refine ⟨by simp, ?_⟩
      unfold returned
      by_cases hj : i = j
      . subst hj
        simp [hdequeue]
      . have hval : j.val ≠ i.val := fun heq => hj (Fin.ext heq.symm)
        simp [hj, hval]
  . unfold BasicQueueManager.dequeue dequeue.collect at heq
    rw [dif_neg hlt] at heq
    obtain ⟨rfl, rfl⟩ := heq
    refine ⟨by simp, ?_⟩
    intro j
    refine ⟨rfl, ?_⟩
    unfold returned
    rw [if_neg (by omega)]
    rfl

theorem Agrees.dequeue (hgood : Agrees a) (h : Tracks cfg a) (hdepth : cfg.queueDepth < 2 ^ 16)
    (heq : a.step (.dequeue queueIndex requestedBytes destination) = some a')
    : Agrees a' ↔ a.manager.ShowsAll queueIndex requestedBytes destination := by
  unfold QueueAudit.step at heq
  simp only [Option.bind_eq_bind, Option.bind_eq_some_iff, Option.pure_def, Option.some.injEq] at heq
  obtain ⟨⟨d, m⟩, hdequeue, rfl⟩ := heq
  obtain ⟨rfl, ⟨es, hmanages⟩, hbound, hpeak⟩ := h
  obtain ⟨-, es', hmanages', hle, hiff⟩ := hmanages.departures_dequeue hdequeue
  obtain ⟨hquiet, hdrops⟩ := reports_dequeue_eq hdequeue
  have hafter : ∀ j, ((a.publisher.reports d.reports).depthQueueInfo j).toNat
      = (es j).length - departures j d.reports := by
    intro j
    have hj := hle j
    have hb := hbound j
    have hbefore := hgood.depth j
    rw [packets_eq hmanages] at hb hbefore
    have hcount : (UInt64.ofNat (departures j d.reports)).toNat = departures j d.reports := by
      rw [UInt64.toNat_ofNat']
      omega
    rw [depthQueueInfo_reports hquiet, UInt64.toNat_sub_of_le, hcount, hbefore]
    rw [UInt64.le_iff_toNat_le, hcount, hbefore]
    omega
  rw [← hiff]
  constructor
  . intro hagrees j
    have hd := hagrees.depth j
    have hj := hle j
    rw [hafter, packets_eq hmanages'] at hd
    omega
  . intro hall
    constructor
    . intro j
      have hj := hall j
      rw [hafter, packets_eq hmanages']
      omega
    . intro j
      have hj := hle j
      have hp := hpeak j
      simp only
      rw [highWaterMarkQueueInfo_reports hquiet, hgood.highWaterMark, packets_eq hmanages']
      rw [packets_eq hmanages] at hp
      omega
    . intro j
      refine (drops_reports a.publisher _ .DROP_OVERFLOW j).trans ?_
      rw [(hdrops j).1, ← hgood.overflow j]
      exact UInt64.add_zero _
    . intro j
      refine (drops_reports a.publisher _ .DROP_TOOBIG j).trans ?_
      rw [(hdrops j).2, UInt64.ofNat_add, ← hgood.toobig j]
      rfl

theorem Agrees.step (hgood : Agrees a) (h : Tracks cfg a) (hdepth : cfg.queueDepth < 2 ^ 16)
    {call : BasicQueueManager.Call}
    (heq : a.step call = some a')
    : Agrees a' ↔ a.Sees call := by
  cases call with
  | enqueue queueIndex pkt => exact iff_of_true (hgood.enqueue h hdepth heq) trivial
  | dequeue queueIndex requestedBytes destination => exact hgood.dequeue h hdepth heq

end

theorem agrees_iff_guarded {id : NEMId} {cfg : QueueManagerConfig}
    {calls : List BasicQueueManager.Call} {a : QueueAudit}
    (hdepth : cfg.queueDepth < 2 ^ 16) (hrun : run step (configure id cfg) calls = some a)
    : (∀ (before after : List BasicQueueManager.Call) (t : QueueAudit),
        calls = before ++ after → run step (configure id cfg) before = some t → Agrees t)
        ↔
      Guarded step Sees (configure id cfg) calls := by
  exact run_always_iff (fun _ _ _ h heq => Tracks.step h heq)
    (fun _ _ _ h hgood heq => Agrees.step hgood h hdepth heq)
    (Tracks.of_configure id cfg) (Agrees.of_configure id cfg) hrun

theorem agrees_iff_guarded_example
    : ∃ a,
        run step (configure 1 ⟨2, true, true, false, fun n => n * 90 / 100⟩) [
          .enqueue 0 ⟨⟨1, 2, 0, 0, 0⟩, [[1, 2, 3]]⟩, .enqueue 0 ⟨⟨1, 2, 0, 0, 0⟩, [[4, 5]]⟩,
          .enqueue 0 ⟨⟨1, 2, 0, 0, 0⟩, [[6]]⟩, .dequeue 0 1 0, .dequeue 0 5 0
        ] = some a
          ∧ Agrees a := by
  have hrun : ∃ a,
      run step (configure 1 ⟨2, true, true, false, fun n => n * 90 / 100⟩) [
        .enqueue 0 ⟨⟨1, 2, 0, 0, 0⟩, [[1, 2, 3]]⟩, .enqueue 0 ⟨⟨1, 2, 0, 0, 0⟩, [[4, 5]]⟩,
        .enqueue 0 ⟨⟨1, 2, 0, 0, 0⟩, [[6]]⟩, .dequeue 0 1 0, .dequeue 0 5 0
      ] = some a := by
    exact ⟨_, rfl⟩
  obtain ⟨a, hrun⟩ := hrun
  exact ⟨a, hrun, (agrees_iff_guarded (by decide) hrun).mpr (by decide) _ [] a
    (List.append_nil _).symm hrun⟩

theorem not_agrees
    : ¬ ∀ (id : NEMId) (cfg : QueueManagerConfig) (calls : List BasicQueueManager.Call) (a : QueueAudit),
        cfg.queueDepth < 2 ^ 16 → run step (configure id cfg) calls = some a → Agrees a := by
  intro hall
  have hagrees := hall 1 ⟨10, true, true, false, fun n => n * 90 / 100⟩
    [.enqueue 0 ⟨⟨1, 2, 0, 0, 0⟩, []⟩, .dequeue 0 100 0] _ (by decide) rfl
  have hdepth := hagrees.depth 0
  exact absurd hdepth (by decide)

end QueueAudit
end Tdma
end Emane

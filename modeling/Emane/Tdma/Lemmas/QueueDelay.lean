import Emane.Tdma.Lemmas.QueueStatusPublisher

/-!
This module contains when the latency estimate is one of the packets that have been dequeued.
-/

namespace Emane
namespace Tdma

namespace QueueDelayPublisher

theorem foldlM_visit {v : Int} (hlow : 0 ≤ v) (hhigh : 3 * v < 2^31) {delays : List Int}
    (hdelays : ∀ d ∈ delays, d = 0 ∨ d = v)
    {last : Last} (hlast : last = ⟨0, 0, 0⟩ ∨ last = ⟨v, v, v⟩)
    : delays.foldlM Last.visit last = some (if v ∈ delays then ⟨v, v, v⟩ else last) := by
  induction delays generalizing last with
  | nil => rfl
  | cons d delays ih =>
    rw [List.forall_mem_cons] at hdelays
    obtain ⟨hd, hrest⟩ := hdelays
    rw [List.foldlM_cons]
    unfold Last.visit
    by_cases hzero : d = 0
    . rw [if_neg (not_not.mpr hzero)]
      change List.foldlM Last.visit last delays = _
      rw [ih hrest hlast]
      by_cases hv : v = 0
      . have hnull : last = ⟨v, v, v⟩ := by
          obtain rfl | rfl := hlast
          . rw [hv]
          . rfl
        rw [hnull, ite_self, ite_self]
      . have hne : v ≠ d := fun heq => hv (heq.trans hzero)
        simp only [List.mem_cons, hne, false_or]
    . have heq : d = v := hd.resolve_left hzero
      have hint : toInt d = some d := if_pos (by omega)
      rw [if_pos hzero, hint]
      change List.foldlM Last.visit ⟨d, d, d⟩ delays = _
      rw [ih hrest (Or.inr (by rw [heq])), heq, ite_self, if_pos List.mem_cons_self]

theorem average_eq {v : Int} (hlow : 0 ≤ v) (hhigh : 3 * v < 2^31) {delays : Fin 64 → Int}
    (hdelays : ∀ i, delays i = 0 ∨ delays i = v) {i : Fin 64} (hi : delays i = v)
    : average delays = some v := by
  have hlast : (List.ofFn delays).foldlM Last.visit ⟨0, 0, 0⟩ = some ⟨v, v, v⟩ := by
    rw [foldlM_visit hlow hhigh]
    . rw [if_pos (List.mem_ofFn.mpr ⟨i, hi⟩)]
    . intro d hd
      obtain ⟨j, rfl⟩ := List.mem_ofFn.mp hd
      exact hdelays j
    . exact Or.inl rfl
  unfold average
  rw [hlast, Option.bind_eq_bind, Option.bind_some]
  by_cases hpos : v > 0
  . have htwo : toInt (v + v) = some (v + v) := if_pos (by omega)
    have hthree : toInt (v + v + v) = some (v + v + v) := if_pos (by omega)
    have hquotient : (v + v + v).tdiv 3 = v := by
      rw [Int.tdiv_eq_ediv_of_nonneg (by omega)]
      omega
    simp only [hpos, ↓reduceIte, Int.reduceAdd, ne_eq, OfNat.ofNat_ne_zero, not_false_eq_true, htwo,
      Option.bind_eq_bind,
      Option.bind_some, hthree, hquotient, Option.pure_def]
  . have hzero : v = 0 := by omega
    simp [hzero]

theorem toNat_packetId (n : Nat) : (packetId (.ofNat n)).val = n % 64 := by
  have hmod : (UInt64.ofNat n % 64).toNat = n % 2^64 % 64 := by
    rfl
  refine Eq.trans hmod ?_
  omega

theorem packetId_ne {m n : Nat} (hlt : m < n) (hle : n < m + 64)
    : packetId (.ofNat m) ≠ packetId (.ofNat n) := by
  intro heq
  have hval := congrArg Fin.val heq
  rw [toNat_packetId, toNat_packetId] at hval
  omega

end QueueDelayPublisher

namespace QueueDelayAudit

open QueueDelayPublisher

/--
What the estimate is meant to be: the packets that have left in the last step have their own
delays in the array, and the average is the mean of the last three delays.
-/
structure Right (a : QueueDelayAudit) : Prop where
  stored : ∀ queue, ∀ k < a.latest queue,
    (a.delays queue)[(a.delays queue).length - 1 - k]?
      =
    some (a.publisher.us64delays queue (packetId (.ofNat ((a.delays queue).length - k))))
  mean : ∀ queue,
    let last := (a.delays queue).drop ((a.delays queue).length - 3)
    a.publisher.avgQueueDelay queue * last.length = last.sum

/--
A packet that leaves is the only one and the first that has not left yet, and it has waited as long
as all others before it.
-/
def Timely (a : QueueDelayAudit) (event : Int × Report) : Prop :=
  match event.2 with
  | .dequeue _ queue components =>
    (completed components).length = 1
      ∧ ∀ c ∈ completed components,
      c.fragmentSequence = (a.delays queue).length
        ∧ (a.enqueueTimes queue).length ≤ (a.delays queue).length + 64
        ∧ (0 ≤ a.wait queue event.1 c ∧ 3 * a.wait queue event.1 c < 2^31)
        ∧ ∀ delay ∈ a.delays queue, delay = a.wait queue event.1 c
  | _ => True

instance (a : QueueDelayAudit) (event : Int × Report) : Decidable (a.Timely event) :=
  match event with
  | (_, .outbound _ _ _ _ _) => isTrue trivial
  | (_, .enqueue _) => isTrue trivial
  | (_, .dequeue _ _ _) => inferInstanceAs (Decidable (_ ∧ _))
  | (_, .drop _ _ _) => isTrue trivial

def Numbered (a : QueueDelayAudit) : Report → Prop
  | .dequeue _ queue components => ∀ c ∈ components, c.fragmentSequence < (a.enqueueTimes queue).length
  | _ => True

structure Aligned (a : QueueDelayAudit) (queue : QueueIndex) : Prop where
  enqueued : (a.publisher.statusTableInfo queue).enqueued = .ofNat (a.enqueueTimes queue).length
  dequeued : (a.publisher.statusTableInfo queue).dequeued = .ofNat (a.delays queue).length
  times : ∀ k time, (a.enqueueTimes queue)[k]? = some time → (a.enqueueTimes queue).length ≤ k + 64 →
    a.publisher.enqueuedQueues queue (packetId (.ofNat (k + 1))) = time
  bounds : ∃ v : Int,
    (0 ≤ v ∧ 3 * v < 2^31)
      ∧ (∀ delay ∈ a.delays queue, delay = v)
      ∧ (∀ i, a.publisher.us64delays queue i = 0 ∨ a.publisher.us64delays queue i = v)
      ∧ a.publisher.avgQueueDelay queue = v
      ∧ (a.delays queue = [] → v = 0)
  stored : ∀ k < a.latest queue,
    (a.delays queue)[(a.delays queue).length - 1 - k]?
      =
    some (a.publisher.us64delays queue (packetId (.ofNat ((a.delays queue).length - k))))

theorem Aligned.init (queue : QueueIndex) : init.Aligned queue where
  enqueued := rfl
  dequeued := rfl
  times := by
    intro k time htime
    cases htime
  bounds := ⟨0, by decide, by simp [QueueDelayAudit.init], fun _ => Or.inl rfl, rfl, fun _ => rfl⟩
  stored := by
    intro k hk
    cases hk

variable {a : QueueDelayAudit}

theorem Aligned.right (h : ∀ queue, a.Aligned queue) : a.Right := by
  constructor
  . exact fun queue => (h queue).stored
  . intro queue last
    obtain ⟨v, -, hdelays, -, havg, -⟩ := (h queue).bounds
    have hlast : last = List.replicate last.length v :=
      List.eq_replicate_of_mem (fun delay hdelay => hdelays delay (List.mem_of_mem_drop hdelay))
    have hsum : last.sum = last.length * v := by
      rw [hlast]
      simp
    rw [hsum, havg, Int.mul_comm]

theorem Aligned.enqueue {a : QueueDelayAudit} (h : ∀ queue, a.Aligned queue) (now : Int) (q : QueueIndex)
    : ∃ a', a.step (now, .enqueue q) = some a' ∧ ∀ queue, a'.Aligned queue := by
  refine ⟨_, rfl, ?_⟩
  intro queue
  obtain ⟨henqueued, hdequeued, htimes, ⟨v, hv, hdelays, hentries, havg, hnone⟩, hstored⟩ := h queue
  by_cases hq : queue = q
  . subst hq
    have hid : packetId (((a.publisher.statusTableInfo queue).enqueued) + 1)
        = packetId (.ofNat ((a.enqueueTimes queue).length + 1)) := by
      rw [henqueued, UInt64.ofNat_add]
      rfl
    constructor
    . simp only [QueueStatusPublisher.enqueue, Function.update_self, List.length_append,
        List.length_singleton, henqueued,
        UInt64.ofNat_add]
      rfl
    . simpa only [QueueStatusPublisher.enqueue, Function.update_self] using hdequeued
    . intro k time htime hle
      simp only [QueueStatusPublisher.enqueue, Function.update_self, List.length_append,
        List.length_singleton, hid] at htime hle ⊢
      rw [List.getElem?_append] at htime
      split at htime
      . next hlt =>
        rw [Function.update_of_ne (packetId_ne (by omega) (by omega))]
        exact htimes k time htime (by omega)
      . next hge =>
        obtain rfl : k = (a.enqueueTimes queue).length := by
          have hsome := (List.getElem?_eq_some_iff.mp htime).1
          simp only [List.length_singleton] at hsome
          omega
        simpa using htime
    . refine ⟨v, hv, hdelays, ?_, havg, hnone⟩
      intro i
      simp only [Function.update_self, Function.update_apply]
      split
      . exact Or.inl rfl
      . exact hentries i
    . intro k hk
      simp only [Function.update_self, Nat.not_lt_zero] at hk
  . constructor
    . simpa only [QueueStatusPublisher.enqueue, Function.update_of_ne hq] using henqueued
    . simpa only [QueueStatusPublisher.enqueue, Function.update_of_ne hq] using hdequeued
    . simpa only [QueueStatusPublisher.enqueue, Function.update_of_ne hq] using htimes
    . exact ⟨v, hv, hdelays, by simpa only [Function.update_of_ne hq] using hentries, havg, hnone⟩
    . simpa only [Function.update_of_ne hq] using hstored

def served (a : QueueDelayAudit) (requestQueue q : QueueIndex) (components : MessageComponents)
    (delay : Int) : QueueDelayAudit where
  publisher := {
    toQueueStatusPublisher := a.publisher.toQueueStatusPublisher.dequeue requestQueue q components
    enqueuedQueues := a.publisher.enqueuedQueues
    us64delays :=
      Function.update a.publisher.us64delays q
        (Function.update (a.publisher.us64delays q) (packetId (.ofNat ((a.delays q).length + 1))) delay)
    avgQueueDelay := Function.update a.publisher.avgQueueDelay q delay }
  enqueueTimes := a.enqueueTimes
  delays := Function.update a.delays q (a.delays q ++ [delay])
  latest := Function.update a.latest q 1

theorem Aligned.entries {q : QueueIndex} (h : a.Aligned q) {delay : Int}
    (hsame : ∀ other ∈ a.delays q, other = delay) (id i : Fin 64)
    : Function.update (a.publisher.us64delays q) id delay i = 0
        ∨ Function.update (a.publisher.us64delays q) id delay i = delay := by
  obtain ⟨v, hv, hdelays, hentries, havg, hnone⟩ := h.bounds
  rw [Function.update_apply]
  split
  . exact Or.inr rfl
  . obtain hzero | heq := hentries i
    . exact Or.inl hzero
    . cases hpast : a.delays q with
      | nil => exact Or.inl (heq.trans (hnone hpast))
      | cons first rest =>
        right
        have hfirst : first ∈ a.delays q := by
          rw [hpast]
          exact List.mem_cons_self
        rw [heq, ← hdelays first hfirst, hsame first hfirst]

theorem Aligned.step_dequeue {q : QueueIndex} (h : a.Aligned q) {now : Int} {requestQueue : QueueIndex}
    {components : MessageComponents} {c : MessageComponent} (hcompleted : completed components = [c])
    (hnumber : c.fragmentSequence = (a.delays q).length)
    (hlt : (a.delays q).length < (a.enqueueTimes q).length)
    (hdepth : (a.enqueueTimes q).length ≤ (a.delays q).length + 64) (hlow : 0 ≤ a.wait q now c)
    (hhigh : 3 * a.wait q now c < 2^31)
    (hsame : ∀ other ∈ a.delays q, other = a.wait q now c)
    : a.step (now, .dequeue requestQueue q components) = some
        (a.served requestQueue q components (a.wait q now c)) := by
  have hcount : (.ofNat (components.filter (fun c => !c.moreFragments)).length : UInt64) = 1 := by
    change UInt64.ofNat (completed components).length = 1
    rw [hcompleted]
    rfl
  have hid : packetId ((a.publisher.statusTableInfo q).dequeued + 1)
      = packetId (.ofNat ((a.delays q).length + 1)) := by
    rw [h.dequeued, UInt64.ofNat_add]
    rfl
  have htime := List.getElem?_eq_getElem hlt
  have hwait : microseconds (now - a.publisher.enqueuedQueues q
      (packetId (.ofNat ((a.delays q).length + 1)))) = a.wait q now c := by
    rw [h.times _ _ htime hdepth]
    unfold wait
    rw [hnumber, List.getD_eq_getElem?_getD, htime, Option.getD_some]
  have haverage := average_eq hlow hhigh
    (h.entries hsame (packetId (.ofNat ((a.delays q).length + 1)))) (Function.update_self _ _ _)
  unfold step QueueDelayPublisher.report QueueDelayPublisher.dequeue updatedelaystat
  simp only [QueueStatusPublisher.dequeue, Function.update_self, hcount, hid, hwait, haverage,
    Bool.false_eq_true, ↓reduceIte,
    Option.bind_eq_bind, Option.bind_some, Option.pure_def, hcompleted, List.map_cons, List.map_nil,
      List.length_singleton]
  unfold served QueueStatusPublisher.dequeue
  rw [hcount]

theorem Aligned.served (h : ∀ queue, a.Aligned queue) (requestQueue q : QueueIndex)
    {components : MessageComponents} {c : MessageComponent}
    (hcompleted : completed components = [c]) {delay : Int} (hlow : 0 ≤ delay)
    (hhigh : 3 * delay < 2^31) (hsame : ∀ other ∈ a.delays q, other = delay) (queue : QueueIndex)
    : (a.served requestQueue q components delay).Aligned queue := by
  have hcount : (.ofNat (components.filter (fun c => !c.moreFragments)).length : UInt64) = 1 := by
    change UInt64.ofNat (completed components).length = 1
    rw [hcompleted]
    rfl
  by_cases hq : queue = q
  . subst hq
    have hentries := (h queue).entries hsame (packetId (.ofNat ((a.delays queue).length + 1)))
    obtain ⟨henqueued, hdequeued, htimes, -, -⟩ := h queue
    unfold QueueDelayAudit.served
    constructor
    . simpa only [QueueStatusPublisher.dequeue, Function.update_self] using henqueued
    . simp only [QueueStatusPublisher.dequeue, Function.update_self, hcount, List.length_append,
        List.length_singleton, hdequeued,
        UInt64.ofNat_add]
      rfl
    . exact htimes
    . refine ⟨delay, ⟨hlow, hhigh⟩, ?_, ?_, ?_, ?_⟩
      . simp only [Function.update_self, List.mem_append, List.mem_singleton]
        rintro other (hother | rfl)
        . exact hsame other hother
        . rfl
      . simpa only [Function.update_self] using hentries
      . simp only [Function.update_self]
      . simp
    . intro k hk
      simp only [Function.update_self, Nat.lt_one_iff] at hk ⊢
      subst hk
      simp
  . obtain ⟨henqueued, hdequeued, htimes, ⟨v, hv, hdelays, hentries, havg, hnone⟩, hstored⟩ := h queue
    unfold QueueDelayAudit.served
    constructor
    . simpa only [QueueStatusPublisher.dequeue, Function.update_of_ne hq] using henqueued
    . simpa only [QueueStatusPublisher.dequeue, Function.update_of_ne hq] using hdequeued
    . exact htimes
    . exact ⟨v, hv, by simpa only [Function.update_of_ne hq] using hdelays, by simpa only [Function.update_of_ne hq] using hentries,
        by simpa only [Function.update_of_ne hq] using havg, by simpa only [Function.update_of_ne hq] using hnone⟩
    . simpa only [Function.update_of_ne hq] using hstored

theorem Aligned.of_same {a' : QueueDelayAudit} {queue : QueueIndex} (h : a.Aligned queue)
    (henqueued : (a'.publisher.statusTableInfo queue).enqueued
      = (a.publisher.statusTableInfo queue).enqueued)
    (hdequeued : (a'.publisher.statusTableInfo queue).dequeued
      = (a.publisher.statusTableInfo queue).dequeued)
    (henqueuedQueues : a'.publisher.enqueuedQueues = a.publisher.enqueuedQueues)
    (hentries : a'.publisher.us64delays = a.publisher.us64delays)
    (havg : a'.publisher.avgQueueDelay = a.publisher.avgQueueDelay)
    (htimes : a'.enqueueTimes = a.enqueueTimes) (hdelays : a'.delays = a.delays)
    (hlatest : a'.latest = a.latest)
    : a'.Aligned queue := by
  constructor
  . rw [henqueued, htimes]
    exact h.enqueued
  . rw [hdequeued, hdelays]
    exact h.dequeued
  . rw [henqueuedQueues, htimes]
    exact h.times
  . rw [hdelays, hentries, havg]
    exact h.bounds
  . rw [hlatest, hdelays, hentries]
    exact h.stored

theorem Aligned.step (h : ∀ queue, a.Aligned queue) {event : Int × Report} (htimely : a.Timely event)
    (hnumbered : a.Numbered event.2)
    : ∃ a', a.step event = some a' ∧ ∀ queue, a'.Aligned queue := by
  obtain ⟨now, rep⟩ := event
  cases rep with
  | outbound source destination priority size action =>
    exact ⟨_, rfl, fun queue => (h queue).of_same rfl rfl rfl rfl rfl rfl rfl rfl⟩
  | enqueue queue => exact Aligned.enqueue h now queue
  | dequeue requestQueue q components =>
    obtain ⟨hone, hall⟩ := htimely
    obtain ⟨c, hcompleted⟩ := List.length_eq_one_iff.mp hone
    have hmem : c ∈ completed components := by
      rw [hcompleted]
      exact List.mem_cons_self
    obtain ⟨hnumber, hdepth, ⟨hlow, hhigh⟩, hsame⟩ := hall c hmem
    have hlt : (a.delays q).length < (a.enqueueTimes q).length := hnumber ▸ hnumbered c
      (List.mem_of_mem_filter hmem)
    exact ⟨_, (h q).step_dequeue hcompleted hnumber hlt hdepth hlow hhigh hsame,
      Aligned.served h requestQueue q hcompleted hlow hhigh hsame⟩
  | drop q reason count =>
    refine ⟨_, rfl, ?_⟩
    intro queue
    have hsame : ∀ status : QueueStatus → UInt64,
        (status = QueueStatus.enqueued ∨ status = QueueStatus.dequeued) →
          status ((a.publisher.drop q reason count).statusTableInfo queue)
              = status (a.publisher.statusTableInfo queue) := by
      intro status hstatus
      simp only [QueueDelayPublisher.drop, QueueStatusPublisher.drop, Function.update_apply]
      split
      . next hq =>
        rw [hq]
        obtain rfl | rfl := hstatus
        . cases reason with
          | DROP_OVERFLOW => rfl
          | DROP_TOOBIG => rfl
        . cases reason with
          | DROP_OVERFLOW => rfl
          | DROP_TOOBIG => rfl
      . rfl
    exact (h queue).of_same (hsame _ (Or.inl rfl)) (hsame _ (Or.inr rfl)) rfl rfl rfl rfl rfl rfl

end QueueDelayAudit

namespace BasicQueueManager

def Report.Below (counters : QueueIndex → Nat) : Report → Prop
  | .enqueue _ => False
  | .dequeue _ queue components => ∀ c ∈ components, c.fragmentSequence < counters queue
  | _ => True

def Numbered : (QueueIndex → Nat) → List Report → Prop
  | _, [] => True
  | counters, .enqueue queue :: rs => Numbered (Function.update counters queue (counters queue + 1)) rs
  | counters, rep :: rs => Report.Below counters rep ∧ Numbered counters rs

theorem numbered_append_of_below {counters : QueueIndex → Nat} {rs rs' : List Report}
    (h : ∀ rep ∈ rs, Report.Below counters rep)
    (h' : Numbered counters rs')
    : Numbered counters (rs ++ rs') := by
  induction rs with
  | nil => exact h'
  | cons rep rs ih =>
    rw [List.forall_mem_cons] at h
    cases rep with
    | enqueue queue => exact absurd h.1 not_false
    | outbound source destination priority size action => exact ⟨trivial, ih h.2⟩
    | dequeue requestQueue actualQueue components => exact ⟨h.1, ih h.2⟩
    | drop queue reason count => exact ⟨trivial, ih h.2⟩

structure Counts (cfg : QueueManagerConfig) (queues : QueueIndex → Queue)
    (counters : QueueIndex → Nat) : Prop where
  manages : ∃ es, Manages cfg queues es
  counter : ∀ i, (queues i).counter = counters i

section

variable {cfg : QueueManagerConfig} {queues : QueueIndex → Queue} {counters : QueueIndex → Nat}

theorem Counts.dequeue (h : Counts cfg queues counters) (i : QueueIndex) {requestedBytes : Nat}
    {destination : NEMId} {drop : Bool}
    {r : Queue.dequeue.Result} {queue : Queue}
    (heq : (queues i).dequeue requestedBytes destination drop = some (r, queue))
    : Counts cfg (Function.update queues i queue) counters ∧ ∀ c ∈ r.components,
        c.fragmentSequence < counters i := by
  obtain ⟨⟨es, hmanages⟩, hcounter⟩ := h
  obtain ⟨queue', heq', hholds, hconfig, hcounter', hfs⟩ :=
    (hmanages.holds i).dequeue requestedBytes destination drop
  rw [heq, Option.some.injEq, Prod.mk.injEq] at heq'
  obtain ⟨rfl, rfl⟩ := heq'
  constructor
  . refine ⟨⟨_, hmanages.update hholds (hconfig.trans (hmanages.config i))⟩, ?_⟩
    intro j
    rw [Function.update_apply]
    split
    . next hj => rw [hj, hcounter', hcounter i]
    . exact hcounter j
  . intro c hc
    rw [hfs.components, List.nil_append] at hc
    obtain ⟨e, he, hseq⟩ := Fifo.Fates.mem_components hc
    rw [hfs.before] at he
    rw [hseq, ← hcounter i]
    exact (hmanages.holds i).fresh e he

theorem Counts.enqueue (h : Counts cfg queues counters) (i : QueueIndex) {pkt : DownstreamPacket}
    {dropped : Option OwnedPacket}
    {queue : Queue} (heq : (queues i).enqueue pkt = some (dropped, queue))
    : Counts cfg (Function.update queues i queue) (Function.update counters i (counters i + 1)) := by
  obtain ⟨⟨es, hmanages⟩, hcounter⟩ := h
  obtain ⟨rest, hholds, hconfig, -, -, hcounter'⟩ := (hmanages.holds i).of_enqueue heq
  refine ⟨⟨_, hmanages.update hholds (hconfig.trans (hmanages.config i))⟩, ?_⟩
  intro j
  rw [Function.update_apply, Function.update_apply]
  split
  . rw [hcounter', hcounter i]
  . exact hcounter j

namespace dequeue

variable {s : State}

theorem below_record (hreports : ∀ rep ∈ s.reports, Report.Below counters rep) (q i : QueueIndex)
    {r : Queue.dequeue.Result} (hr : ∀ c ∈ r.components, c.fragmentSequence < counters i) (queue : Queue)
    : ∀ rep ∈ (record q i r queue s).reports, Report.Below counters rep := by
  unfold record
  split
  . rw [List.forall_mem_append, List.forall_mem_singleton]
    exact ⟨hreports, hr⟩
  . exact hreports

theorem below_reportDrops (hreports : ∀ rep ∈ s.reports, Report.Below counters rep) (q : QueueIndex)
    (dropped : List OwnedPacket)
    : ∀ rep ∈ (reportDrops q dropped s).reports, Report.Below counters rep := by
  unfold reportDrops
  rw [List.forall_mem_append]
  refine ⟨hreports, ?_⟩
  intro rep hrep
  simp only [List.mem_flatMap, List.mem_cons, List.not_mem_nil, or_false] at hrep
  obtain ⟨d, -, rfl | rfl⟩ := hrep
  . trivial
  . trivial

theorem below_others {q : QueueIndex} {requestedBytes : Nat} {destination : NEMId}
    {is : List QueueIndex} {s' : State}
    (h : Counts cfg s.queues counters) (hreports : ∀ rep ∈ s.reports, Report.Below counters rep)
    (heq : others cfg q requestedBytes destination is s = some s')
    : Counts cfg s'.queues counters ∧ ∀ rep ∈ s'.reports, Report.Below counters rep := by
  induction is generalizing s with
  | nil =>
    cases heq
    exact ⟨h, hreports⟩
  | cons i is ih =>
    unfold others at heq
    split at heq
    . split at heq
      . rw [Option.bind_eq_bind, Option.bind_eq_some_iff] at heq
        obtain ⟨⟨r, queue⟩, hdequeue, heq⟩ := heq
        obtain ⟨hcounts, hr⟩ := h.dequeue i hdequeue
        apply ih _ (below_record hreports q i hr queue) heq
        rw [queues_record]
        exact hcounts
      . exact ih h hreports heq
    . cases heq
      exact ⟨h, hreports⟩

end dequeue

variable {m m' : BasicQueueManager}

theorem Counts.below_dequeue (h : Counts m.toQueueManagerConfig m.queues counters)
    {queueIndex requestedBytes : Nat}
    {destination : NEMId} {d : Dequeued}
    (heq : m.dequeue queueIndex requestedBytes destination = some (d, m'))
    : m'.toQueueManagerConfig = m.toQueueManagerConfig
        ∧ Counts m.toQueueManagerConfig m'.queues counters
        ∧ ∀ rep ∈ d.reports, Report.Below counters rep := by
  by_cases hlt : queueIndex < MAX_QUEUES
  . obtain ⟨i, rfl⟩ : ∃ i : QueueIndex, queueIndex = i.val := ⟨⟨queueIndex, hlt⟩, rfl⟩
    obtain ⟨r, queue, s, accepted, hdequeue, hothers, hreports, ⟨cs, rfl⟩, rfl⟩ := dequeue_eq_some heq
    obtain ⟨hcounts, hr⟩ := h.dequeue i hdequeue
    have hfirst := dequeue.below_reportDrops
      (dequeue.below_record (s := ⟨m.queues, [], 0, []⟩) (by simp) i i hr queue) i r.dropped
    obtain ⟨hcounts', hbelow⟩ := dequeue.below_others (by
      unfold dequeue.reportDrops
      rw [dequeue.queues_record]
      exact hcounts) hfirst hothers
    refine ⟨rfl, hcounts', ?_⟩
    rw [hreports, List.forall_mem_append]
    refine ⟨hbelow, ?_⟩
    intro rep hrep
    obtain ⟨c, -, rfl⟩ := List.mem_map.mp hrep
    trivial
  . unfold BasicQueueManager.dequeue dequeue.collect at heq
    rw [dif_neg hlt] at heq
    obtain ⟨rfl, rfl⟩ := heq
    exact ⟨rfl, h, by simp⟩

theorem Counts.numbered {calls : List Call} {rs : List Report}
    (h : Counts m.toQueueManagerConfig m.queues counters)
    (hreports : m.reports calls = some rs)
    : Numbered counters rs := by
  induction calls generalizing m counters rs with
  | nil =>
    cases hreports
    trivial
  | cons call calls ih =>
    cases call with
    | enqueue queueIndex pkt =>
      unfold BasicQueueManager.reports at hreports
      simp only [Option.bind_eq_bind, Option.bind_eq_some_iff, Option.pure_def,
        Option.some.injEq] at hreports
      obtain ⟨⟨n, first, m'⟩, henqueue, rest, hrest, rfl⟩ := hreports
      by_cases hlt : queueIndex < MAX_QUEUES
      . obtain ⟨i, rfl⟩ : ∃ i : QueueIndex, queueIndex = i.val := ⟨⟨queueIndex, hlt⟩, rfl⟩
        obtain ⟨dropped, queue, hqueue, -, rfl, rfl⟩ := enqueue_eq_some henqueue
        rw [List.append_assoc]
        apply numbered_append_of_below
        . intro rep hrep
          simp only [List.mem_flatMap, List.mem_cons, List.not_mem_nil, or_false] at hrep
          obtain ⟨d, -, rfl | rfl⟩ := hrep
          . trivial
          . trivial
        . change Numbered (Function.update counters i (counters i + 1)) rest
          exact ih (h.enqueue i hqueue) hrest
      . unfold BasicQueueManager.enqueue at henqueue
        rw [dif_neg hlt] at henqueue
        obtain ⟨-, rfl, rfl⟩ := henqueue
        exact ih h hrest
    | dequeue queueIndex requestedBytes destination =>
      unfold BasicQueueManager.reports at hreports
      simp only [Option.bind_eq_bind, Option.bind_eq_some_iff, Option.pure_def,
        Option.some.injEq] at hreports
      obtain ⟨⟨d, m'⟩, hdequeue, rest, hrest, rfl⟩ := hreports
      obtain ⟨hconfig, hcounts, hbelow⟩ := h.below_dequeue hdequeue
      exact numbered_append_of_below hbelow (ih (hconfig ▸ hcounts) hrest)

end

theorem numbered_reports {id : NEMId} {cfg : QueueManagerConfig} {calls : List Call} {rs : List Report}
    (hreports : (configure id cfg).reports calls = some rs)
    : Numbered (fun _ => 0) rs := by
  exact Counts.numbered ⟨⟨_, Manages.of_configure id cfg⟩, fun _ => rfl⟩ hreports

end BasicQueueManager

namespace QueueDelayAudit

open BasicQueueManager

theorem enqueueTimes_step {a a' : QueueDelayAudit} {now : Int} {rep : Report}
    (heq : a.step (now, rep) = some a')
    : a'.enqueueTimes
        =
      match rep with
      | .enqueue queue => Function.update a.enqueueTimes queue (a.enqueueTimes queue ++ [now])
      | _ => a.enqueueTimes := by
  unfold step at heq
  rw [Option.bind_eq_bind, Option.bind_eq_some_iff] at heq
  obtain ⟨publisher, -, heq⟩ := heq
  cases rep with
  | outbound source destination priority size action =>
    exact (congrArg QueueDelayAudit.enqueueTimes (Option.some.inj heq)).symm
  | enqueue queue => exact (congrArg QueueDelayAudit.enqueueTimes (Option.some.inj heq)).symm
  | dequeue requestQueue actualQueue components =>
    exact (congrArg QueueDelayAudit.enqueueTimes (Option.some.inj heq)).symm
  | drop queue reason count => exact (congrArg QueueDelayAudit.enqueueTimes (Option.some.inj heq)).symm

theorem guarded_numbered {a : QueueDelayAudit} {events : List (Int × Report)}
    (h : BasicQueueManager.Numbered (fun queue => (a.enqueueTimes queue).length) (events.map Prod.snd))
    : Guarded step (fun a event => a.Numbered event.2) a events := by
  induction events generalizing a with
  | nil => trivial
  | cons event events ih =>
    obtain ⟨now, rep⟩ := event
    have hrest : ∀ rep, (∀ queue, rep ≠ Report.enqueue queue) → ∀ a', a.step (now, rep) = some a' →
        BasicQueueManager.Numbered (fun queue => (a.enqueueTimes queue).length) (events.map Prod.snd) →
          Guarded step (fun a event => a.Numbered event.2) a' events := by
      intro rep hrep a' heq hnumbered
      apply ih
      have htimes := enqueueTimes_step heq
      cases rep with
      | enqueue queue => exact absurd rfl (hrep queue)
      | outbound source destination priority size action => exact htimes ▸ hnumbered
      | dequeue requestQueue actualQueue components => exact htimes ▸ hnumbered
      | drop queue reason count => exact htimes ▸ hnumbered
    cases rep with
    | outbound source destination priority size action =>
      exact ⟨trivial, fun a' heq => hrest _ (fun _ heq => (by cases heq)) a' heq h.2⟩
    | dequeue requestQueue actualQueue components =>
      exact ⟨h.1, fun a' heq => hrest _ (fun _ heq => (by cases heq)) a' heq h.2⟩
    | drop queue reason count =>
      exact ⟨trivial, fun a' heq => hrest _ (fun _ heq => (by cases heq)) a' heq h.2⟩
    | enqueue queue =>
      refine ⟨trivial, ?_⟩
      intro a' heq
      apply ih
      rw [enqueueTimes_step heq]
      have hlength : (fun i =>
        (Function.update a.enqueueTimes queue (a.enqueueTimes queue ++ [now]) i).length)
          = Function.update (fun i => (a.enqueueTimes i).length) queue
              ((a.enqueueTimes queue).length + 1) := by
        funext i
        rw [Function.update_apply, Function.update_apply]
        split
        . simp
        . rfl
      rw [hlength]
      exact h

theorem delays_right {id : NEMId} {cfg : QueueManagerConfig} {calls : List BasicQueueManager.Call}
    {events : List (Int × Report)}
    (hreports : (configure id cfg).reports calls = some (events.map Prod.snd))
    (htimely : Guarded step Timely init events)
    : ∀ before after, events = before ++ after → ∃ a, run step init before = some a ∧ a.Right := by
  rintro before after rfl
  have hnumbered : Guarded step (fun a event => a.Numbered event.2) init (before ++ after) :=
    guarded_numbered (numbered_reports hreports)
  have hguarded := (htimely.and hnumbered).of_append
  have hstep : ∀ (a : QueueDelayAudit) (event : Int × Report), (∀ queue, a.Aligned queue)
    → a.Timely event ∧ a.Numbered event.2 →
      ∃ a', a.step event = some a' ∧ ∀ queue, a'.Aligned queue :=
    fun a event haligned hok => Aligned.step haligned hok.1 hok.2
  obtain ⟨a, hrun, haligned⟩ := run_total hstep Aligned.init hguarded
  exact ⟨a, hrun, Aligned.right haligned⟩

theorem delays_right_example
    : ∃ rs a,
        (configure 1 ⟨10, true, false, false, fun n => n * 90 / 100⟩).reports [
          .enqueue 0 ⟨⟨1, 2, 0, 0, 0⟩, [[1, 2]]⟩, .enqueue 0 ⟨⟨1, 2, 0, 0, 0⟩, [[3, 4]]⟩,
            .dequeue 0 2 0, .dequeue 0 2 0
        ] = some rs
          ∧ run step init (([1000, 5000, 3001000, 3002000, 3005000, 3006000] : List Int).zip rs) = some a
          ∧ a.Right := by
  have hreports : ∃ rs,
      (configure 1 ⟨10, true, false, false, fun n => n * 90 / 100⟩).reports [
        .enqueue 0 ⟨⟨1, 2, 0, 0, 0⟩, [[1, 2]]⟩, .enqueue 0 ⟨⟨1, 2, 0, 0, 0⟩, [[3, 4]]⟩,
          .dequeue 0 2 0, .dequeue 0 2 0
      ] = some rs
        ∧ (([1000, 5000, 3001000, 3002000, 3005000, 3006000] : List Int).zip rs).map Prod.snd = rs
        ∧ Guarded step Timely init
            (([1000, 5000, 3001000, 3002000, 3005000, 3006000] : List Int).zip rs) := by
    refine ⟨_, rfl, rfl, ?_⟩
    decide +kernel
  obtain ⟨rs, hreports, hevents, htimely⟩ := hreports
  obtain ⟨a, hrun, hright⟩ := delays_right (hevents ▸ hreports) htimely _ [] (List.append_nil _).symm
  exact ⟨rs, a, hreports, hrun, hright⟩

theorem not_delays_right
    : ¬ ∀ (id : NEMId) (cfg : QueueManagerConfig) (calls : List BasicQueueManager.Call) (events : List (Int × Report))
        (a : QueueDelayAudit),
        (configure id cfg).reports calls = some (events.map Prod.snd)
            → run step init events = some a → a.Right := by
  intro hall
  have hrun : ∃ rs a,
      (configure 1 ⟨10, true, false, false, fun n => n * 90 / 100⟩).reports [
        .enqueue 0 ⟨⟨1, 2, 0, 0, 0⟩, [[1, 2]]⟩, .enqueue 0 ⟨⟨1, 2, 0, 0, 0⟩, [[3, 4]]⟩, .dequeue 0 4 0
      ] = some rs
        ∧ (([0, 2000, 10000, 11000, 12000] : List Int).zip rs).map Prod.snd = rs
        ∧ run step init (([0, 2000, 10000, 11000, 12000] : List Int).zip rs) = some a
        ∧ ¬ a.Right := by
    refine ⟨_, _, rfl, rfl, rfl, ?_⟩
    intro hright
    exact absurd (hright.stored 0 1 (by decide)) (by decide)
  obtain ⟨rs, a, hreports, hevents, hrun, hwrong⟩ := hrun
  exact hwrong (hall _ _ _ _ a (hevents.symm ▸ hreports) hrun)

end QueueDelayAudit
end Tdma
end Emane

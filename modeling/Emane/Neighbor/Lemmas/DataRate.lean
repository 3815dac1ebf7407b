import Mathlib.Algebra.GroupWithZero.Action.Defs
import Mathlib.Algebra.Order.Field.Rat
import Mathlib.Tactic.FieldSimp
import Mathlib.Tactic.Linarith
import Emane.Neighbor.Lemmas.NeighborMetricManager

/-!
This module contains what the average data rates of a neighbor say about the frames of a report
interval.
-/

namespace Emane
namespace Neighbor

structure Average where
  count : UInt64
  avg : UInt64

namespace Average

def new : Average := ⟨0, 0⟩

def record (a : Average) : Option UInt64 → Average
  | none => { a with count := a.count + 1 }
  | some rate => ⟨a.count + 1, updateRunningAverage a.avg (a.count + 1) rate⟩

end Average

structure ExactAverage where
  count : Nat
  avg : Rat

namespace ExactAverage

def new : ExactAverage := ⟨0, 0⟩

def updateRunningAverage (avg : Rat) (count : Nat) (val : Rat) : Rat :=
  if count = 1 then val else (avg * count + val) / (count + 1 : Nat)

def record (a : ExactAverage) : Option UInt64 → ExactAverage
  | none => { a with count := a.count + 1 }
  | some rate => ⟨a.count + 1, updateRunningAverage a.avg (a.count + 1) (rate.toNat : Rat)⟩

end ExactAverage

def rates (frames : List (Option UInt64)) : List UInt64 :=
  frames.filterMap id

def total (frames : List (Option UInt64)) : Nat :=
  ((rates frames).map UInt64.toNat).sum

def divisors (frames : List (Option UInt64)) : List UInt64 :=
  frames.zipIdx.filterMap (fun entry => entry.1.map (fun _ => UInt64.ofNat (entry.2 + 1) + 1))

/--
Without rounding it is the arithmetic mean of the data rates, with rounding it is between the
smallest and the largest one.
-/
structure Average.Right (a : Average) (frames : List (Option UInt64)) : Prop where
  mean : rates frames ≠ [] →
    (frames.foldl ExactAverage.record .new).avg = (total frames : Rat) / ((rates frames).length : Rat)
  divides : ∀ divisor ∈ divisors frames, divisor ≠ 0
  between : rates frames ≠ [] → (∃ rate ∈ rates frames, rate ≤ a.avg) ∧ ∃ rate ∈ rates frames,
    a.avg ≤ rate
  fits : ∀ rate : UInt64, (∀ other ∈ rates frames ++ [rate], other.toNat ≤ 2^40)
    → frames.length + 1 ≤ 2^20 →
    a.avg.toNat * (a.count + 1).toNat + rate.toNat < 2^64

def level (frames : List (Option UInt64)) : UInt64 :=
  (rates frames).headD 0

/--
The data rate does not change, and the product with the count is a 64 bit number. If the first
frame of an interval has no data rate then all the others have to be 0.
-/
def Steady (frames : List (Option UInt64)) : Option UInt64 → Prop
  | none => True
  | some rate =>
    frames = []
      ∨ (rate = level frames
      ∧ let count := UInt64.ofNat (frames.length + 1)
    count + 1 ≠ 0 ∧ (count = 1 ∨ rate.toNat * (count + 1).toNat < 2^64))

theorem rates_append (frames : List (Option UInt64)) (frame : Option UInt64)
    : rates (frames ++ [frame]) = rates frames ++ frame.toList := by
  unfold rates
  rw [List.filterMap_append]
  cases frame with
  | none => rfl
  | some rate => rfl

theorem divisors_append (frames : List (Option UInt64)) (frame : Option UInt64)
    : divisors (frames ++ [frame])
        =
      divisors frames ++ (frame.map (fun _ => UInt64.ofNat (frames.length + 1) + 1)).toList := by
  unfold divisors
  rw [List.zipIdx_append, List.filterMap_append, Nat.zero_add]
  cases frame with
  | none => rfl
  | some rate => rfl

theorem length_rates_le (frames : List (Option UInt64)) : (rates frames).length ≤ frames.length := by
  apply List.length_filterMap_le

theorem level_mem {frames : List (Option UInt64)} (h : rates frames ≠ [])
    : level frames ∈ rates frames := by
  unfold level
  cases hrates : rates frames with
  | nil => exact absurd hrates h
  | cons first rest => exact List.mem_cons_self

theorem level_append_of_ne {frames : List (Option UInt64)} (h : rates frames ≠ []) (frame : Option UInt64)
    : level (frames ++ [frame]) = level frames := by
  unfold level
  rw [rates_append]
  cases hrates : rates frames with
  | nil => exact absurd hrates h
  | cons first rest => rfl

theorem total_of_forall_eq {frames : List (Option UInt64)} {v : UInt64}
    (h : ∀ rate ∈ rates frames, rate = v)
    : total frames = (rates frames).length * v.toNat := by
  unfold total
  have hall := List.eq_replicate_of_mem h
  rw [hall, List.map_replicate, List.sum_replicate, smul_eq_mul, List.length_replicate]

theorem toNat_succ {count : UInt64} (h : count + 1 ≠ 0) : (count + 1).toNat = count.toNat + 1 := by
  have hne : (count + 1).toNat ≠ 0 := fun hzero => h (UInt64.toNat_inj.mp hzero)
  have hlt := count.toNat_lt
  rw [UInt64.toNat_add, UInt64.toNat_one] at hne ⊢
  omega

theorem updateRunningAverage_self_iff {count rate : UInt64} (h : count + 1 ≠ 0)
    : updateRunningAverage rate count rate = rate ↔ count = 1
        ∨ rate.toNat * (count + 1).toNat < 2^64 := by
  unfold updateRunningAverage
  split
  . next hone => exact ⟨fun _ => Or.inl hone, fun _ => rfl⟩
  . next hne =>
    rw [or_iff_right hne, ← UInt64.toNat_inj, UInt64.toNat_div, UInt64.toNat_add, UInt64.toNat_mul,
      toNat_succ h]
    have hsucc : rate.toNat * count.toNat + rate.toNat = rate.toNat
      * (count.toNat + 1) := by rw [Nat.mul_succ]
    have hpos : 0 < count.toNat + 1 := Nat.succ_pos _
    rw [Nat.mod_add_mod, hsucc]
    constructor
    . intro heq
      by_contra hge
      -- the wrap-around makes the average smaller
      have hless : rate.toNat * (count.toNat + 1) % 2^64 < rate.toNat * (count.toNat + 1) := by
        omega
      have hlt := (Nat.div_lt_iff_lt_mul hpos).mpr hless
      omega
    . intro hlt
      rw [Nat.mod_eq_of_lt hlt, Nat.mul_div_cancel _ hpos]

theorem ExactAverage.updateRunningAverage_self (count : Nat) (val : Rat)
    : updateRunningAverage val count val = val := by
  unfold updateRunningAverage
  split
  . rfl
  . have hne : ((count + 1 : Nat) : Rat) ≠ 0 := by
      rw [Nat.cast_ne_zero]
      exact Nat.succ_ne_zero count
    rw [div_eq_iff hne, Nat.cast_succ]
    ring

theorem ExactAverage.updateRunningAverage_eq_iff {count n : Nat} (hcount : count ≠ 1)
    (hle : n < count) (v val : Rat)
    : updateRunningAverage v count val = (n * v + val) / (n + 1 : Nat) ↔ val = v := by
  have hpos : (0 : Rat) < (count + 1 : Nat) := by
    rw [Nat.cast_pos]
    exact Nat.succ_pos count
  have hpos' : (0 : Rat) < (n + 1 : Nat) := by
    rw [Nat.cast_pos]
    exact Nat.succ_pos n
  have hlt : (0 : Rat) < count - n := by
    rw [sub_pos, Nat.cast_lt]
    exact hle
  unfold updateRunningAverage
  rw [if_neg hcount, div_eq_div_iff hpos.ne' hpos'.ne', Nat.cast_succ, Nat.cast_succ]
  have hdiff : (v * count + val) * ((n : Rat) + 1) - (n * v + val) * ((count : Rat) + 1)
      = (v - val) * (count - n) := by
    ring
  rw [← sub_eq_zero, hdiff, mul_eq_zero, or_iff_left hlt.ne', sub_eq_zero]
  exact eq_comm

namespace Average

structure Level (a : Average) (frames : List (Option UInt64)) : Prop where
  count : a.count = UInt64.ofNat frames.length
  avg : a.avg = level frames
  exact : frames.foldl ExactAverage.record .new = ⟨frames.length, ((level frames).toNat : Rat)⟩
  rates : ∀ rate ∈ rates frames, rate = level frames
  divides : ∀ divisor ∈ divisors frames, divisor ≠ 0

theorem Level.nil : new.Level [] where
  count := rfl
  avg := rfl
  exact := by
    unfold ExactAverage.new level
    simp [Neighbor.rates]
  rates := by simp [Neighbor.rates]
  divides := by simp [divisors]

theorem Level.right {a : Average} {frames : List (Option UInt64)} (h : a.Level frames)
    : a.Right frames := by
  constructor
  . intro hne
    have hlength : ((Neighbor.rates frames).length : Rat) ≠ 0 := by
      rw [Nat.cast_ne_zero]
      exact mt List.length_eq_zero_iff.mp hne
    rw [h.exact, total_of_forall_eq h.rates, Nat.cast_mul, mul_div_cancel_left₀ _ hlength]
  . exact h.divides
  . intro hne
    rw [h.avg]
    exact ⟨⟨_, level_mem hne, UInt64.le_refl _⟩, _, level_mem hne, UInt64.le_refl _⟩
  . intro rate hrates hlength
    have havg : a.avg.toNat ≤ 2^40 := by
      rw [h.avg]
      by_cases hne : Neighbor.rates frames = []
      . have hzero : level frames = 0 := by
          unfold level
          rw [hne]
          rfl
        rw [hzero]
        exact Nat.zero_le _
      . exact hrates _ (List.mem_append_left _ (level_mem hne))
    have hrate := hrates rate (by simp)
    have hcount : (a.count + 1).toNat ≤ 2^20 := by
      rw [h.count, UInt64.toNat_add, UInt64.toNat_ofNat', UInt64.toNat_one]
      omega
    have hproduct := Nat.mul_le_mul havg hcount
    omega

theorem exact_append (frames : List (Option UInt64)) (frame : Option UInt64)
    : (frames ++ [frame]).foldl ExactAverage.record .new
        = (frames.foldl ExactAverage.record .new).record frame := by
  rw [List.foldl_append]
  rfl

theorem Level.record_none {a : Average} {frames : List (Option UInt64)} (h : a.Level frames)
    : (a.record none).Level (frames ++ [none]) := by
  have hrates : Neighbor.rates (frames ++ [none]) = Neighbor.rates frames := by
    rw [rates_append]
    exact List.append_nil _
  have hlevel : level (frames ++ [none]) = level frames := by
    unfold level
    rw [hrates]
  constructor
  . rw [List.length_append, List.length_singleton, UInt64.ofNat_add, ← h.count]
    rfl
  . rw [hlevel]
    exact h.avg
  . rw [exact_append, h.exact, hlevel, List.length_append]
    rfl
  . rw [hrates, hlevel]
    exact h.rates
  . rw [divisors_append]
    simpa using h.divides

theorem Level.record_some {a : Average} {frames : List (Option UInt64)} (h : a.Level frames)
    {rate : UInt64}
    (hlevel : level (frames ++ [some rate]) = rate)
    (hrates : ∀ other ∈ Neighbor.rates frames, other = rate)
    (hdivisor : a.count + 1 + 1 ≠ 0) (havg : updateRunningAverage a.avg (a.count + 1) rate = rate)
    (hexact : ExactAverage.updateRunningAverage ((level frames).toNat : Rat) (frames.length + 1)
      (rate.toNat : Rat) = rate.toNat)
    : (a.record (some rate)).Level (frames ++ [some rate]) := by
  constructor
  . rw [List.length_append, List.length_singleton, UInt64.ofNat_add, ← h.count]
    rfl
  . rw [hlevel]
    exact havg
  . rw [exact_append, h.exact, hlevel, List.length_append]
    exact congrArg (ExactAverage.mk (frames.length + 1)) hexact
  . intro other hother
    rw [rates_append, List.mem_append, Option.toList_some, List.mem_singleton] at hother
    rw [hlevel]
    obtain hother | rfl := hother
    . exact hrates other hother
    . rfl
  . intro divisor hdiv
    rw [divisors_append, List.mem_append, Option.map_some, Option.toList_some, List.mem_singleton,
      UInt64.ofNat_add, ← h.count]
      at hdiv
    obtain hdiv | rfl := hdiv
    . exact h.divides divisor hdiv
    . exact hdivisor

theorem Level.record_first {a : Average} (h : a.Level []) (rate : UInt64)
    : (a.record (some rate)).Level [some rate] := by
  have hcount : a.count + 1 = 1 := by
    rw [h.count]
    rfl
  apply h.record_some
  . rfl
  . simp [Neighbor.rates]
  . rw [hcount]
    decide
  . rw [hcount]
    exact if_pos rfl
  . exact if_pos rfl

theorem Level.record_same {a : Average} {frames : List (Option UInt64)} (h : a.Level frames)
    (hdivisor : a.count + 1 + 1 ≠ 0)
    (hfits : a.count + 1 = 1 ∨ (level frames).toNat * (a.count + 1 + 1).toNat < 2^64)
    : (a.record (some (level frames))).Level (frames ++ [some (level frames)]) := by
  apply h.record_some
  . by_cases hne : Neighbor.rates frames = []
    . unfold level
      rw [rates_append, hne]
      rfl
    . exact level_append_of_ne hne _
  . exact h.rates
  . exact hdivisor
  . rw [h.avg]
    exact (updateRunningAverage_self_iff hdivisor).mpr hfits
  . exact ExactAverage.updateRunningAverage_self _ _

theorem Level.right_record_iff {a : Average} {frames : List (Option UInt64)} (h : a.Level frames)
    (frame : Option UInt64)
    : ((a.record frame).Right (frames ++ [frame]) ↔ Steady frames frame)
        ∧ (Steady frames frame → (a.record frame).Level (frames ++ [frame])) := by
  have hkeep : Steady frames frame → (a.record frame).Level (frames ++ [frame]) := by
    intro hsteady
    cases frame with
    | none => exact h.record_none
    | some rate =>
      obtain rfl | ⟨rfl, hfits⟩ := hsteady
      . exact h.record_first rate
      . rw [UInt64.ofNat_add, ← h.count] at hfits
        exact h.record_same hfits.1 hfits.2
  refine ⟨⟨?_, fun hsteady => (hkeep hsteady).right⟩, hkeep⟩
  intro hright
  cases frame with
  | none => trivial
  | some rate =>
    by_cases hframes : frames = []
    . exact Or.inl hframes
    . right
      have hrates : Neighbor.rates (frames ++ [some rate]) = Neighbor.rates frames ++ [rate] :=
        rates_append frames (some rate)
      have hne : Neighbor.rates (frames ++ [some rate]) ≠ [] := by
        rw [hrates]
        exact List.append_ne_nil_of_right_ne_nil _ (List.cons_ne_nil rate [])
      have hsame : rate = level frames := by
        have hmean := hright.mean hne
        have htotal : total (frames ++ [some rate])
            = (Neighbor.rates frames).length * (level frames).toNat + rate.toNat := by
          rw [← total_of_forall_eq h.rates]
          unfold total
          rw [hrates, List.map_append, List.sum_append, List.map_singleton, List.sum_singleton]
        rw [exact_append, h.exact, htotal, hrates, List.length_append, List.length_singleton,
          Nat.cast_add, Nat.cast_mul] at hmean
        have hcount : frames.length + 1 ≠ 1 := by
          rw [ne_eq, Nat.add_eq_right]
          exact mt List.length_eq_zero_iff.mp hframes
        have heq := (ExactAverage.updateRunningAverage_eq_iff hcount
          (Nat.lt_succ_of_le (length_rates_le frames)) _ _).mp hmean
        exact UInt64.toNat_inj.mp (Nat.cast_injective heq)
      have hdivisor : UInt64.ofNat (frames.length + 1) + 1 ≠ 0 := by
        apply hright.divides
        rw [divisors_append]
        exact List.mem_append_right _ List.mem_cons_self
      refine ⟨hsame, hdivisor, ?_⟩
      have hall : ∀ other ∈ Neighbor.rates (frames ++ [some rate]), other = rate := by
        intro other hother
        rw [hrates, List.mem_append, List.mem_singleton] at hother
        obtain hother | hother := hother
        . rw [h.rates other hother, hsame]
        . exact hother
      obtain ⟨⟨low, hlow, hle⟩, high, hhigh, hge⟩ := hright.between hne
      rw [hall low hlow] at hle
      rw [hall high hhigh] at hge
      have havg := UInt64.le_antisymm hge hle
      apply (updateRunningAverage_self_iff hdivisor).mp
      rw [UInt64.ofNat_add, ← h.count]
      change updateRunningAverage a.avg (a.count + 1) rate = rate at havg
      rw [h.avg, ← hsame] at havg
      exact havg

theorem Level.right_step_iff {a : Average} {frames : List (Option UInt64)} (h : a.Level frames)
    (frame : Option (Option UInt64))
    : ((frame.elim a a.record).Right (frames ++ frame.toList) ↔ ∀ f, frame = some f → Steady frames f)
        ∧ ((∀ f, frame = some f → Steady frames f)
            → (frame.elim a a.record).Level (frames ++ frame.toList)) := by
  cases frame with
  | none =>
    simp only [Option.elim_none, Option.toList_none, List.append_nil, reduceCtorEq, false_implies,
      implies_true, iff_true,
      forall_const]
    exact ⟨h.right, h⟩
  | some frame =>
    simp only [Option.elim_some, Option.toList_some, Option.some.injEq, forall_eq']
    exact h.right_record_iff frame

end Average

namespace NeighborData

variable {F : Type u}

def txAverage (d : NeighborData F) : Average :=
  ⟨d.numTxFrames, d.txDataRateAvg⟩

def rxAverage (d : NeighborData F) : Average :=
  ⟨d.numRxFrames, d.rxDataRateAvg⟩

theorem average_updateRxSeqNum (d : NeighborData F) (seqNum : UInt64) (uuid : UUID)
    : (d.updateRxSeqNum seqNum uuid).txAverage = d.txAverage
        ∧ (d.updateRxSeqNum seqNum uuid).rxAverage = d.rxAverage := by
  unfold updateRxSeqNum
  split
  . split
    . exact ⟨rfl, rfl⟩
    . split
      . exact ⟨rfl, rfl⟩
      . exact ⟨rfl, rfl⟩
  . exact ⟨rfl, rfl⟩

theorem average_updateRxActivityData (d : NeighborData F) (seqNum : UInt64) (uuid : UUID)
    (rxTime : TimePoint)
    : (d.updateRxActivityData seqNum uuid rxTime).txAverage = d.txAverage
        ∧ (d.updateRxActivityData seqNum uuid rxTime).rxAverage = d.rxAverage.record none := by
  obtain ⟨htx, hrx⟩ := d.average_updateRxSeqNum seqNum uuid
  rw [← htx, ← hrx]
  exact ⟨rfl, rfl⟩

end NeighborData

namespace R2RINeighborMetric

variable {F : Type u}

def txAverage (metric : R2RINeighborMetric F) : Average :=
  ⟨metric.numTxFrames, metric.txAvgDataRatebps⟩

def rxAverage (metric : R2RINeighborMetric F) : Average :=
  ⟨metric.numRxFrames, metric.rxAvgDataRatebps⟩

end R2RINeighborMetric

namespace NeighborMetricManager

variable {F : Type u}

def Call.txFrame (nbr : NEMId) : Call F → Option (Option UInt64)
  | .updateNeighborTxMetric dst dataRatebps _ =>
    if dst = nbr ∧ dst ≠ NEM_BROADCAST_MAC_ADDRESS then some (some dataRatebps) else none
  | _ => none

def Call.rxFrame (nbr : NEMId) : Call F → Option (Option UInt64)
  | .updateNeighborRxMetric src _ _ _ channel =>
    if src = nbr then some (channel.map Channel.dataRatebps) else none
  | _ => none

def Call.endsInterval : Call F → Bool
  | .getNeighborMetrics _ _ => true
  | _ => false

def frames (frame : Call F → Option (Option UInt64)) (calls : List (Call F)) : List (Option UInt64) :=
  calls.foldl (fun fs c => if c.endsInterval then [] else fs ++ (frame c).toList) []

theorem frames_append (frame : Call F → Option (Option UInt64)) (calls : List (Call F)) (c : Call F)
    : frames frame (calls ++ [c]) = if c.endsInterval then [] else frames frame calls
        ++ (frame c).toList := by
  unfold frames
  rw [List.foldl_append]
  rfl

def sent (nbr : NEMId) (calls : List (Call F)) : List (Option UInt64) :=
  frames (Call.txFrame nbr) calls

def heard (nbr : NEMId) (calls : List (Call F)) : List (Option UInt64) :=
  frames (Call.rxFrame nbr) calls

theorem frame_eq_none {c : Call F} {nbr : NEMId} (h : ¬ (c.neighbor? = some nbr ∧ c.isReported = true))
    : c.txFrame nbr = none ∧ c.rxFrame nbr = none := by
  cases c with
  | updateNeighborTxMetric dst dataRatebps txTime =>
    refine ⟨if_neg ?_, rfl⟩
    rintro ⟨rfl, hdst⟩
    exact h ⟨rfl, decide_eq_true hdst⟩
  | updateNeighborRxMetric src seqNum uuid rxTime channel =>
    refine ⟨rfl, if_neg ?_⟩
    rintro rfl
    exact h ⟨rfl, rfl⟩
  | _ => exact ⟨rfl, rfl⟩

theorem foldl_record_toList (frames : List (Option UInt64)) (frame : Option (Option UInt64))
    : (frames ++ frame.toList).foldl Average.record .new
        =
      frame.elim (frames.foldl Average.record .new) (frames.foldl Average.record .new).record := by
  cases frame with
  | none => rw [Option.toList_none, List.append_nil, Option.elim_none]
  | some frame =>
    rw [Option.toList_some, List.foldl_append, List.foldl_cons, List.foldl_nil, Option.elim_some]

theorem right_frames_append_iff {frame : Call F → Option (Option UInt64)}
    (hreport : ∀ c : Call F, c.endsInterval = true → frame c = none) {calls : List (Call F)}
    (h : ((frames frame calls).foldl Average.record .new).Level (frames frame calls)) (c : Call F)
    : (((frames frame (calls ++ [c])).foldl Average.record .new).Right (frames frame (calls ++ [c]))
        ↔
      ∀ f, frame c = some f → Steady (frames frame calls) f)
        ∧ ((∀ f, frame c = some f → Steady (frames frame calls) f) →
        ((frames frame (calls ++ [c])).foldl Average.record .new).Level
            (frames frame (calls ++ [c]))) := by
  rw [frames_append]
  cases hends : c.endsInterval with
  | true =>
    have hnone : ∀ f, frame c = some f → Steady (frames frame calls) f := by
      intro f hframe
      rw [hreport c hends] at hframe
      cases hframe
    exact ⟨⟨fun _ => hnone, fun _ => Average.Level.nil.right⟩, fun _ => Average.Level.nil⟩
  | false =>
    rw [if_neg Bool.false_ne_true, foldl_record_toList]
    exact h.right_step_iff (frame c)

variable [FloatingPoint F]

def Reports (m : NeighborMetricManager F) (nbr : NEMId) (sent heard : List (Option UInt64)) : Prop :=
  ∀ statusTime currentTime, ∀ metric ∈ (m.getNeighborMetrics statusTime currentTime).1, metric.id = nbr →
    metric.txAverage.Right sent ∧ metric.rxAverage.Right heard

theorem average_update {c : Call F} {nbr : NEMId} (h : c.neighbor? = some nbr ∧ c.isReported = true)
    (d : NeighborData F)
    : (c.update d).txAverage = (c.txFrame nbr).elim d.txAverage d.txAverage.record
        ∧ (c.update d).rxAverage = (c.rxFrame nbr).elim d.rxAverage d.rxAverage.record := by
  obtain ⟨hnbr, hreported⟩ := h
  cases c with
  | updateNeighborTxMetric dst dataRatebps txTime =>
    have hframe : (@Call.updateNeighborTxMetric F dst dataRatebps txTime).txFrame nbr
        = some (some dataRatebps) :=
      if_pos ⟨Option.some.inj hnbr, of_decide_eq_true hreported⟩
    rw [hframe]
    exact ⟨rfl, rfl⟩
  | updateNeighborRxMetric src seqNum uuid rxTime channel =>
    have hframe : (Call.updateNeighborRxMetric src seqNum uuid rxTime channel).rxFrame nbr
        = some (channel.map Channel.dataRatebps) :=
      if_pos (Option.some.inj hnbr)
    rw [hframe]
    obtain ⟨htx, hrx⟩ := d.average_updateRxActivityData seqNum uuid rxTime
    cases channel with
    | none => exact ⟨htx, hrx⟩
    | some channel =>
      refine ⟨htx, ?_⟩
      obtain ⟨hcount, havg⟩ := Average.mk.inj hrx
      change Average.mk (d.updateRxActivityData seqNum uuid rxTime).numRxFrames (updateRunningAverage
        (d.updateRxActivityData seqNum uuid rxTime).rxDataRateAvg
          (d.updateRxActivityData seqNum uuid rxTime).numRxFrames
        channel.dataRatebps) = _
      rw [hcount, havg]
      rfl
  | _ => cases hnbr

theorem find?_r2riMetricTable_of_not_endsInterval (m : NeighborMetricManager F) {c : Call F}
    (hc : c.endsInterval = false)
    (nbr : NEMId)
    : (m.call c).r2riMetricTable.find? nbr
        =
      if c.neighbor? = some nbr ∧ c.isReported = true then
        some (c.update ((m.r2riMetricTable.find? nbr).getD (.new nbr)))
      else
        m.r2riMetricTable.find? nbr := by
  cases c with
  | updateNeighborStatus currentTime => rfl
  | getNeighborMetrics statusTime currentTime => cases hc
  | updateNeighborTxMetric dst dataRatebps txTime => exact find?_r2riMetricTable_call m rfl nbr
  | updateNeighborRxMetric src seqNum uuid rxTime channel => exact find?_r2riMetricTable_call m rfl nbr
  | setNeighborDeleteTimeMicroseconds ageMicroseconds => exact find?_r2riMetricTable_call m rfl nbr

theorem mem_foldl_reportEntry {m : NeighborMetricManager F} {currentTime : TimePoint}
    {entries : List (NEMId × NeighborData F)}
    {s : List (R2RINeighborMetric F) × SortedMap NEMId (NeighborData F)} {metric : R2RINeighborMetric F}
    : metric ∈ (entries.foldl (m.reportEntry currentTime) s).1
        ↔
      metric ∈ s.1
        ∨ ∃ entry ∈ entries,
        ¬ (currentTime - entry.2.lastRxTime).tdiv 1000 > m.neighborDeleteAgeMicroseconds
            ∧ metric = r2riMetric entry.1 entry.2 := by
  induction entries generalizing s with
  | nil => simp
  | cons entry entries ih =>
    rw [List.foldl_cons, ih, List.exists_mem_cons_iff, ← or_assoc]
    apply or_congr_left
    unfold reportEntry
    split
    . next hold => exact ⟨Or.inl, fun h => h.resolve_right (fun hnew => hnew.1 hold)⟩
    . next hnew =>
      simp [hnew]

theorem find?_foldl_reportEntry {m : NeighborMetricManager F} {currentTime : TimePoint}
    {entries : List (NEMId × NeighborData F)}
    {s : List (R2RINeighborMetric F) × SortedMap NEMId (NeighborData F)} {nbr : NEMId}
    {d : NeighborData F}
    (h : (entries.foldl (m.reportEntry currentTime) s).2.find? nbr = some d)
    : (∃ entry ∈ entries, d = entry.2.clearData) ∨ s.2.find? nbr = some d ∧ ∀ entry ∈ entries,
        entry.1 ≠ nbr := by
  induction entries generalizing s with
  | nil => exact Or.inr ⟨h, by simp⟩
  | cons entry entries ih =>
    obtain ⟨cleared, hmem, hd⟩ | ⟨hfind, hall⟩ := ih h
    . exact Or.inl ⟨cleared, List.mem_cons_of_mem _ hmem, hd⟩
    . rw [List.forall_mem_cons, List.exists_mem_cons_iff]
      unfold reportEntry at hfind
      split at hfind
      . change (s.2.erase entry.1).find? nbr = some d at hfind
        rw [SortedMap.find?_erase] at hfind
        split at hfind
        . cases hfind
        . next hne => exact Or.inr ⟨hfind, Ne.symm hne, hall⟩
      . change (s.2.set entry.1 entry.2.clearData).find? nbr = some d at hfind
        rw [SortedMap.find?_set] at hfind
        split at hfind
        . exact Or.inl (Or.inl (Option.some.inj hfind).symm)
        . next hne => exact Or.inr ⟨hfind, Ne.symm hne, hall⟩

theorem mem_getNeighborMetrics {m : NeighborMetricManager F} {statusTime currentTime : TimePoint}
    {metric : R2RINeighborMetric F}
    : metric ∈ (m.getNeighborMetrics statusTime currentTime).1
        ↔
      ∃ d, m.r2riMetricTable.find? metric.id = some d
        ∧ ¬ (currentTime - d.lastRxTime).tdiv 1000 > m.neighborDeleteAgeMicroseconds
        ∧ metric = r2riMetric metric.id d := by
  unfold getNeighborMetrics
  rw [mem_foldl_reportEntry]
  constructor
  . rintro (hnil | ⟨⟨nbr, d⟩, hmem, hnew, rfl⟩)
    . cases hnil
    . exact ⟨d, (SortedMap.find?_eq_some_iff _ _ _).mpr hmem, hnew, rfl⟩
  . rintro ⟨d, hfind, hnew, heq⟩
    exact Or.inr ⟨(metric.id, d), (SortedMap.find?_eq_some_iff _ _ _).mp hfind, hnew, heq⟩

theorem reports_iff {m : NeighborMetricManager F} {nbr : NEMId} {sent heard : List (Option UInt64)}
    : m.Reports nbr sent heard
        ↔
      ∀ d, m.r2riMetricTable.find? nbr = some d → d.txAverage.Right sent ∧ d.rxAverage.Right heard := by
  constructor
  . intro h d hfind
    have hnew : ¬ ((d.lastRxTime + m.neighborDeleteAgeMicroseconds * 1000) - d.lastRxTime).tdiv 1000
        > m.neighborDeleteAgeMicroseconds := by
      rw [add_sub_cancel_left, Int.mul_tdiv_cancel _ (by decide)]
      exact Int.lt_irrefl _
    exact h 0 _ (r2riMetric nbr d) (mem_getNeighborMetrics.mpr ⟨d, hfind, hnew, rfl⟩) rfl
  . rintro h statusTime currentTime metric hmem rfl
    obtain ⟨d, hfind, -, heq⟩ := mem_getNeighborMetrics.mp hmem
    rw [heq]
    exact h d hfind

theorem find?_r2riMetricTable_getNeighborMetrics {m : NeighborMetricManager F}
    {statusTime currentTime : TimePoint} {nbr : NEMId}
    {d : NeighborData F}
    (h : (m.getNeighborMetrics statusTime currentTime).2.r2riMetricTable.find? nbr = some d)
    : ∃ d', d = NeighborData.clearData d' := by
  obtain ⟨entry, -, hd⟩ | ⟨hfind, hall⟩ := find?_foldl_reportEntry h
  . exact ⟨entry.2, hd⟩
  . exact absurd rfl (hall (nbr, d) ((SortedMap.find?_eq_some_iff _ _ _).mp hfind))

structure Replays (m : NeighborMetricManager F) (nbr : NEMId) (sent heard : List (Option UInt64))
    : Prop where
  absent : m.r2riMetricTable.find? nbr = none → sent = [] ∧ heard = []
  averages : ∀ d, m.r2riMetricTable.find? nbr = some d →
    d.txAverage = sent.foldl Average.record .new ∧ d.rxAverage = heard.foldl Average.record .new

theorem Replays.getD {m : NeighborMetricManager F} {nbr : NEMId} {sent heard : List (Option UInt64)}
    (h : m.Replays nbr sent heard)
    : ((m.r2riMetricTable.find? nbr).getD (.new nbr)).txAverage = sent.foldl Average.record .new
        ∧ ((m.r2riMetricTable.find? nbr).getD (.new nbr)).rxAverage
            = heard.foldl Average.record .new := by
  cases hfind : m.r2riMetricTable.find? nbr with
  | none =>
    obtain ⟨rfl, rfl⟩ := h.absent hfind
    exact ⟨rfl, rfl⟩
  | some d => exact h.averages d hfind

theorem Replays.call {m : NeighborMetricManager F} {nbr : NEMId} {sent heard : List (Option UInt64)}
    (h : m.Replays nbr sent heard) {c : Call F} (hc : c.endsInterval = false)
    : (m.call c).Replays nbr (sent ++ (c.txFrame nbr).toList) (heard ++ (c.rxFrame nbr).toList) := by
  have hfind := find?_r2riMetricTable_of_not_endsInterval m hc nbr
  by_cases hnbr : c.neighbor? = some nbr ∧ c.isReported = true
  . rw [if_pos hnbr] at hfind
    obtain ⟨htx, hrx⟩ := average_update hnbr ((m.r2riMetricTable.find? nbr).getD (.new nbr))
    rw [h.getD.1] at htx
    rw [h.getD.2] at hrx
    constructor
    . rw [hfind]
      intro hnone
      cases hnone
    . rw [hfind]
      rintro d ⟨⟩
      rw [foldl_record_toList, foldl_record_toList]
      exact ⟨htx, hrx⟩
  . rw [if_neg hnbr] at hfind
    obtain ⟨htx, hrx⟩ := frame_eq_none hnbr
    rw [htx, hrx, Option.toList_none, List.append_nil, List.append_nil]
    constructor
    . rw [hfind]
      exact h.absent
    . rw [hfind]
      exact h.averages

theorem replays_foldl (age : Microseconds) (nbr : NEMId) (calls : List (Call F))
    : (calls.foldl call (new age)).Replays nbr (sent nbr calls) (heard nbr calls) := by
  induction calls using List.reverseRecOn with
  | nil =>
    constructor
    . exact fun _ => ⟨rfl, rfl⟩
    . intro d hfind
      cases hfind
  | append_singleton calls c ih =>
    unfold sent heard at ih ⊢
    rw [List.foldl_append, frames_append, frames_append]
    cases hends : c.endsInterval with
    | false => exact ih.call hends
    | true =>
      cases c with
      | getNeighborMetrics statusTime currentTime =>
        refine ⟨fun _ => ⟨rfl, rfl⟩, ?_⟩
        intro d hfind
        obtain ⟨d', rfl⟩ := find?_r2riMetricTable_getNeighborMetrics hfind
        exact ⟨rfl, rfl⟩
      | _ => cases hends

theorem reports_foldl_iff (age : Microseconds) (nbr : NEMId) (calls : List (Call F))
    : (calls.foldl call (new age)).Reports nbr (sent nbr calls) (heard nbr calls)
        ↔
      ((sent nbr calls).foldl Average.record .new).Right (sent nbr calls)
        ∧ ((heard nbr calls).foldl Average.record .new).Right (heard nbr calls) := by
  have hreplays := replays_foldl age nbr calls
  rw [reports_iff]
  cases hfind : (calls.foldl call (new age)).r2riMetricTable.find? nbr with
  | none =>
    obtain ⟨hsent, hheard⟩ := hreplays.absent hfind
    rw [hsent, hheard]
    exact ⟨fun _ => ⟨Average.Level.nil.right, Average.Level.nil.right⟩, fun _ d hd => by cases hd⟩
  | some d =>
    obtain ⟨htx, hrx⟩ := hreplays.averages d hfind
    rw [← htx, ← hrx]
    simp only [Option.some.injEq, forall_eq']

def SteadyCall (nbr : NEMId) (calls : List (Call F)) (c : Call F) : Prop :=
  (∀ frame, c.txFrame nbr = some frame → Steady (sent nbr calls) frame)
    ∧ ∀ frame, c.rxFrame nbr = some frame → Steady (heard nbr calls) frame

theorem dataRate_averages_iff (age : Microseconds) (nbr : NEMId) (calls : List (Call F))
    : (∀ fed later, calls = fed ++ later
        → (fed.foldl call (new age)).Reports nbr (sent nbr fed) (heard nbr fed))
        ↔
      Guarded (fun fed c => some (fed ++ [c])) (SteadyCall nbr) [] calls := by
  rw [guarded_fed_iff]
  simp only [List.nil_append, reports_foldl_iff]
  apply @forall_fed_inv_iff _ _
    (fun fed => ((sent nbr fed).foldl Average.record .new).Level (sent nbr fed)
    ∧ ((heard nbr fed).foldl Average.record .new).Level (heard nbr fed))
  . exact ⟨Average.Level.nil.right, Average.Level.nil.right⟩
  . exact ⟨Average.Level.nil, Average.Level.nil⟩
  . rintro fed c later - ⟨hsent, hheard⟩ -
    have hreport : ∀ c : Call F, c.endsInterval = true → c.txFrame nbr = none ∧ c.rxFrame nbr = none := by
      intro c hends
      cases c with
      | getNeighborMetrics statusTime currentTime => exact ⟨rfl, rfl⟩
      | _ => cases hends
    obtain ⟨htx, hkeepTx⟩ := right_frames_append_iff (fun c hends => (hreport c hends).1) hsent c
    obtain ⟨hrx, hkeepRx⟩ := right_frames_append_iff (fun c hends => (hreport c hends).2) hheard c
    exact ⟨and_congr htx hrx, fun hsteady => ⟨hkeepTx hsteady.1, hkeepRx hsteady.2⟩⟩

open scoped FloatingPoint

theorem not_dataRate_averages
    : ¬ ∀ (age : Microseconds) (nbr : NEMId) (calls : List (Call Int)),
        (calls.foldl call (new age)).Reports nbr (sent nbr calls) (heard nbr calls) := by
  intro hall
  have hright := (reports_iff.mp
    (hall 0 2 [.updateNeighborTxMetric 2 3 0, .updateNeighborTxMetric 2 9 0]) _ rfl).1
  have hmean : ((ExactAverage.new.record (some 3)).record (some 9)).avg
      = ((12 : Nat) : Rat) / ((2 : Nat) : Rat) :=
    hright.mean (by decide)
  have hexact : (ExactAverage.new.record (some 3)).record (some 9) = ⟨2, 5⟩ := by
    have hthree : (3 : UInt64).toNat = 3 := rfl
    have hnine : (9 : UInt64).toNat = 9 := rfl
    simp only [ExactAverage.new, ExactAverage.record, ExactAverage.updateRunningAverage, hthree, hnine]
    norm_num
  rw [hexact] at hmean
  norm_num at hmean

end NeighborMetricManager
end Neighbor
end Emane

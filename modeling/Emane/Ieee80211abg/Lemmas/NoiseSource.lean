import Mathlib.Algebra.BigOperators.Ring.List
import Mathlib.Algebra.Order.BigOperators.Group.List
import Mathlib.Algebra.Order.Field.Rat
import Mathlib.Algebra.Order.Ring.Int
import Mathlib.Algebra.Ring.Int.Defs
import Emane.Lib.Ranges
import Emane.Ieee80211abg.Lemmas.NeighborManager

/-!
This module contains which neighbor is taken for a source of noise.
-/

namespace Emane
namespace Ieee80211abg

inductive Kind where
  | common
  | hidden
  deriving DecidableEq

def Kind.has (kind : Kind) (nbrs : NbrSet) (nbr : NEMId) : Bool :=
  match kind with
  | .common => nbrs.contains nbr
  | .hidden => !nbrs.contains nbr

def NeighborEntry.nbrs {F : Type u} (n : NeighborEntry F) : Kind → NbrSet
  | .common => n.commonNbrSet
  | .hidden => n.hiddenNbrSet

theorem foldl_add_eq_sum {α : Type u} {M : Type v} [AddMonoid M] (f : α → M) (l : List α) (start : M)
    : l.foldl (fun result a => result + f a) start = start + (l.map f).sum := by
  induction l generalizing start with
  | nil => exact (add_zero start).symm
  | cons a l ih => rw [List.foldl_cons, ih, List.map_cons, List.sum_cons, add_assoc]

theorem NeighborEntry.numberOfPackets_pos {F : Type} [FloatingPoint F] {n : NeighborEntry F}
    {msgTypeMask : UInt8}
    (h : 0 < n.getUtilizationMicroseconds msgTypeMask)
    : 0 < n.getNumberOfPackets msgTypeMask := by
  unfold getUtilizationMicroseconds at h
  unfold getNumberOfPackets
  rw [foldl_add_eq_sum, zero_add] at h ⊢
  apply Nat.pos_of_ne_zero
  intro hzero
  have hnone : ∀ u ∈ n.masked msgTypeMask, u.totalUtilizationMicroseconds = 0 := by
    intro u hu
    apply u.counted
    exact List.sum_eq_zero_iff.mp hzero _ (List.mem_map_of_mem hu)
  rw [List.map_congr_left hnone, List.map_const', List.sum_replicate, nsmul_zero] at h
  exact lt_irrefl _ h

namespace Overlap

variable {F : Type}

def nbrs (o : Overlap F) : Kind → NbrSet
  | .common => o.commonNbrs
  | .hidden => o.hiddenNbrs

def powers (o : Overlap F) : Kind → RxPowerMap F
  | .common => o.commonNbrAvgRxPowerMwMap
  | .hidden => o.hiddenNbrAvgRxPowerMwMap

theorem exists_mem_iff {l : List (NEMId × NeighborEntry F)} {nbr : NEMId} {p : NEMId → Prop}
    : (∃ e ∈ l, nbr = e.1 ∧ p e.1) ↔ nbr ∈ l.map Prod.fst ∧ p nbr := by
  rw [List.mem_map]
  constructor
  . rintro ⟨e, he, rfl, hp⟩
    exact ⟨⟨e, he, rfl⟩, hp⟩
  . rintro ⟨⟨e, he, rfl⟩, hp⟩
    exact ⟨e, he, rfl, hp⟩

variable [FloatingPoint F] {avgUtilization : Microseconds} {nbrOneHopNbrSet : NbrSet}

theorem contains_visit (o : Overlap F) (e : NEMId × NeighborEntry F) (kind : Kind) (nbr : NEMId)
    : (((visit avgUtilization nbrOneHopNbrSet o e).nbrs kind).contains nbr = true
          ↔
        (nbr = e.1 ∧ kind.has nbrOneHopNbrSet e.1 = true) ∨ (o.nbrs kind).contains nbr = true)
      ∧ (((visit avgUtilization nbrOneHopNbrSet o e).powers kind).contains nbr = true
          ↔
        (nbr = e.1 ∧ kind.has nbrOneHopNbrSet e.1 = true) ∨ (o.powers kind).contains nbr = true) := by
  unfold visit
  cases h : nbrOneHopNbrSet.contains e.1 with
  | true =>
    cases kind with
    | common => simp [Kind.has, nbrs, powers, h, SortedMap.contains_insert, SortedMap.contains_set]
    | hidden => simp [Kind.has, nbrs, powers, h]
  | false =>
    cases kind with
    | common => simp [Kind.has, nbrs, powers, h]
    | hidden => simp [Kind.has, nbrs, powers, h, SortedMap.contains_insert, SortedMap.contains_set]

theorem contains_nbrs_foldl (l : List (NEMId × NeighborEntry F)) (o : Overlap F) (kind : Kind)
    (nbr : NEMId)
    : ((l.foldl (visit avgUtilization nbrOneHopNbrSet) o).nbrs kind).contains nbr = true
        ↔
      (nbr ∈ l.map Prod.fst ∧ kind.has nbrOneHopNbrSet nbr = true)
          ∨ (o.nbrs kind).contains nbr = true := by
  have hfold := @foldl_iff _ _ (visit avgUtilization nbrOneHopNbrSet)
    (fun o : Overlap F => (o.nbrs kind).contains nbr = true)
    (fun e => nbr = e.1 ∧ kind.has nbrOneHopNbrSet e.1 = true)
      (fun o e => (contains_visit o e kind nbr).1) l o
  rw [hfold, @exists_mem_iff _ l nbr (fun nbr => kind.has nbrOneHopNbrSet nbr = true)]

theorem contains_powers_foldl (l : List (NEMId × NeighborEntry F)) (o : Overlap F) (kind : Kind)
    (nbr : NEMId)
    : ((l.foldl (visit avgUtilization nbrOneHopNbrSet) o).powers kind).contains nbr = true
        ↔
      (nbr ∈ l.map Prod.fst ∧ kind.has nbrOneHopNbrSet nbr = true)
          ∨ (o.powers kind).contains nbr = true := by
  have hfold := @foldl_iff _ _ (visit avgUtilization nbrOneHopNbrSet)
    (fun o : Overlap F => (o.powers kind).contains nbr = true)
    (fun e => nbr = e.1 ∧ kind.has nbrOneHopNbrSet e.1 = true)
      (fun o e => (contains_visit o e kind nbr).2) l o
  rw [hfold, @exists_mem_iff _ l nbr (fun nbr => kind.has nbrOneHopNbrSet nbr = true)]

theorem contains_start (common hidden : RxPowerMap F) (kind : Kind) (nbr : NEMId)
    : ((start common hidden).nbrs kind).contains nbr = false := by
  cases kind with
  | common => rfl
  | hidden => rfl

end Overlap

namespace NeighborManager

variable {F : Type} {m m' : NeighborManager F}

def powers (m : NeighborManager F) : Kind → RxPowerMap F
  | .common => m.commonNbrAvgRxPowerMwMap
  | .hidden => m.hiddenNbrAvgRxPowerMwMap

def probabilities (m : NeighborManager F) : Kind → ProbabilityPairMapMap F
  | .common => m.commonProbabilityMapMap
  | .hidden => m.hiddenProbabilityMapMap

theorem SameNeighbors.contains_oneHop (h : SameNeighbors m m') (nbr : NEMId)
    : m'.oneHopNbrMap.contains nbr = m.oneHopNbrMap.contains nbr := by
  rw [contains_eq_isSome_heard, contains_eq_isSome_heard, h.heard]

def Sorted (m : NeighborManager F) (n : NeighborEntry F) : Prop :=
  ∀ kind nbr,
    ((n.nbrs kind).contains nbr = true ↔ m.oneHopNbrMap.contains nbr = true
      ∧ kind.has n.oneHopNbrSet nbr = true)
      ∧ ((n.nbrs kind).contains nbr = true → (m.powers kind).contains nbr = true)

theorem Sorted.of_eq {n : NeighborEntry F} (honeHop : m'.oneHopNbrMap = m.oneHopNbrMap)
    (hpowers : ∀ kind, m'.powers kind = m.powers kind)
    (h : m.Sorted n)
    : m'.Sorted n := by
  intro kind nbr
  rw [honeHop, hpowers]
  exact h kind nbr

def active (entries : List (NEMId × NeighborEntry F)) : List (NEMId × Microseconds) :=
  (entries.map (fun e => (e.1, e.2.getUtilizationMicroseconds MSG_TYPE_MASK_ALL_DATA))).filter
    (fun e => 0 < e.2)

theorem mem_active {entries : List (NEMId × NeighborEntry F)} {e : NEMId × Microseconds}
    (h : e ∈ active entries)
    : 0 < e.2 ∧ ∃ n, (e.1, n) ∈ entries ∧ n.getUtilizationMicroseconds MSG_TYPE_MASK_ALL_DATA = e.2 := by
  unfold active at h
  rw [List.mem_filter, List.mem_map, decide_eq_true_eq] at h
  obtain ⟨⟨⟨nbr, n⟩, hn, rfl⟩, hpos⟩ := h
  exact ⟨hpos, n, hn, rfl⟩

def others (m : NeighborManager F) (src : NEMId) : NbrUtilizationMap :=
  (m.counters.oneHopUtilizationMap.erase m.id).erase src

def total (l : List (NEMId × Microseconds)) : Microseconds :=
  (l.map (fun e => e.2)).sum

theorem total_filter_add (p : NEMId × Microseconds → Prop) [DecidablePred p]
    (l : List (NEMId × Microseconds))
    : total (l.filter p) + total (l.filter (fun e => ¬ p e)) = total l := by
  exact List.sum_map_filter_add_sum_map_filter_not p (fun e => e.2) l

def selected (m : NeighborManager F) (src : NEMId) (nbrs : NbrSet) : List (NEMId × Microseconds) :=
  m.counters.oneHopUtilizationMap.toList.filter
    (fun e => e.1 ≠ m.id ∧ e.1 ≠ src ∧ nbrs.contains e.1 = true)

theorem toList_others (m : NeighborManager F) (src : NEMId)
    : (m.others src).toList = m.counters.oneHopUtilizationMap.toList.filter
        (fun e => e.1 ≠ m.id ∧ e.1 ≠ src) := by
  unfold others
  rw [SortedMap.toList_erase, SortedMap.toList_erase, List.filter_filter]
  apply List.filter_congr
  intro e _
  rw [Bool.and_comm, Bool.eq_iff_iff]
  simp

theorem filter_others (m : NeighborManager F) (src : NEMId) (nbrs : NbrSet)
    : (m.others src).toList.filter (fun e => nbrs.contains e.1) = m.selected src nbrs := by
  rw [toList_others, List.filter_filter]
  apply List.filter_congr
  intro e _
  rw [Bool.and_comm, Bool.eq_iff_iff]
  simp [and_assoc]

structure Counted (id : NEMId) (entries : List (NEMId × NeighborEntry F)) (c : Counters F) : Prop where
  map : c.oneHopUtilizationMap.toList = active entries
  total : c.totalOneHopUtilizationMicroseconds = total (active entries)
  thisNEM : c.utilizationThisNEMMicroseconds = NeighborManager.total
    ((active entries).filter (fun e => e.1 = id))
  packets : ∀ e ∈ active entries, e.1 ≠ id → 0 < c.totalOneHopNumPackets

theorem total_others {entries : List (NEMId × NeighborEntry F)}
    (h : Counted m.id entries m.counters) {src : NEMId}
    (hsrc : src ≠ m.id) {u : Microseconds} (hu : m.counters.oneHopUtilizationMap.find? src = some u)
    : m.counters.totalOneHopUtilizationMicroseconds - m.counters.utilizationThisNEMMicroseconds - u
        = total (m.others src).toList := by
  have hid := total_filter_add (fun e => e.1 = m.id) m.counters.oneHopUtilizationMap.toList
  have hothers := total_filter_add (fun e => e.1 = src)
    (m.counters.oneHopUtilizationMap.toList.filter (fun e => ¬ e.1 = m.id))
  have hone : (m.counters.oneHopUtilizationMap.toList.filter (fun e => ¬ e.1 = m.id)).filter
      (fun e => e.1 = src) = [(src, u)] := by
    rw [List.filter_filter, ← SortedMap.filter_key_of_some hu]
    apply List.filter_congr
    intro e _
    rw [Bool.eq_iff_iff]
    simp only [Bool.and_eq_true, decide_eq_true_eq]
    exact and_iff_left_of_imp (fun heq : e.1 = src => heq ▸ hsrc)
  have htwo : (m.counters.oneHopUtilizationMap.toList.filter (fun e => ¬ e.1 = m.id)).filter
    (fun e => ¬ e.1 = src)
      = (m.others src).toList := by
    rw [toList_others, List.filter_filter]
    apply List.filter_congr
    intro e _
    rw [Bool.and_comm, Bool.eq_iff_iff]
    simp
  rw [hone, htwo] at hothers
  have hsrcTotal : total [(src, u)] = u := add_zero u
  rw [h.total, h.thisNEM, ← h.map, ← hid, ← hothers, hsrcTotal]
  unfold Microseconds
  omega

structure Estimated (m : NeighborManager F) (done : List (NEMId × NeighborEntry F))
    (m' : NeighborManager F) : Prop where
  same : SameNeighbors m m'
  map : m'.counters.oneHopUtilizationMap = m.counters.oneHopUtilizationMap
  total : m'.counters.totalOneHopUtilizationMicroseconds = m.counters.totalOneHopUtilizationMicroseconds
  thisNEM : m'.counters.utilizationThisNEMMicroseconds = m.counters.utilizationThisNEMMicroseconds
  packets : m'.counters.totalOneHopNumPackets = m.counters.totalOneHopNumPackets
  sorted : ∀ e ∈ done, e.1 ≠ m.id → 0 < e.2.getNumberOfPackets MSG_TYPE_MASK_ALL_DATA →
    ∃ n, m'.oneHopNbrMap.find? e.1 = some n ∧ m'.Sorted n

theorem Estimated.counted {done entries : List (NEMId × NeighborEntry F)} (h : Estimated m done m')
    (hcounted : Counted m.id entries m.counters)
    : Counted m'.id entries m'.counters := by
  rw [h.same.id]
  exact ⟨h.map ▸ hcounted.map, h.total ▸ hcounted.total, h.thisNEM ▸ hcounted.thisNEM,
    h.packets ▸ hcounted.packets⟩

section

variable [FloatingPoint F]

theorem Estimated.step {done : List (NEMId × NeighborEntry F)} {s : F × NeighborManager F}
    (h : Estimated m done s.2)
    {e : NEMId × NeighborEntry F} (he : e ∈ m.oneHopNbrMap.toList) (hnew : e.1 ∉ done.map Prod.fst)
    (deltaT : Microseconds)
    : Estimated m (done ++ [e]) (estimateNeighbor deltaT s e).2 := by
  have hsame := h.same.estimateNeighbor deltaT he
  have hsorted : ∀ m' : NeighborManager F,
    (∀ e ∈ done, ∀ n, s.2.oneHopNbrMap.find? e.1 = some n → s.2.Sorted n →
      m'.oneHopNbrMap.find? e.1 = some n ∧ m'.Sorted n) →
      (e.1 ≠ m.id → 0 < e.2.getNumberOfPackets MSG_TYPE_MASK_ALL_DATA
        → ∃ n, m'.oneHopNbrMap.find? e.1 = some n ∧ m'.Sorted n) →
      ∀ e' ∈ done ++ [e], e'.1 ≠ m.id → 0 < e'.2.getNumberOfPackets MSG_TYPE_MASK_ALL_DATA →
        ∃ n, m'.oneHopNbrMap.find? e'.1 = some n ∧ m'.Sorted n := by
    intro m' hdone hlast e' he' hid hpackets
    cases List.mem_append.mp he' with
    | inl hmem =>
      obtain ⟨n, hn, hsorted⟩ := h.sorted e' hmem hid hpackets
      exact ⟨n, hdone e' hmem n hn hsorted⟩
    | inr heq =>
      rw [List.mem_singleton] at heq
      subst heq
      exact hlast hid hpackets
  revert hsame
  unfold estimateNeighbor
  simp only
  split
  . next hpackets =>
    split
    . next hid =>
      intro hsame
      have hkeys := fun nbr => (hsame.contains_oneHop nbr).trans (h.same.contains_oneHop nbr).symm
      have hgrows : ∀ kind nbr, (s.2.powers kind).contains nbr = true →
          ((s.2.oneHopNbrMap.toList.foldl
            (Overlap.visit s.2.counters.averageUtilizationPerOneHopNbrMicroseconds e.2.oneHopNbrSet)
            (.start s.2.commonNbrAvgRxPowerMwMap s.2.hiddenNbrAvgRxPowerMwMap)).powers
                kind).contains nbr = true := by
        intro kind nbr hold
        rw [Overlap.contains_powers_foldl]
        cases kind with
        | common => exact Or.inr hold
        | hidden => exact Or.inr hold
      refine ⟨hsame, h.map, h.total, h.thisNEM, h.packets, hsorted _ ?_ ?_⟩
      . intro e' he' n hn hs
        have hne : e'.1 ≠ e.1 := fun heq => hnew (heq ▸ List.mem_map_of_mem he')
        refine ⟨by rw [SortedMap.find?_set, if_neg hne]; exact hn, ?_⟩
        intro kind nbr
        rw [hkeys]
        refine ⟨(hs kind nbr).1, fun hnbr => ?_⟩
        have hold := hgrows kind nbr ((hs kind nbr).2 hnbr)
        cases kind with
        | common => exact hold
        | hidden => exact hold
      . intro _ _
        refine ⟨_, by rw [SortedMap.find?_set, if_pos rfl], ?_⟩
        intro kind nbr
        have hnbrs := @Overlap.contains_nbrs_foldl F _
          s.2.counters.averageUtilizationPerOneHopNbrMicroseconds e.2.oneHopNbrSet
          s.2.oneHopNbrMap.toList
            (.start s.2.commonNbrAvgRxPowerMwMap s.2.hiddenNbrAvgRxPowerMwMap) kind nbr
        have hpowers := @Overlap.contains_powers_foldl F _
          s.2.counters.averageUtilizationPerOneHopNbrMicroseconds e.2.oneHopNbrSet
          s.2.oneHopNbrMap.toList
            (.start s.2.commonNbrAvgRxPowerMwMap s.2.hiddenNbrAvgRxPowerMwMap) kind nbr
        rw [Overlap.contains_start, SortedMap.mem_keys_iff, Bool.false_eq_true, or_false] at hnbrs
        rw [SortedMap.mem_keys_iff] at hpowers
        rw [hkeys]
        cases kind with
        | common => exact ⟨hnbrs, fun hnbr => hpowers.mpr (Or.inl (hnbrs.mp hnbr))⟩
        | hidden => exact ⟨hnbrs, fun hnbr => hpowers.mpr (Or.inl (hnbrs.mp hnbr))⟩
    . next hid =>
      intro hsame
      refine ⟨hsame, h.map, h.total, h.thisNEM, h.packets, hsorted _ (fun _ _ n hn hs => ⟨hn, hs⟩) ?_⟩
      rw [h.same.id, ne_eq, not_not] at hid
      exact fun hne _ => absurd hid hne
  . next hpackets =>
    intro hsame
    refine ⟨hsame, h.map, h.total, h.thisNEM, h.packets, hsorted _ (fun _ _ n hn hs => ⟨hn, hs⟩) ?_⟩
    exact fun _ hpos => absurd hpos hpackets

theorem Estimated.foldl (h : Estimated m [] m') (deltaT : Microseconds) (b : F)
    (done : List (NEMId × NeighborEntry F))
    (hmem : ∀ e ∈ done, e ∈ m.oneHopNbrMap.toList) (hnodup : (done.map Prod.fst).Nodup)
    : Estimated m done (done.foldl (estimateNeighbor deltaT) (b, m')).2 := by
  induction done using List.reverseRecOn with
  | nil => exact h
  | append_singleton done e ih =>
    rw [List.map_append, List.nodup_append] at hnodup
    obtain ⟨hdone, -, hnew⟩ := hnodup
    rw [List.foldl_append]
    refine (ih (fun e he => hmem e (by simp [he])) hdone).step (hmem e (by simp)) ?_ deltaT
    exact fun hold => hnew e.1 hold e.1 (by simp) rfl

structure Ranged (m : NeighborManager F) (done : List (NEMId × Microseconds))
    (m' : NeighborManager F) : Prop where
  id : m'.id = m.id
  counters : m'.counters = m.counters
  oneHop : m'.oneHopNbrMap = m.oneHopNbrMap
  powers : m'.powers = m.powers
  ranges : ∀ e ∈ done, e.1 ≠ m.id →
    0 < m.counters.totalOneHopUtilizationMicroseconds - m.counters.utilizationThisNEMMicroseconds - e.2 →
    ∀ n, m.oneHopNbrMap.find? e.1 = some n
      → ∀ kind, (m'.probabilities kind).find? e.1 = some (setProbability (m.others e.1)
      (m.counters.totalOneHopUtilizationMicroseconds - m.counters.utilizationThisNEMMicroseconds
        - e.2) (n.nbrs kind))

theorem Ranged.step {done : List (NEMId × Microseconds)} (h : Ranged m done m') {e : NEMId × Microseconds}
    (hnew : e.1 ∉ done.map Prod.fst)
    : Ranged m (done ++ [e]) (setSourceProbability m' e) := by
  have hranges : ∀ m'' : NeighborManager F,
      (∀ e' ∈ done, ∀ kind, (m''.probabilities kind).find? e'.1 = (m'.probabilities kind).find? e'.1) →
      (e.1 ≠ m.id → 0 < m.counters.totalOneHopUtilizationMicroseconds
        - m.counters.utilizationThisNEMMicroseconds - e.2 →
        ∀ n, m.oneHopNbrMap.find? e.1 = some n
          → ∀ kind, (m''.probabilities kind).find? e.1 = some (setProbability (m.others e.1)
          (m.counters.totalOneHopUtilizationMicroseconds - m.counters.utilizationThisNEMMicroseconds
            - e.2) (n.nbrs kind))) →
      ∀ e' ∈ done ++ [e], e'.1 ≠ m.id →
        0 < m.counters.totalOneHopUtilizationMicroseconds
          - m.counters.utilizationThisNEMMicroseconds - e'.2 →
        ∀ n, m.oneHopNbrMap.find? e'.1 = some n
          → ∀ kind, (m''.probabilities kind).find? e'.1 = some (setProbability (m.others e'.1)
          (m.counters.totalOneHopUtilizationMicroseconds - m.counters.utilizationThisNEMMicroseconds
              - e'.2) (n.nbrs kind)) := by
    intro m'' hdone hlast e' he' hid hleft n hn kind
    cases List.mem_append.mp he' with
    | inl hmem =>
      rw [hdone e' hmem]
      exact h.ranges e' hmem hid hleft n hn kind
    | inr heq =>
      rw [List.mem_singleton] at heq
      subst heq
      exact hlast hid hleft n hn kind
  unfold setSourceProbability
  rw [h.id, h.counters, h.oneHop]
  simp only
  split
  . next hid =>
    split
    . next hleft =>
      split
      . next n hn =>
        refine ⟨rfl, rfl, rfl, h.powers, hranges _ ?_ ?_⟩
        . intro e' he' kind
          have hne : e'.1 ≠ e.1 := fun heq => hnew (heq ▸ List.mem_map_of_mem he')
          cases kind with
          | common => exact (SortedMap.find?_set _ _ _ _).trans (if_neg hne)
          | hidden => exact (SortedMap.find?_set _ _ _ _).trans (if_neg hne)
        . intro _ _ n' hn' kind
          obtain rfl := Option.some.inj (hn.symm.trans hn')
          cases kind with
          | common => exact (SortedMap.find?_set _ _ _ _).trans (if_pos rfl)
          | hidden => exact (SortedMap.find?_set _ _ _ _).trans (if_pos rfl)
      . next hnone =>
        refine ⟨h.id, h.counters, h.oneHop, h.powers, hranges _ (fun _ _ _ => rfl) ?_⟩
        intro _ _ n hn
        rw [hnone] at hn
        cases hn
    . next hleft => exact ⟨h.id, h.counters, h.oneHop, h.powers, hranges _ (fun _ _ _ => rfl)
        (fun _ hpos => absurd hpos hleft)⟩
  . next hid => exact ⟨h.id, h.counters, h.oneHop, h.powers, hranges _ (fun _ _ _ => rfl)
      (fun hne => absurd hne hid)⟩

theorem ranged_foldl (m : NeighborManager F) (done : List (NEMId × Microseconds))
    (hnodup : (done.map Prod.fst).Nodup)
    : Ranged m done (done.foldl setSourceProbability m) := by
  induction done using List.reverseRecOn with
  | nil => exact ⟨rfl, rfl, rfl, rfl, fun _ he => by cases he⟩
  | append_singleton done e ih =>
    rw [List.map_append, List.nodup_append] at hnodup
    obtain ⟨hdone, -, hnew⟩ := hnodup
    rw [List.foldl_append]
    exact (ih hdone).step (fun hold => hnew e.1 hold e.1 (by simp) rfl)

theorem ranged_setCommonAndHiddenProbability (m : NeighborManager F)
    : Ranged m m.counters.oneHopUtilizationMap.toList m.setCommonAndHiddenProbability := by
  exact ranged_foldl m m.counters.oneHopUtilizationMap.toList m.counters.oneHopUtilizationMap.nodup_keys

theorem foldl_select (nbrSet : NbrSet) (l : List (NEMId × Microseconds))
    (hl : l.Pairwise (fun a b => a.1 < b.1))
    (utilization : Microseconds)
    : (l.foldl (select nbrSet) (.empty, utilization)).1.toList = l.filter (fun e => nbrSet.contains e.1)
        ∧ (l.foldl (select nbrSet) (.empty, utilization)).2
            = utilization - total (l.filter (fun e => !nbrSet.contains e.1)) := by
  induction l using List.reverseRecOn with
  | nil => exact ⟨rfl, (sub_zero utilization).symm⟩
  | append_singleton l e ih =>
    rw [List.pairwise_append] at hl
    obtain ⟨hl, -, hlast⟩ := hl
    obtain ⟨hmap, hleft⟩ := ih hl
    rw [List.foldl_append, List.filter_append, List.filter_append, List.foldl_cons, List.foldl_nil]
    generalize l.foldl (select nbrSet) (.empty, utilization) = s at hmap hleft
    unfold select
    cases hmem : nbrSet.contains e.1 with
    | true =>
      have hfirst : ∀ e' ∈ s.1.toList, e'.1 < e.1 := by
        intro e' he'
        rw [hmap] at he'
        exact hlast e' (List.mem_of_mem_filter he') e (by simp)
      refine ⟨?_, ?_⟩
      . rw [if_pos rfl, SortedMap.toList_set_of_forall_lt s.1 e.1 e.2 hfirst, hmap]
        simp [hmem]
      . rw [if_pos rfl, hleft]
        simp [hmem]
    | false =>
      refine ⟨?_, ?_⟩
      . simp [hmem, hmap]
      . rw [if_neg Bool.false_ne_true, hleft]
        simp [hmem, total, sub_sub]

theorem toList_ranges (utilization : Microseconds) (l : List (NEMId × Microseconds))
    (hl : l.Pairwise (fun a b => a.1 < b.1)) (p1 : F)
    (map : ProbabilityPairMap F) (hmap : ∀ e ∈ map.toList, ∀ e' ∈ l, e.1 < e'.1)
    : (ranges utilization l p1 map).toList = map.toList ++ Ranges.cut 1
        (fun d => getRatio d utilization) p1 l := by
  induction l generalizing p1 map with
  | nil => exact (List.append_nil _).symm
  | cons e l ih =>
    obtain ⟨hfirst, hl⟩ := List.pairwise_cons.mp hl
    have hset := fun p2 : F => SortedMap.toList_set_of_forall_lt map e.1 (p1, p2)
      (fun e' he' => hmap e' he' e (by simp))
    have hnext : ∀ p2 : F, ∀ e₁ ∈ (map.set e.1 (p1, p2)).toList, ∀ e' ∈ l, e₁.1 < e'.1 := by
      intro p2 e₁ he₁ e' he'
      rw [hset, List.mem_append, List.mem_singleton] at he₁
      cases he₁ with
      | inl hold => exact hmap e₁ hold e' (by simp [he'])
      | inr heq => exact heq ▸ hfirst e' he'
    unfold ranges
    rw [ih hl _ _ (hnext _), hset, List.append_assoc]
    congr 1
    cases l with
    | nil => rfl
    | cons e' l => rfl

theorem toList_setProbability (map : NbrUtilizationMap) (hpos : ∀ e ∈ map.toList, 0 < e.2)
    (nbrSet : NbrSet)
    : (setProbability map (total map.toList) nbrSet : ProbabilityPairMap F).toList
        =
      Ranges.cut 1 (fun d => getRatio d (total (map.toList.filter (fun e => nbrSet.contains e.1)))) 0
        (map.toList.filter (fun e => nbrSet.contains e.1)) := by
  obtain ⟨hmap, hleft⟩ := foldl_select nbrSet map.toList map.sorted (total map.toList)
  have htotal := total_filter_add (fun e => nbrSet.contains e.1 = true) map.toList
  have hsub : (map.toList.foldl (select nbrSet) (.empty, total map.toList)).2
      = total (map.toList.filter (fun e => nbrSet.contains e.1)) := by
    rw [hleft]
    simp only [Bool.decide_eq_true, Bool.not_eq_true, Bool.decide_eq_false] at htotal
    rw [← htotal]
    exact add_sub_cancel_right _ _
  unfold setProbability
  simp only
  rw [hsub, hmap]
  split
  . rw [toList_ranges _ _ (map.sorted.filter _) 0 .empty (fun _ he => by cases he)]
    rfl
  . next hnone =>
    have hnil : map.toList.filter (fun e => nbrSet.contains e.1) = [] := by
      cases hsel : map.toList.filter (fun e => nbrSet.contains e.1) with
      | nil => rfl
      | cons e l =>
        have hall : ∀ x ∈ (e :: l).map (fun e => e.2), 0 < x := by
          intro x hx
          obtain ⟨e', he', rfl⟩ := List.mem_map.mp hx
          exact hpos e' (List.mem_of_mem_filter (hsel ▸ he'))
        exact absurd (hsel ▸ List.sum_pos _ hall (by simp)) hnone
    rw [hnil]
    rfl

theorem counted_foldl (id : NEMId) (entries : List (NEMId × NeighborEntry F))
    (h : entries.Pairwise (fun a b => a.1 < b.1))
    : Counted id entries (entries.foldl (countOneHop id) .reset) := by
  induction entries using List.reverseRecOn with
  | nil => exact ⟨rfl, rfl, rfl, fun _ he => by cases he⟩
  | append_singleton entries e ih =>
    rw [List.pairwise_append] at h
    obtain ⟨hentries, -, hlast⟩ := h
    have ih := ih hentries
    rw [List.foldl_append, List.foldl_cons, List.foldl_nil]
    generalize entries.foldl (countOneHop id) .reset = c at ih
    have hactive : active (entries ++ [e])
        = active entries ++ active [e] := by
      unfold active
      rw [List.map_append, List.filter_append]
    unfold countOneHop
    simp only
    split
    . next hpos =>
      have hone : active [e] = [(e.1, e.2.getUtilizationMicroseconds MSG_TYPE_MASK_ALL_DATA)] := by
        unfold active
        simp [hpos]
      have hkeys : ∀ e' ∈ active entries, e'.1 < e.1 := by
        intro e' he'
        obtain ⟨-, n, hn, -⟩ := mem_active he'
        exact hlast _ hn e (by simp)
      have hset := SortedMap.toList_set_of_forall_lt c.oneHopUtilizationMap e.1
        (e.2.getUtilizationMicroseconds MSG_TYPE_MASK_ALL_DATA)
        (ih.map ▸ hkeys)
      rw [ih.map] at hset
      have htotal : total (active (entries ++ [e]))
          = total (active entries) + e.2.getUtilizationMicroseconds MSG_TYPE_MASK_ALL_DATA := by
        rw [hactive, hone]
        simp [total]
      split
      . next hid =>
        refine ⟨hset.trans (by rw [hactive, hone]), (by rw [htotal, ih.total]), ?_, ?_⟩
        . have hnone : (active entries).filter (fun e => e.1 = id) = [] := by
            rw [List.filter_eq_nil_iff]
            intro e' he'
            simpa using ne_of_lt (hid ▸ hkeys e' he')
          rw [hactive, hone, List.filter_append, hnone]
          simp [total, hid]
        . intro e' he' hne
          rw [hactive, hone, List.mem_append, List.mem_singleton] at he'
          cases he' with
          | inl hmem => exact ih.packets e' hmem hne
          | inr heq => exact absurd (heq ▸ hid) hne
      . next hid =>
        refine ⟨hset.trans (by rw [hactive, hone]), (by rw [htotal, ih.total]), ?_, ?_⟩
        . rw [hactive, hone, List.filter_append, ih.thisNEM]
          simp [total, hid]
        . intro e' he' hne
          exact Nat.add_pos_right _ (NeighborEntry.numberOfPackets_pos hpos)
    . next hpos =>
      have hone : active [e] = [] := by
        unfold active
        simpa using hpos
      rw [hone, List.append_nil] at hactive
      exact ⟨hactive ▸ ih.map, hactive ▸ ih.total, hactive ▸ ih.thisNEM, hactive ▸ ih.packets⟩

theorem Counted.estimateTwoHop {id : NEMId} {entries : List (NEMId × NeighborEntry F)}
    {c : Counters F} (h : Counted id entries c)
    : Counted id entries (estimateTwoHop c) := by
  unfold NeighborManager.estimateTwoHop
  split
  . exact ⟨h.map, h.total, h.thisNEM, h.packets⟩
  . exact h

theorem counted_count (m : NeighborManager F) : Counted m.id m.oneHopNbrMap.toList m.count := by
  have hone := counted_foldl m.id m.oneHopNbrMap.toList m.oneHopNbrMap.sorted
  have htwo : ∀ localNodeTx : F, Counted m.id m.oneHopNbrMap.toList
    (m.twoHopNbrMap.toList.foldl countTwoHop
      { m.oneHopNbrMap.toList.foldl (countOneHop m.id) .reset with localNodeTx := localNodeTx }) := by
    intro localNodeTx
    apply List.foldlRecOn
    . exact ⟨hone.map, hone.total, hone.thisNEM, hone.packets⟩
    . intro c hc e _
      unfold countTwoHop
      simp only
      split
      . exact ⟨hc.map, hc.total, hc.thisNEM, hc.packets⟩
      . exact hc
  exact (htwo _).estimateTwoHop

theorem estimated_calculateBwUtilization (m : NeighborManager F) (deltaT : Microseconds)
    : Estimated { m with counters := averages m.count } m.oneHopNbrMap.toList
        (m.oneHopNbrMap.toList.foldl (estimateNeighbor deltaT)
            (0, { m with counters := averages m.count })).2 := by
  exact @Estimated.foldl F { m with counters := averages m.count }
    { m with counters := averages m.count } _
    ⟨.refl _, rfl, rfl, rfl, rfl, fun _ he => by cases he⟩ deltaT 0 m.oneHopNbrMap.toList
      (fun _ he => he) m.oneHopNbrMap.nodup_keys

theorem toList_calculateBwUtilization (m : NeighborManager F) (deltaT : Microseconds)
    : (m.calculateBwUtilization deltaT).counters.oneHopUtilizationMap.toList
        = active m.oneHopNbrMap.toList := by
  have hest := m.estimated_calculateBwUtilization deltaT
  unfold calculateBwUtilization
  simp only
  split
  . rw [(ranged_setCommonAndHiddenProbability _).counters, hest.map]
    exact m.counted_count.map
  . exact m.counted_count.map

theorem calculateBwUtilization_ranges (m : NeighborManager F) (deltaT : Microseconds) {src : NEMId}
    (hsrc : src ≠ m.id)
    (hactive : (m.calculateBwUtilization deltaT).counters.oneHopUtilizationMap.contains src = true)
    (hother : ∃ nbr, nbr ≠ m.id ∧ nbr ≠ src
      ∧ (m.calculateBwUtilization deltaT).counters.oneHopUtilizationMap.contains nbr = true)
    : ∃ n, (m.calculateBwUtilization deltaT).oneHopNbrMap.find? src = some n
        ∧ (m.calculateBwUtilization deltaT).Sorted n ∧
        ∀ kind, ∃ ranges, ((m.calculateBwUtilization deltaT).probabilities kind).find? src = some ranges ∧
          ranges.toList = Ranges.cut 1 (fun d => getRatio d
            (total ((m.calculateBwUtilization deltaT).selected src (n.nbrs kind)))) 0
            ((m.calculateBwUtilization deltaT).selected src (n.nbrs kind)) := by
  have hcounted := m.counted_count
  unfold calculateBwUtilization at hactive hother ⊢
  simp only at hactive hother ⊢
  split at hactive
  . next hpackets =>
    rw [if_pos hpackets] at hother
    simp only [if_pos hpackets]
    have hest := m.estimated_calculateBwUtilization deltaT
    generalize (m.oneHopNbrMap.toList.foldl (estimateNeighbor deltaT)
      (0, { m with counters := averages m.count })) = s
      at hest hactive hother ⊢
    have hranged := s.2.ranged_setCommonAndHiddenProbability
    generalize s.2.setCommonAndHiddenProbability = m' at hranged hactive hother ⊢
    have haverages : Counted m.id m.oneHopNbrMap.toList (averages m.count) :=
      ⟨hcounted.map, hcounted.total, hcounted.thisNEM, hcounted.packets⟩
    have hcounted := hest.counted haverages
    have hid : s.2.id = m.id := hest.same.id
    rw [hranged.counters] at hactive
    -- the source has been seen, so that its neighbors are sorted
    obtain ⟨u, hu⟩ := SortedMap.contains_eq_true_iff.mp hactive
    have hmem := SortedMap.mem_toList_of_find? hu
    rw [hcounted.map] at hmem
    obtain ⟨hpos, n₀, hn₀, hutil⟩ := mem_active hmem
    obtain ⟨n, hn, hsorted⟩ := hest.sorted (src, n₀) hn₀ hsrc
      (NeighborEntry.numberOfPackets_pos (hutil ▸ hpos))
    -- and something is left for the other one
    have hpositive : ∀ e ∈ (s.2.others src).toList, 0 < e.2 := by
      intro e he
      rw [toList_others] at he
      have he := List.mem_of_mem_filter he
      rw [hcounted.map] at he
      exact (mem_active he).1
    have hleft : 0 < total (s.2.others src).toList := by
      obtain ⟨nbr, hnbrId, hnbrSrc, hnbr⟩ := hother
      rw [hranged.counters] at hnbr
      obtain ⟨v, hv⟩ := SortedMap.contains_eq_true_iff.mp hnbr
      have hmem : (nbr, v) ∈ (s.2.others src).toList := by
        rw [toList_others, List.mem_filter, decide_eq_true_eq, hid]
        exact ⟨SortedMap.mem_toList_of_find? hv, hnbrId, hnbrSrc⟩
      apply List.sum_pos
      . intro x hx
        obtain ⟨e, he, rfl⟩ := List.mem_map.mp hx
        exact hpositive e he
      . exact List.ne_nil_of_mem (List.mem_map_of_mem hmem)
    have htotal := total_others hcounted (hid ▸ hsrc) hu
    refine ⟨n, by rw [hranged.oneHop]; exact hn, ?_, ?_⟩
    . refine Sorted.of_eq hranged.oneHop ?_ hsorted
      intro kind
      rw [← hranged.powers]
      cases kind with
      | common => rfl
      | hidden => rfl
    . intro kind
      have hfind := hranged.ranges (src, u) (SortedMap.mem_toList_of_find? hu) (hid ▸ hsrc)
        (htotal ▸ hleft) n hn kind
      refine ⟨_, hfind, ?_⟩
      rw [htotal, toList_setProbability _ hpositive, filter_others]
      unfold selected
      rw [hranged.counters, hranged.id]
  . next hpackets =>
    obtain ⟨u, hu⟩ := SortedMap.contains_eq_true_iff.mp hactive
    have hmem := SortedMap.mem_toList_of_find? hu
    rw [hcounted.map] at hmem
    exact absurd (hcounted.packets _ hmem hsrc) hpackets

def getRandomRxPowerNodesMilliWatts (m : NeighborManager F) : Kind → NEMId → F → F
  | .common => m.getRandomRxPowerCommonNodesMilliWatts
  | .hidden => m.getRandomRxPowerHiddenNodesMilliWatts

theorem getRandomRxPowerNodesMilliWatts_eq (m : NeighborManager F) (kind : Kind) (src : NEMId)
    (random : F)
    : m.getRandomRxPowerNodesMilliWatts kind src random
        =
      getRandomRxPowerMilliWatts src random (m.probabilities kind) (m.powers kind) := by
  cases kind with
  | common => rfl
  | hidden => rfl

end

open scoped FloatingPoint

theorem getRatio_eq_div (d1 d2 : Microseconds) : (getRatio d1 d2 : ℚ) = (d1 : ℚ) / (d2 : ℚ) := by
  have hunit : ((1000000 : Nat) : ℚ) ≠ 0 := by norm_num
  exact div_div_div_cancel_right₀ hunit (d1 : ℚ) (d2 : ℚ)

structure Partition (selected : List (NEMId × Microseconds)) (ranges : List (NEMId × ℚ × ℚ)) : Prop where
  keys : ranges.map Prod.fst = selected.map Prod.fst
  spans : selected ≠ [] → Ranges.Spans 0 1 ranges
  shares : ranges.map (fun e => e.2.2 - e.2.1) = selected.map (fun e => (e.2 : ℚ) / (total selected : ℚ))

theorem partition_cut {selected : List (NEMId × Microseconds)} (hpos : ∀ e ∈ selected, 0 < e.2)
    : Partition selected (Ranges.cut 1 (fun d => getRatio d (total selected)) 0 selected) where
  keys := Ranges.map_fst_cut 1 _ 0 selected
  spans hne := Ranges.spans_cut 1 _ 0 hne
  shares := by
    by_cases hnil : selected = []
    . rw [hnil]
      rfl
    . have htotal : 0 < total selected := by
        apply List.sum_pos
        . intro x hx
          obtain ⟨e, he, rfl⟩ := List.mem_map.mp hx
          exact hpos e he
        . simpa using hnil
      have htotal' : (total selected : ℚ) ≠ 0 := by exact_mod_cast ne_of_gt htotal
      have hsum : (selected.map (fun e => (getRatio e.2 (total selected) : ℚ))).sum = 1 := by
        have hcast : (selected.map (fun e => (e.2 : ℚ))).sum = (total selected : ℚ) := by
          have hhom := map_list_sum (Int.castAddHom ℚ) (selected.map (fun e => e.2))
          rw [List.map_map] at hhom
          exact hhom.symm
        simp only [getRatio_eq_div, div_eq_mul_inv]
        rw [List.sum_map_mul_right, hcast, mul_inv_cancel₀ htotal']
      rw [Ranges.lengths_cut (by rw [zero_add, hsum])]
      simp only [getRatio_eq_div]

/--
A neighbor is sorted by what it says of itself, the ranges are the shares of the selected ones,
and every random number finds the power of one of them.
-/
def Partitioned (m : NeighborManager ℚ) (kind : Kind) (src : NEMId) : Prop :=
  ∃ n ranges, m.oneHopNbrMap.find? src = some n ∧ (m.probabilities kind).find? src = some ranges ∧
    (∀ nbr, (n.nbrs kind).contains nbr = true ↔ m.oneHopNbrMap.contains nbr = true
      ∧ kind.has n.oneHopNbrSet nbr = true) ∧
    Partition (m.selected src (n.nbrs kind)) ranges.toList ∧
    (m.selected src (n.nbrs kind) ≠ [] → ∀ random, 0 ≤ random → random ≤ 1 →
      ∃ nbr lo hi, ranges.find? nbr = some (lo, hi) ∧ lo ≤ random ∧ random ≤ hi ∧
        (m.powers kind).find? nbr = some (m.getRandomRxPowerNodesMilliWatts kind src random))

theorem partitioned_calculateBwUtilization (m : NeighborManager ℚ) (deltaT : Microseconds)
    (kind : Kind) {src : NEMId}
    (hsrc : src ≠ m.id)
    (hactive : (m.calculateBwUtilization deltaT).counters.oneHopUtilizationMap.contains src = true)
    (hother : ∃ nbr, nbr ≠ m.id ∧ nbr ≠ src
      ∧ (m.calculateBwUtilization deltaT).counters.oneHopUtilizationMap.contains nbr = true)
    : Partitioned (m.calculateBwUtilization deltaT) kind src := by
  obtain ⟨n, hn, hsorted, hranges⟩ := calculateBwUtilization_ranges m deltaT hsrc hactive hother
  obtain ⟨ranges, hfind, heq⟩ := hranges kind
  generalize hm' : m.calculateBwUtilization deltaT = m' at hn hsorted hfind heq ⊢
  have hpos : ∀ e ∈ m'.selected src (n.nbrs kind), 0 < e.2 := by
    intro e he
    have hmem := List.mem_of_mem_filter he
    rw [← hm', toList_calculateBwUtilization] at hmem
    exact (mem_active hmem).1
  have hpartition := partition_cut hpos
  rw [← heq] at hpartition
  refine ⟨n, ranges, hn, hfind, fun nbr => (hsorted kind nbr).1, hpartition, ?_⟩
  intro hne random hlow hhigh
  have hsome : ranges.toList ≠ [] := by
    intro hnil
    have hkeys := hpartition.keys
    rw [hnil, List.map_nil, eq_comm, List.map_eq_nil_iff] at hkeys
    exact hne hkeys
  obtain ⟨e, he, hin⟩ := (hpartition.spans hne).exists_mem hsome hlow hhigh
  have hfound : (ranges.toList.find? (fun piter => random ≥ piter.2.1 ∧ random ≤ piter.2.2)).isSome
      = true := by
    rw [List.find?_isSome]
    exact ⟨e, he, decide_eq_true hin⟩
  obtain ⟨piter, hpiter⟩ := Option.isSome_iff_exists.mp hfound
  have hin := List.find?_some hpiter
  rw [decide_eq_true_eq] at hin
  have hmem := List.mem_of_find?_eq_some hpiter
  have hnbr : (n.nbrs kind).contains piter.1 = true := by
    have hkey : piter.1 ∈ (m'.selected src (n.nbrs kind)).map Prod.fst :=
      hpartition.keys ▸ List.mem_map_of_mem hmem
    obtain ⟨e', he', hkey⟩ := List.mem_map.mp hkey
    have hsel := (List.mem_filter.mp he').2
    rw [decide_eq_true_eq] at hsel
    exact hkey ▸ hsel.2.2
  obtain ⟨power, hpower⟩ := SortedMap.contains_eq_true_iff.mp ((hsorted kind piter.1).2 hnbr)
  refine ⟨piter.1, piter.2.1, piter.2.2, SortedMap.find?_of_mem hmem, hin.1, hin.2, ?_⟩
  rw [getRandomRxPowerNodesMilliWatts_eq, hpower]
  unfold getRandomRxPowerMilliWatts
  rw [hfind]
  simp only
  rw [hpiter]
  simp only
  rw [hpower]
  rfl

theorem Partitioned.mapTwoHop {m : NeighborManager ℚ} {kind : Kind} {src : NEMId}
    (h : Partitioned m kind src)
    (f : Neighbor2HopEntry → Neighbor2HopEntry) (currentTime : TimePoint)
    : Partitioned { m.mapTwoHop f with lastResetTime := currentTime } kind src := by
  cases kind with
  | common => exact h
  | hidden => exact h

theorem partitioned_resetStatistics (m : NeighborManager ℚ) (currentTime : TimePoint) (kind : Kind)
    {src : NEMId} (hsrc : src ≠ m.id)
    (hactive : (m.resetStatistics currentTime).counters.oneHopUtilizationMap.contains src = true)
    (hother : ∃ nbr, nbr ≠ m.id ∧ nbr ≠ src
      ∧ (m.resetStatistics currentTime).counters.oneHopUtilizationMap.contains nbr = true)
    : Partitioned (m.resetStatistics currentTime) kind src := by
  have hid : ((m.flush currentTime).mapOneHop NeighborEntry.storeUtilization).id = m.id :=
    (m.fewer_flush currentTime).id
  rw [← hid] at hsrc hother
  exact (partitioned_calculateBwUtilization _ _ kind hsrc hactive hother).mapTwoHop
    Neighbor2HopEntry.resetUtilization currentTime

def oneInterval : List (Event ℚ) :=
  [.oneHopNeighbors (some ⟨2, [3]⟩), .dataActivity 2 MSG_TYPE_BROADCAST_DATA 2 0 10,
    .dataActivity 3 MSG_TYPE_BROADCAST_DATA 3 0 20]

def twoIntervals : List (Event ℚ) :=
  oneInterval ++ [.resetStatistics 10000, .dataActivity 2 MSG_TYPE_BROADCAST_DATA 2 90000 10,
    .resetStatistics 100000]

def atOneInterval : NeighborManager ℚ :=
  (run step (create 1 50 0) oneInterval).getD (create 1 50 0)

theorem partitioned_oneInterval : Partitioned (atOneInterval.resetStatistics 10000) .common 2 :=
  partitioned_resetStatistics atOneInterval 10000 .common (by decide +kernel) (by decide +kernel)
    ⟨3, by decide +kernel, by decide, by decide +kernel⟩

theorem not_partitioned
    : (∃ m, run step (create 1 50 0) (oneInterval ++ [.resetStatistics 10000]) = some m ∧
          m.counters.oneHopUtilizationMap.contains 2 = true
            ∧ m.counters.oneHopUtilizationMap.contains 3 = true ∧
          ¬ ∃ ranges, m.hiddenProbabilityMapMap.find? 2 = some ranges ∧ ∃ e ∈ ranges.toList,
            e.2.1 ≤ 1 / 2 ∧ 1 / 2 ≤ e.2.2)
      ∧ ∃ m, run step (create 1 50 0) twoIntervals = some m ∧
        m.counters.oneHopUtilizationMap.contains 3 = false ∧ m.oneHopNbrMap.contains 3 = false ∧
        m.getRandomRxPowerCommonNodesMilliWatts 2 (1 / 2) = 3 := by
  constructor
  . have hfirst : (run step (create 1 50 0) (oneInterval ++ [.resetStatistics 10000])).map (fun m =>
        (m.counters.oneHopUtilizationMap.contains 2, m.counters.oneHopUtilizationMap.contains 3,
          (m.hiddenProbabilityMapMap.find? 2).map (fun ranges => ranges.toList.length))) = some
              (true, true, some 0) := by
      decide +kernel
    rw [Option.map_eq_some_iff] at hfirst
    obtain ⟨m, hrun, hm⟩ := hfirst
    simp only [Prod.mk.injEq] at hm
    obtain ⟨htwo, hthree, hranges⟩ := hm
    refine ⟨m, hrun, htwo, hthree, ?_⟩
    rintro ⟨ranges, hfind, e, he, -⟩
    rw [hfind, Option.map_some, Option.some.injEq, List.length_eq_zero_iff] at hranges
    rw [hranges] at he
    cases he
  . have hsecond : (run step (create 1 50 0) twoIntervals).map
      (fun m => (m.counters.oneHopUtilizationMap.contains 3,
        m.oneHopNbrMap.contains 3, m.getRandomRxPowerCommonNodesMilliWatts 2 (1 / 2)))
            = some (false, false, 3) := by
      decide +kernel
    rw [Option.map_eq_some_iff] at hsecond
    obtain ⟨m, hrun, hm⟩ := hsecond
    simp only [Prod.mk.injEq] at hm
    exact ⟨m, hrun, hm⟩

end NeighborManager

end Ieee80211abg
end Emane

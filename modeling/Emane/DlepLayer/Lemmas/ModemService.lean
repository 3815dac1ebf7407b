import Emane.Lib.Machine
import Emane.DlepLayer.Impl.ModemService

/-!
This module contains what the DLEP client is told about one neighbour: which calls the reports
about it stand for, and when these are the calls that are made.
-/

namespace Emane
namespace DlepLayer

inductive Said where
  | up (rx tx : Nat)
  | update (rx tx : Nat)
  | down
  deriving DecidableEq

def lastRate (self : Nat) (given : List Nat) : Nat :=
  (given.reverse.find? (fun rate => rate ≠ 0)).getD self

structure History where
  self : Nat × Nat
  given : List (Nat × Nat)

def History.rates (h : History) : Nat × Nat :=
  (lastRate h.self.1 (h.given.map Prod.fst), lastRate h.self.2 (h.given.map Prod.snd))

theorem lastRate_append (self rate : Nat) (given : List Nat)
    : lastRate self (given ++ [rate]) = if rate ≠ 0 then rate else lastRate self given := by
  unfold lastRate
  split
  . next h => simp_all
  . next h => simp_all

theorem lastRate_singleton (self rate : Nat)
    : lastRate self [rate] = if rate ≠ 0 then rate else self := by
  exact lastRate_append self rate []

theorem History.rates_append (h : History) (rx tx : Nat)
    : ({ h with given := h.given ++ [(rx, tx)] } : History).rates
        =
      (if rx ≠ 0 then rx else h.rates.1, if tx ≠ 0 then tx else h.rates.2) := by
  unfold History.rates
  simp only [List.map_append, List.map_cons, List.map_nil]
  rw [lastRate_append, lastRate_append]

structure Track where
  selfRates : Nat × Nat := (0, 0)
  history : Option History := none
  calls : List Said := []

namespace Track

def give (t : Track) (metric : NeighborMetric) : Track :=
  match t.history with
  | none =>
    let h := ⟨t.selfRates, [(metric.rxAvgDataRate, metric.txAvgDataRate)]⟩
    { t with history := some h, calls := t.calls ++ [.up h.rates.1 h.rates.2] }
  | some h =>
    let h := { h with given := h.given ++ [(metric.rxAvgDataRate, metric.txAvgDataRate)] }
    { t with history := some h, calls := t.calls ++ [.update h.rates.1 h.rates.2] }

def leave (t : Track) : Track :=
  match t.history with
  | none => t
  | some _ => { t with history := none, calls := t.calls ++ [.down] }

def observe (nbr : NEMId) (t : Track) : Message → Track
  | .neighborMetric metrics =>
    if metrics.any (fun metric => metric.id = nbr) then
      (metrics.filter (fun metric => metric.id = nbr)).foldl give t
    else
      t.leave
  | .selfMetric maxDataRate => { t with selfRates := (maxDataRate, maxDataRate) }
  | .queueMetric _ => t
  | .flowControl => t

/--
A neighbour that is new has the same rates in both directions, where our own one stands for zero.
-/
def NewRatesAgree (nbr : NEMId) (t : Track) : Message → Prop
  | .neighborMetric metrics =>
    t.history.isNone = true → ∀ metric, metrics.find? (fun metric => metric.id = nbr) = some metric →
      lastRate t.selfRates.2 [metric.txAvgDataRate] = lastRate t.selfRates.1 [metric.rxAvgDataRate]
  | _ => True

instance instDecidableNewRatesAgree (nbr : NEMId) (t : Track) (msg : Message)
    : Decidable (t.NewRatesAgree nbr msg) :=
  match msg with
  | .neighborMetric metrics =>
    decidable_of_iff
      (t.history.isNone = true → (metrics.find? (fun metric => metric.id = nbr)).all (fun metric =>
        lastRate t.selfRates.2 [metric.txAvgDataRate]
          = lastRate t.selfRates.1 [metric.rxAvgDataRate]) = true)
      (by simp [NewRatesAgree, Option.all_eq_true])
  | .queueMetric _ => isTrue trivial
  | .selfMetric _ => isTrue trivial
  | .flowControl => isTrue trivial

end Track

def nextUp : Bool → Said × Outcome → Option Bool
  | false, (.up _ _, outcome) => some (outcome = .success)
  | true, (.update _ _, _) => some true
  | true, (.down, _) => some false
  | _, _ => none

def reported (ids : List NEMId) : Message → List NEMId
  | .neighborMetric metrics => metrics.map NeighborMetric.id
  | _ => ids

namespace Track

variable {nbr : NEMId} {t : Track} {ids : List NEMId}

structure Sound (nbr : NEMId) (ids : List NEMId) (t : Track) : Prop where
  calls : run (fun up said => nextUp up (said, .success)) false t.calls = some t.history.isSome
  reported : t.history.isSome = true ↔ nbr ∈ ids

theorem run_give (h : run (fun up said => nextUp up (said, .success)) false t.calls
    = some t.history.isSome) (metric : NeighborMetric)
    : run (fun up said => nextUp up (said, .success)) false (t.give metric).calls = some
        (t.give metric).history.isSome
        ∧ (t.give metric).history.isSome = true := by
  unfold give
  cases hhistory : t.history with
  | none =>
    rw [hhistory] at h
    rw [run_append, h]
    exact ⟨rfl, rfl⟩
  | some history =>
    rw [hhistory] at h
    rw [run_append, h]
    exact ⟨rfl, rfl⟩

theorem run_foldl_give (metrics : List NeighborMetric)
    (h : run (fun up said => nextUp up (said, .success)) false t.calls = some t.history.isSome)
    : run (fun up said => nextUp up (said, .success)) false (metrics.foldl give t).calls
        = some (metrics.foldl give t).history.isSome
        ∧ (metrics ≠ [] → (metrics.foldl give t).history.isSome = true) := by
  induction metrics generalizing t with
  | nil => exact ⟨h, fun hne => absurd rfl hne⟩
  | cons metric metrics ih =>
    obtain ⟨hcalls, hsome⟩ := run_give h metric
    obtain ⟨hcalls', hsome'⟩ := ih hcalls
    refine ⟨hcalls', fun _ => ?_⟩
    cases metrics with
    | nil => exact hsome
    | cons metric' metrics => exact hsome' (List.cons_ne_nil _ _)

theorem Sound.observe (h : t.Sound nbr ids) (msg : Message)
    : (t.observe nbr msg).Sound nbr (DlepLayer.reported ids msg) := by
  cases msg with
  | neighborMetric metrics =>
    have hany : metrics.any (fun metric => metric.id = nbr) = true
        ↔ nbr ∈ metrics.map NeighborMetric.id := by
      simp
    simp only [Track.observe, DlepLayer.reported]
    split
    . next hin =>
      have hne : metrics.filter (fun metric => metric.id = nbr) ≠ [] := by
        rw [ne_eq, List.filter_eq_nil_iff, not_forall]
        obtain ⟨metric, hmetric, heq⟩ := List.any_eq_true.mp hin
        exact ⟨metric, fun hnot => hnot hmetric heq⟩
      obtain ⟨hcalls, hsome⟩ := run_foldl_give (metrics.filter (fun metric => metric.id = nbr)) h.calls
      exact ⟨hcalls, by simp [hsome hne, hany.mp hin]⟩
    . next hout =>
      have hnot : nbr ∉ metrics.map NeighborMetric.id := fun hmem => hout (hany.mpr hmem)
      have hcalls := h.calls
      unfold leave
      cases hhistory : t.history with
      | none =>
        exact ⟨by simpa [hhistory] using hcalls, by simp [hhistory, hnot]⟩
      | some history =>
        rw [hhistory] at hcalls
        constructor
        . rw [run_append, hcalls]
          rfl
        . simp [hnot]
  | queueMetric avgDelays => exact h
  | selfMetric maxDataRate => exact ⟨h.calls, h.reported⟩
  | flowControl => exact h

theorem sound_foldl {msgs : List Message} (h : t.Sound nbr ids)
    : (msgs.foldl (Track.observe nbr) t).Sound nbr (msgs.foldl DlepLayer.reported ids) := by
  induction msgs generalizing t ids with
  | nil => exact h
  | cons msg msgs ih => exact ih (h.observe msg)

theorem sound_init (nbr : NEMId) : Sound nbr [] {} := by
  constructor
  . rfl
  . simp

end Track

namespace Call

def said (nbr : NEMId) : Call → Option Said
  | destinationUp nbr' _ metrics =>
    if nbr' = nbr then
      some (.up metrics.dataRateInfo.currentDataRateRx metrics.dataRateInfo.currentDataRateTx)
    else
      none
  | destinationUpdate nbr' _ metrics =>
    if nbr' = nbr then
      some (.update metrics.dataRateInfo.currentDataRateRx metrics.dataRateInfo.currentDataRateTx)
    else
      none
  | destinationDown nbr' _ => if nbr' = nbr then some .down else none
  | peerUpdate _ => none

def isUp : Call → Bool
  | destinationUp _ _ _ => true
  | _ => false

end Call

namespace ModemService

variable {cfg : Config} {client : Nat → Outcome} {nbr : NEMId} {s s' : ModemService} {t : Track}
  {metric : NeighborMetric}
  {metrics : List NeighborMetric} {delNeighbors : SortedMap NEMId NeighborInfo}

def Answered (client : Nat → Outcome) (s : ModemService) : Prop :=
  ∀ k c, s.calls[k]? = some c → client k ≠ .exception ∧ (c.isUp = true → client k = .success)

theorem Answered.of_grows (h : Answered client s') (hgrows : ∃ calls, s'.calls = s.calls ++ calls)
    : Answered client s := by
  obtain ⟨calls, hcalls⟩ := hgrows
  intro k c hc
  apply h k c
  have hk := (List.getElem?_eq_some_iff.mp hc).1
  rw [hcalls, List.getElem?_append_left hk, hc]

theorem call_not_thrown {c : Call} (h : Answered client (s.call client c).1)
    : (s.call client c).2 = false := by
  have hlast := h s.calls.length c (by simp [call])
  simp [call, hlast.1]

def saidOf (nbr : NEMId) (s : ModemService) : List Said :=
  s.calls.filterMap (Call.said nbr)

structure Follows (nbr : NEMId) (s : ModemService) (t : Track) : Prop where
  self : t.selfRates = (s.selfMetrics.currentDataRateRx, s.selfMetrics.currentDataRateTx)
  rates : (s.currentNeighbors.find? nbr).map
    (fun nbrInfo => (nbrInfo.lastRxDataRate, nbrInfo.lastTxDataRate))
    = t.history.map History.rates
  calls : s.saidOf nbr = t.calls

theorem saidOf_call (c : Call) (s : ModemService)
    : (s.call client c).1.saidOf nbr = s.saidOf nbr ++ (c.said nbr).toList := by
  unfold saidOf call
  cases hsaid : c.said nbr with
  | none => simp [hsaid]
  | some said => simp [hsaid]

def noted (cfg : Config) (s : ModemService) (metric : NeighborMetric) : NeighborInfo :=
  let nbrInfo := ((s.currentNeighbors.find? metric.id).map (updateNeighbor metric)).getD
    (s.newNeighbor cfg metric)
  { nbrInfo with metrics := s.destinationMetrics nbrInfo }

def notedCall (cfg : Config) (s : ModemService) (metric : NeighborMetric) : Call :=
  if (s.currentNeighbors.find? metric.id).isNone then
    .destinationUp metric.id (s.noted cfg metric).macAddress (s.noted cfg metric).metrics
  else
    .destinationUpdate metric.id (s.noted cfg metric).macAddress (s.noted cfg metric).metrics

theorem handleMetric_eq (hknows : cfg.knowsMetrics = true) (s : ModemService) (metric : NeighborMetric)
    : s.handleMetric cfg client metric
        =
      ({ s with currentNeighbors := s.currentNeighbors.set metric.id (s.noted cfg metric)
        } : ModemService).call client
        (s.notedCall cfg metric) := by
  unfold handleMetric sendDestinationUpdate notedCall noted
  simp only [hknows, if_true]
  cases s.currentNeighbors.find? metric.id with
  | none => simp
  | some nbrInfo => simp

theorem said_notedCall (s : ModemService) (metric : NeighborMetric)
    : (s.notedCall cfg metric).said nbr
        =
      if metric.id = nbr then
        if (s.currentNeighbors.find? metric.id).isNone then
          some (.up (s.noted cfg metric).lastRxDataRate (s.noted cfg metric).lastTxDataRate)
        else
          some (.update (s.noted cfg metric).lastRxDataRate (s.noted cfg metric).lastTxDataRate)
      else
        none := by
  unfold notedCall
  split
  . rfl
  . rfl

theorem handleMetric_other (hknows : cfg.knowsMetrics = true) (h : Follows nbr s t)
    (hne : metric.id ≠ nbr)
    : Follows nbr (s.handleMetric cfg client metric).1 t := by
  rw [handleMetric_eq hknows]
  constructor
  . exact h.self
  . have hfind : (s.currentNeighbors.set metric.id (s.noted cfg metric)).find? nbr
        = s.currentNeighbors.find? nbr := by
      rw [SortedMap.find?_set, if_neg (Ne.symm hne)]
    simp only [call, hfind]
    exact h.rates
  . rw [saidOf_call, said_notedCall, if_neg hne, Option.toList_none, List.append_nil]
    exact h.calls

theorem noted_of_new (hnone : s.currentNeighbors.find? metric.id = none)
    : (s.noted cfg metric).lastRxDataRate
        = lastRate s.selfMetrics.currentDataRateRx [metric.rxAvgDataRate]
        ∧ (s.noted cfg metric).lastTxDataRate
            = lastRate s.selfMetrics.currentDataRateRx [metric.rxAvgDataRate] := by
  unfold noted newNeighbor
  rw [hnone, lastRate_singleton]
  constructor
  . rfl
  . rfl

theorem noted_of_known {nbrInfo : NeighborInfo}
    (hsome : s.currentNeighbors.find? metric.id = some nbrInfo)
    : (s.noted cfg metric).lastRxDataRate
        = (if metric.rxAvgDataRate ≠ 0 then metric.rxAvgDataRate else nbrInfo.lastRxDataRate)
        ∧
      (s.noted cfg metric).lastTxDataRate =
          (if metric.txAvgDataRate ≠ 0 then metric.txAvgDataRate else nbrInfo.lastTxDataRate) := by
  unfold noted updateNeighbor
  rw [hsome]
  simp [Nat.pos_iff_ne_zero]

theorem handleMetric_own (hknows : cfg.knowsMetrics = true) (h : Follows metric.id s t)
    (hrates : t.history.isNone = true →
      lastRate t.selfRates.2 [metric.txAvgDataRate] = lastRate t.selfRates.1 [metric.rxAvgDataRate])
    : Follows metric.id (s.handleMetric cfg client metric).1 (t.give metric) := by
  have hknown := h.rates
  rw [handleMetric_eq hknows]
  cases hhistory : t.history with
  | none =>
    rw [hhistory, Option.map_none, Option.map_eq_none_iff] at hknown
    obtain ⟨hrx, htx⟩ := @noted_of_new cfg s metric hknown
    have hagree := hrates (by rw [hhistory]; rfl)
    rw [h.self] at hagree
    have hgive : t.give metric
        = { t with
            history := some ⟨t.selfRates, [(metric.rxAvgDataRate, metric.txAvgDataRate)]⟩
            calls := t.calls ++ [.up (s.noted cfg metric).lastRxDataRate
                (s.noted cfg metric).lastTxDataRate] } := by
      unfold Track.give
      rw [hhistory]
      simp only [History.rates, h.self, List.map_cons, List.map_nil, hrx, htx, hagree]
    rw [hgive]
    constructor
    . exact h.self
    . simp only [call, SortedMap.find?_set, if_true, Option.map_some, History.rates,
        List.map_cons, List.map_nil, h.self, hrx, htx,
        hagree]
    . rw [saidOf_call, said_notedCall, if_pos rfl, hknown]
      exact congrArg (· ++ _) h.calls
  | some history =>
    rw [hhistory, Option.map_some, Option.map_eq_some_iff] at hknown
    obtain ⟨nbrInfo, hfind, hinfo⟩ := hknown
    obtain ⟨hrx, htx⟩ := @noted_of_known cfg s metric nbrInfo hfind
    have hgiven := history.rates_append metric.rxAvgDataRate metric.txAvgDataRate
    rw [← hinfo] at hgiven
    have hgive : t.give metric
        = { t with
            history := some { history with given :=
              history.given ++ [(metric.rxAvgDataRate, metric.txAvgDataRate)] }
            calls := t.calls ++ [.update (s.noted cfg metric).lastRxDataRate
                (s.noted cfg metric).lastTxDataRate] } := by
      unfold Track.give
      rw [hhistory]
      simp only [hgiven, hrx, htx]
    rw [hgive]
    constructor
    . exact h.self
    . simp only [call, SortedMap.find?_set, if_true, Option.map_some, hgiven, hrx, htx]
    . rw [saidOf_call, said_notedCall, if_pos rfl, hfind]
      exact congrArg (· ++ _) h.calls

theorem handleMetric_grows (hknows : cfg.knowsMetrics = true) (s : ModemService) (metric : NeighborMetric)
    : ∃ calls, (s.handleMetric cfg client metric).1.calls = s.calls ++ calls := by
  rw [handleMetric_eq hknows]
  exact ⟨_, rfl⟩

theorem handleMetrics_grows (hknows : cfg.knowsMetrics = true) (s : ModemService)
    (delNeighbors : SortedMap NEMId NeighborInfo)
    (metrics : List NeighborMetric)
    : ∃ calls, (s.handleMetrics cfg client delNeighbors metrics).1.calls = s.calls ++ calls := by
  induction metrics generalizing s delNeighbors with
  | nil => exact ⟨[], (List.append_nil _).symm⟩
  | cons metric metrics ih =>
    obtain ⟨calls, hcalls⟩ := @handleMetric_grows cfg client hknows s metric
    unfold handleMetrics
    simp only
    split
    . exact ⟨calls, hcalls⟩
    . obtain ⟨calls', hcalls'⟩ := ih (s.handleMetric cfg client metric).1 (delNeighbors.erase metric.id)
      refine ⟨calls ++ calls', ?_⟩
      rw [hcalls', hcalls, List.append_assoc]

theorem handleMetrics_follows (hknows : cfg.knowsMetrics = true) (h : Follows nbr s t)
    (hrates : t.history.isNone = true → ∀ metric, metrics.find? (fun metric => metric.id = nbr)
      = some metric →
      lastRate t.selfRates.2 [metric.txAvgDataRate] = lastRate t.selfRates.1 [metric.rxAvgDataRate])
    (hanswered : Answered client (s.handleMetrics cfg client delNeighbors metrics).1)
    : (s.handleMetrics cfg client delNeighbors metrics).2.2 = false
        ∧ Follows nbr (s.handleMetrics cfg client delNeighbors metrics).1
        ((metrics.filter (fun metric => metric.id = nbr)).foldl Track.give t)
        ∧ (s.handleMetrics cfg client delNeighbors metrics).2.1.find? nbr
        = if metrics.any (fun metric => metric.id = nbr) then none else delNeighbors.find? nbr := by
  induction metrics generalizing s t delNeighbors with
  | nil => exact ⟨rfl, h, rfl⟩
  | cons metric metrics ih =>
    have hthrown : (s.handleMetric cfg client metric).2 = false := by
      have hfirst : Answered client (s.handleMetric cfg client metric).1 := by
        unfold handleMetrics at hanswered
        simp only at hanswered
        split at hanswered
        . exact hanswered
        . exact hanswered.of_grows (handleMetrics_grows hknows _ _ _)
      rw [handleMetric_eq hknows] at hfirst ⊢
      exact call_not_thrown hfirst
    have hcons : s.handleMetrics cfg client delNeighbors (metric :: metrics)
        = (s.handleMetric cfg client metric).1.handleMetrics cfg client
            (delNeighbors.erase metric.id) metrics := by
      conv_lhs => unfold handleMetrics
      simp only [hthrown, Bool.false_eq_true, if_false]
    rw [hcons] at hanswered ⊢
    by_cases heq : metric.id = nbr
    . subst heq
      have hown := @handleMetric_own cfg client s t metric hknows h
        (fun hnone => hrates hnone metric (by simp))
      have hhistory : (t.give metric).history.isNone = false := by
        unfold Track.give
        split
        . rfl
        . rfl
      obtain ⟨hnot, hfollows, hfind⟩ := ih hown (fun hnone => absurd hnone (by simp [hhistory])) hanswered
      refine ⟨hnot, ?_, ?_⟩
      . rw [List.filter_cons_of_pos (by simp), List.foldl_cons]
        exact hfollows
      . rw [hfind, SortedMap.find?_erase]
        simp
    . have hother := @handleMetric_other cfg client nbr s t metric hknows h heq
      have hfind? : (metric :: metrics).find? (fun metric => metric.id = nbr) = metrics.find?
          (fun metric => metric.id = nbr) := by
        rw [List.find?_cons_of_neg (by simpa using heq)]
      obtain ⟨hnot, hfollows, hfind⟩ := ih hother
        (fun hnone m hm => hrates hnone m (hfind?.trans hm)) hanswered
      refine ⟨hnot, ?_, ?_⟩
      . rw [List.filter_cons_of_neg (by simpa using heq)]
        exact hfollows
      . rw [hfind, SortedMap.find?_erase]
        simp [heq, Ne.symm heq]

theorem removeNeighbors_grows (s : ModemService) (dels : List (NEMId × NeighborInfo))
    : ∃ calls, (s.removeNeighbors client dels).1.calls = s.calls ++ calls := by
  induction dels generalizing s with
  | nil => exact ⟨[], (List.append_nil _).symm⟩
  | cons del dels ih =>
    unfold removeNeighbors sendDestinationDown
    simp only
    split
    . exact ⟨_, rfl⟩
    . obtain ⟨calls, hcalls⟩ := ih { (s.call client (.destinationDown del.1 del.2.macAddress)).1 with
        currentNeighbors :=
          (s.call client (.destinationDown del.1 del.2.macAddress)).1.currentNeighbors.erase del.1 }
      exact ⟨_, hcalls.trans (List.append_assoc _ _ _)⟩

theorem down_own {nbrInfo : NeighborInfo} (h : Follows nbr s t) (hknown : t.history.isSome = true)
    : Follows nbr
        { (s.call client (.destinationDown nbr nbrInfo.macAddress)).1 with
          currentNeighbors :=
            (s.call client (.destinationDown nbr nbrInfo.macAddress)).1.currentNeighbors.erase nbr }
        t.leave := by
  obtain ⟨history, hhistory⟩ := Option.isSome_iff_exists.mp hknown
  have hleave : t.leave = { t with history := none, calls := t.calls ++ [.down] } := by
    unfold Track.leave
    rw [hhistory]
  rw [hleave]
  constructor
  . exact h.self
  . simp [SortedMap.find?_erase]
  . have hsaid := @saidOf_call client nbr (.destinationDown nbr nbrInfo.macAddress) s
    rw [h.calls] at hsaid
    simpa [Call.said, saidOf] using hsaid

theorem down_other {nbr' : NEMId} {nbrInfo : NeighborInfo} (h : Follows nbr s t) (hne : nbr' ≠ nbr)
    : Follows nbr
        { (s.call client (.destinationDown nbr' nbrInfo.macAddress)).1 with
          currentNeighbors := (s.call client
            (.destinationDown nbr' nbrInfo.macAddress)).1.currentNeighbors.erase nbr' } t := by
  constructor
  . exact h.self
  . simp only [call, SortedMap.find?_erase, if_neg (Ne.symm hne)]
    exact h.rates
  . have hsaid := @saidOf_call client nbr (.destinationDown nbr' nbrInfo.macAddress) s
    rw [h.calls] at hsaid
    simpa [Call.said, saidOf, hne] using hsaid

theorem removeNeighbors_follows {dels : List (NEMId × NeighborInfo)} (h : Follows nbr s t)
    (hdistinct : dels.Pairwise (fun a b => a.1 < b.1))
    (hknown : nbr ∈ dels.map Prod.fst → t.history.isSome = true)
    (hanswered : Answered client (s.removeNeighbors client dels).1)
    : (s.removeNeighbors client dels).2 = false
        ∧ Follows nbr (s.removeNeighbors client dels).1
            (if nbr ∈ dels.map Prod.fst then t.leave else t) := by
  induction dels generalizing s t with
  | nil => exact ⟨rfl, h⟩
  | cons del dels ih =>
    obtain ⟨nbr', nbrInfo⟩ := del
    rw [List.pairwise_cons] at hdistinct
    obtain ⟨hfirst, hrest⟩ := hdistinct
    have hthrown : (s.call client (.destinationDown nbr' nbrInfo.macAddress)).2 = false := by
      apply call_not_thrown
      unfold removeNeighbors sendDestinationDown at hanswered
      simp only at hanswered
      split at hanswered
      . exact hanswered
      . exact hanswered.of_grows (removeNeighbors_grows _ dels)
    have hcons : s.removeNeighbors client ((nbr', nbrInfo) :: dels)
        = ({ (s.call client (.destinationDown nbr' nbrInfo.macAddress)).1 with
            currentNeighbors := (s.call client
              (.destinationDown nbr' nbrInfo.macAddress)).1.currentNeighbors.erase nbr' }
          : ModemService).removeNeighbors client dels := by
      conv_lhs => unfold removeNeighbors sendDestinationDown
      simp only [hthrown, Bool.false_eq_true, if_false]
    rw [hcons] at hanswered ⊢
    by_cases heq : nbr' = nbr
    . subst heq
      have hnot : nbr' ∉ dels.map Prod.fst := by
        intro hmem
        rw [List.mem_map] at hmem
        obtain ⟨del, hdel, heq⟩ := hmem
        have hlt := hfirst del hdel
        rw [heq] at hlt
        exact lt_irrefl _ hlt
      have hdown := @down_own client nbr' s t nbrInfo h (hknown (by simp))
      have hih := ih hdown hrest (fun hmem => absurd hmem hnot) hanswered
      rw [if_neg hnot] at hih
      rw [if_pos (by simp)]
      exact hih
    . have hmem : nbr ∈ ((nbr', nbrInfo) :: dels).map Prod.fst ↔ nbr ∈ dels.map Prod.fst := by
        simp [Ne.symm heq]
      have hdown := @down_other client nbr s t nbr' nbrInfo h heq
      have hih := ih hdown hrest (fun hmem' => hknown (hmem.mpr hmem')) hanswered
      simp only [hmem]
      exact hih

theorem find?_isSome_iff (m : SortedMap NEMId NeighborInfo) (nbr : NEMId)
    : (m.find? nbr).isSome = true ↔ nbr ∈ m.toList.map Prod.fst := by
  rw [Option.isSome_iff_exists, List.mem_map]
  constructor
  . rintro ⟨nbrInfo, hfind⟩
    exact ⟨(nbr, nbrInfo), (m.find?_eq_some_iff nbr nbrInfo).mp hfind, rfl⟩
  . rintro ⟨⟨nbr', nbrInfo⟩, hmem, rfl⟩
    exact ⟨nbrInfo, (m.find?_eq_some_iff nbr' nbrInfo).mpr hmem⟩

theorem Follows.isSome (h : Follows nbr s t)
    : (s.currentNeighbors.find? nbr).isSome = t.history.isSome := by
  have hrates := congrArg Option.isSome h.rates
  simpa using hrates

theorem handleNeighborMetric_grows (hknows : cfg.knowsMetrics = true) (s : ModemService)
    (metrics : List NeighborMetric)
    : ∃ calls, (s.handleNeighborMetric cfg client metrics).1.calls = s.calls ++ calls := by
  obtain ⟨calls, hcalls⟩ := @handleMetrics_grows cfg client hknows s s.currentNeighbors metrics
  unfold handleNeighborMetric
  simp only
  split
  . exact ⟨calls, hcalls⟩
  . obtain ⟨calls', hcalls'⟩ := @removeNeighbors_grows client
      (s.handleMetrics cfg client s.currentNeighbors metrics).1
      (s.handleMetrics cfg client s.currentNeighbors metrics).2.1.toList
    refine ⟨calls ++ calls', ?_⟩
    rw [hcalls', hcalls, List.append_assoc]

theorem handleNeighborMetric_follows (hknows : cfg.knowsMetrics = true) (h : Follows nbr s t)
    (hrates : t.NewRatesAgree nbr (.neighborMetric metrics))
    (hanswered : Answered client (s.handleNeighborMetric cfg client metrics).1)
    : (s.handleNeighborMetric cfg client metrics).2 = false
        ∧ Follows nbr (s.handleNeighborMetric cfg client metrics).1
            (t.observe nbr (.neighborMetric metrics)) := by
  have hloop : Answered client (s.handleMetrics cfg client s.currentNeighbors metrics).1 := by
    unfold handleNeighborMetric at hanswered
    simp only at hanswered
    split at hanswered
    . exact hanswered
    . exact hanswered.of_grows (removeNeighbors_grows _ _)
  obtain ⟨hthrown, hfollows, hfind⟩ := handleMetrics_follows hknows h hrates hloop
  have heq : s.handleNeighborMetric cfg client metrics
      = (s.handleMetrics cfg client s.currentNeighbors metrics).1.removeNeighbors client
          (s.handleMetrics cfg client s.currentNeighbors metrics).2.1.toList := by
    unfold handleNeighborMetric
    simp only [hthrown, Bool.false_eq_true, if_false]
  rw [heq] at hanswered ⊢
  generalize hdel : (s.handleMetrics cfg client s.currentNeighbors metrics).2.1
    = delNeighbors at hfind hanswered ⊢
  simp only [Track.observe]
  by_cases hany : metrics.any (fun metric => metric.id = nbr) = true
  . rw [if_pos hany] at hfind ⊢
    have hnot : nbr ∉ delNeighbors.toList.map Prod.fst := by
      rw [← find?_isSome_iff, hfind]
      simp
    have hremove := removeNeighbors_follows hfollows delNeighbors.sorted
      (fun hmem => absurd hmem hnot) hanswered
    rw [if_neg hnot] at hremove
    exact hremove
  . rw [if_neg hany] at hfind ⊢
    have hfilter : metrics.filter (fun metric => metric.id = nbr) = [] := by
      simpa using hany
    rw [hfilter, List.foldl_nil] at hfollows
    have hmem : nbr ∈ delNeighbors.toList.map Prod.fst ↔ t.history.isSome = true := by
      rw [← find?_isSome_iff, hfind, h.isSome]
    have hremove := removeNeighbors_follows hfollows delNeighbors.sorted
      (fun hmem' => hmem.mp hmem') hanswered
    have hleave : (if nbr ∈ delNeighbors.toList.map Prod.fst then t.leave else t) = t.leave := by
      split
      . rfl
      . next hnot =>
        rw [hmem, Bool.not_eq_true, Option.isSome_eq_false_iff, Option.isNone_iff_eq_none] at hnot
        unfold Track.leave
        rw [hnot]
    rw [hleave] at hremove
    exact hremove

theorem handleMessage_grows (hknows : cfg.knowsMetrics = true) (s : ModemService) (msg : Message)
    : ∃ calls, (s.handleMessage cfg client msg).1.calls = s.calls ++ calls := by
  cases msg with
  | neighborMetric metrics => exact handleNeighborMetric_grows hknows s metrics
  | queueMetric avgDelays => exact ⟨[], (List.append_nil _).symm⟩
  | selfMetric maxDataRate =>
    simp only [handleMessage, handleSelfMetric, sendPeerUpdate, if_pos hknows]
    exact ⟨_, rfl⟩
  | flowControl => exact ⟨[], (List.append_nil _).symm⟩

theorem handleMessage_follows {msg : Message} (hknows : cfg.knowsMetrics = true) (h : Follows nbr s t)
    (hrates : t.NewRatesAgree nbr msg) (hanswered : Answered client (s.handleMessage cfg client msg).1)
    : (s.handleMessage cfg client msg).2 = false
        ∧ Follows nbr (s.handleMessage cfg client msg).1 (t.observe nbr msg) := by
  cases msg with
  | neighborMetric metrics => exact handleNeighborMetric_follows hknows h hrates hanswered
  | queueMetric avgDelays => exact ⟨rfl, h.self, h.rates, h.calls⟩
  | selfMetric maxDataRate =>
    simp only [handleMessage, handleSelfMetric, sendPeerUpdate, if_pos hknows] at hanswered ⊢
    refine ⟨call_not_thrown hanswered, rfl, h.rates, ?_⟩
    rw [saidOf_call]
    exact (List.append_nil _).trans h.calls
  | flowControl => exact ⟨rfl, h⟩

theorem handleControlMessages_grows (hknows : cfg.knowsMetrics = true) (s : ModemService)
    (msgs : List Message)
    : ∃ calls, (s.handleControlMessages cfg client msgs).calls = s.calls ++ calls := by
  induction msgs generalizing s with
  | nil => exact ⟨[], (List.append_nil _).symm⟩
  | cons msg msgs ih =>
    obtain ⟨calls, hcalls⟩ := @handleMessage_grows cfg client hknows s msg
    unfold handleControlMessages
    simp only
    split
    . exact ⟨calls, hcalls⟩
    . obtain ⟨calls', hcalls'⟩ := ih (s.handleMessage cfg client msg).1
      refine ⟨calls ++ calls', ?_⟩
      rw [hcalls', hcalls, List.append_assoc]

theorem handleControlMessages_follows {msgs : List Message} (hknows : cfg.knowsMetrics = true)
    (h : Follows nbr s t)
    (hrates : Guarded (fun t msg => some (t.observe nbr msg))
      (fun t msg => t.NewRatesAgree nbr msg) t msgs)
    (hanswered : Answered client (s.handleControlMessages cfg client msgs))
    : Follows nbr (s.handleControlMessages cfg client msgs) (msgs.foldl (Track.observe nbr) t) := by
  induction msgs generalizing s t with
  | nil => exact h
  | cons msg msgs ih =>
    have hmsg : Answered client (s.handleMessage cfg client msg).1 := by
      unfold handleControlMessages at hanswered
      simp only at hanswered
      split at hanswered
      . exact hanswered
      . exact hanswered.of_grows (handleControlMessages_grows hknows _ msgs)
    obtain ⟨hthrown, hfollows⟩ := handleMessage_follows hknows h hrates.1 hmsg
    have hcons : s.handleControlMessages cfg client (msg :: msgs)
        = (s.handleMessage cfg client msg).1.handleControlMessages cfg client msgs := by
      conv_lhs => unfold handleControlMessages
      simp only [hthrown, Bool.false_eq_true, if_false]
    rw [hcons] at hanswered ⊢
    exact ih hfollows (hrates.2 _ rfl) hanswered

def handleAll (cfg : Config) (client : Nat → Outcome) (s : ModemService)
    (arrivals : List (List Message)) : ModemService :=
  arrivals.foldl (handleControlMessages cfg client) s

theorem handleAll_grows (hknows : cfg.knowsMetrics = true) (s : ModemService)
    (arrivals : List (List Message))
    : ∃ calls, (s.handleAll cfg client arrivals).calls = s.calls ++ calls := by
  induction arrivals generalizing s with
  | nil => exact ⟨[], (List.append_nil _).symm⟩
  | cons msgs arrivals ih =>
    obtain ⟨calls, hcalls⟩ := @handleControlMessages_grows cfg client hknows s msgs
    obtain ⟨calls', hcalls'⟩ := ih (s.handleControlMessages cfg client msgs)
    refine ⟨calls ++ calls', ?_⟩
    rw [handleAll, List.foldl_cons, ← handleAll, hcalls', hcalls, List.append_assoc]

theorem run_observe (t : Track) (msgs : List Message)
    : run (fun t msg => some (t.observe nbr msg)) t msgs = some (msgs.foldl (Track.observe nbr) t) := by
  induction msgs generalizing t with
  | nil => rfl
  | cons msg msgs ih => exact ih (t.observe nbr msg)

theorem handleAll_follows {arrivals : List (List Message)} (hknows : cfg.knowsMetrics = true)
    (h : Follows nbr s t)
    (hrates : Guarded (fun t msg => some (t.observe nbr msg))
      (fun t msg => t.NewRatesAgree nbr msg) t arrivals.flatten)
    (hanswered : Answered client (s.handleAll cfg client arrivals))
    : Follows nbr (s.handleAll cfg client arrivals) (arrivals.flatten.foldl (Track.observe nbr) t) := by
  induction arrivals generalizing s t with
  | nil => exact h
  | cons msgs arrivals ih =>
    rw [List.flatten_cons, guarded_append_iff] at hrates
    rw [List.flatten_cons, List.foldl_append]
    have hmsgs : Answered client (s.handleControlMessages cfg client msgs) :=
      hanswered.of_grows (handleAll_grows hknows _ arrivals)
    exact ih (handleControlMessages_follows hknows h hrates.1 hmsgs)
      (hrates.2 _ (run_observe t msgs)) hanswered

def answersOf (client : Nat → Outcome) (nbr : NEMId) (s : ModemService) : List (Said × Outcome) :=
  s.calls.zipIdx.filterMap (fun entry => (entry.1.said nbr).map (fun said => (said, client entry.2)))

theorem map_fst_answersOf (s : ModemService) : (s.answersOf client nbr).map Prod.fst = s.saidOf nbr := by
  have hfst : (fun entry : Call × Nat =>
    ((entry.1.said nbr).map (fun said => (said, client entry.2))).map Prod.fst)
      = (Call.said nbr) ∘ Prod.fst := by
    funext entry
    cases hsaid : entry.1.said nbr with
    | none => simp [hsaid]
    | some said => simp [hsaid]
  unfold answersOf saidOf
  rw [List.map_filterMap, hfst, ← List.filterMap_map, List.zipIdx_map_fst]

theorem success_of_up {rx tx : Nat} {outcome : Outcome} (hanswered : Answered client s)
    (h : (.up rx tx, outcome) ∈ s.answersOf client nbr)
    : outcome = .success := by
  unfold answersOf at h
  rw [List.mem_filterMap] at h
  obtain ⟨⟨c, k⟩, hmem, hsaid⟩ := h
  rw [List.mem_zipIdx_iff_getElem?] at hmem
  rw [Option.map_eq_some_iff] at hsaid
  obtain ⟨said, hsaid, heq⟩ := hsaid
  cases heq
  apply (hanswered k c hmem).2
  cases c with
  | destinationUp nbr' macAddress metrics => rfl
  | destinationUpdate nbr' macAddress metrics =>
    simp only [Call.said] at hsaid
    split at hsaid
    . simp at hsaid
    . simp at hsaid
  | destinationDown nbr' macAddress =>
    simp only [Call.said] at hsaid
    split at hsaid
    . simp at hsaid
    . simp at hsaid
  | peerUpdate metrics => simp [Call.said] at hsaid

theorem run_nextUp {answers : List (Said × Outcome)}
    (h : ∀ rx tx outcome, (.up rx tx, outcome) ∈ answers → outcome = .success)
    (up : Bool)
    : run nextUp up answers = run (fun up said => nextUp up (said, .success)) up
        (answers.map Prod.fst) := by
  induction answers generalizing up with
  | nil => rfl
  | cons answer answers ih =>
    obtain ⟨said, outcome⟩ := answer
    have hfirst : nextUp up (said, outcome) = nextUp up (said, .success) := by
      cases said with
      | up rx tx => rw [h rx tx outcome List.mem_cons_self]
      | update rx tx =>
        cases up with
        | false => rfl
        | true => rfl
      | down =>
        cases up with
        | false => rfl
        | true => rfl
    rw [run_cons, List.map_cons, run_cons, hfirst]
    congr 1
    funext up'
    exact ih (fun rx tx outcome hmem => h rx tx outcome (List.mem_cons_of_mem _ hmem)) up'

/--
In every run in which no call throws, every up succeeds and the rates of each new neighbour agree,
the client is told about a neighbour what the reports say.
-/
theorem reports_followed {arrivals : List (List Message)} (hknows : cfg.knowsMetrics = true)
    (hanswered : Answered client (handleAll cfg client {} arrivals))
    (hrates : Guarded (fun (t : Track) msg => some (t.observe nbr msg))
      (fun t msg => t.NewRatesAgree nbr msg) {} arrivals.flatten)
    : ((handleAll cfg client {} arrivals).answersOf client nbr).map Prod.fst
        = (arrivals.flatten.foldl (Track.observe nbr) {}).calls
        ∧ run nextUp false ((handleAll cfg client {} arrivals).answersOf client nbr)
        = some ((handleAll cfg client {} arrivals).currentNeighbors.find? nbr).isSome
        ∧ (((handleAll cfg client {} arrivals).currentNeighbors.find? nbr).isSome = true
        ↔
      nbr ∈ arrivals.flatten.foldl reported []) := by
  have hinit : Follows nbr {} {} := ⟨rfl, by simp, rfl⟩
  have hfollows := handleAll_follows hknows hinit hrates hanswered
  have hsound := @Track.sound_foldl nbr {} [] arrivals.flatten (Track.sound_init nbr)
  have hcalls := (@map_fst_answersOf client nbr _).trans hfollows.calls
  refine ⟨hcalls, ?_, ?_⟩
  . rw [run_nextUp (fun _ _ _ hmem => success_of_up hanswered hmem), hcalls, hfollows.isSome]
    exact hsound.calls
  . rw [hfollows.isSome]
    exact hsound.reported

def prefixConfig : Config where
  destinationAdvertisementEnable := false
  nemEtherAddrMap := .empty
  etherOUI := [2, 2, 0, 0, 0, 0]
  knowsMetrics := true

def comeAndLeave : List (List Message) :=
  [[.selfMetric 100], [.neighborMetric [⟨1, 10, 10⟩, ⟨2, 0, 0⟩], .queueMetric [5, 7]],
    [.neighborMetric [⟨1, 0, 20⟩]],
    [.neighborMetric []]]

theorem reports_followed_come_and_leave
    : (handleAll prefixConfig (fun _ => .success) {} comeAndLeave).answersOf (fun _ => .success) 1
        = [(.up 10 10, .success), (.update 10 20, .success), (.down, .success)]
        ∧ ((handleAll prefixConfig (fun _ => .success) {} comeAndLeave).answersOf
          (fun _ => .success) 1).map Prod.fst
        = (comeAndLeave.flatten.foldl (Track.observe 1) {}).calls := by
  have hanswered : Answered (fun _ => .success)
      (handleAll prefixConfig (fun _ => .success) {} comeAndLeave) := by
    intro k c hc
    simp
  have hrates : Guarded (fun (t : Track) msg => some (t.observe 1 msg))
    (fun t msg => t.NewRatesAgree 1 msg) {} comeAndLeave.flatten := by
    decide +kernel
  exact ⟨by decide +kernel, (reports_followed rfl hanswered hrates).1⟩

theorem reports_not_followed
    : (handleAll prefixConfig (fun _ => .success) {} [[.neighborMetric [⟨1, 10, 20⟩]]]).saidOf 1
        = [.up 10 10]
      ∧ (Track.observe 1 {} (.neighborMetric [⟨1, 10, 20⟩])).calls = [.up 10 20]
      ∧ run nextUp false ((handleAll prefixConfig (fun _ => .failure) {}
          [[.neighborMetric [⟨1, 10, 10⟩]], [.neighborMetric [⟨1, 10, 10⟩]]]).answersOf
            (fun _ => .failure) 1) = none
      ∧ (handleAll prefixConfig (fun _ => .exception) {}
        [[.neighborMetric [⟨1, 10, 10⟩, ⟨2, 10, 10⟩]]]).saidOf 2 = []
      ∧ ((handleAll prefixConfig (fun _ => .exception) {}
          [[.neighborMetric [⟨1, 10, 10⟩, ⟨2, 10, 10⟩]]]).currentNeighbors.find? 2) = none := by
  decide +kernel

end ModemService
end DlepLayer
end Emane

import Mathlib.Order.Bounds.Basic
import Emane.Lib.Outcome
import Emane.Lib.Polyline
import Emane.Lib.SortedFold
import Emane.Tdma.Lemmas.PcrEntry

/-!
This module contains what a curve is after its entries have been put into it and the gaps between
them have been filled: the line through the points of the entries.
-/

namespace Emane
namespace Tdma
namespace Pcr

open ParameterConvert

namespace Curve

variable {points : List (Int × ℚ)} {k : Int}

theorem find?_insertAll (curve : Curve) (points : List (Int × ℚ)) (k : Int)
    : (curve.insertAll points).find? k = (curve.find? k).or
        ((points.find? (fun e => e.1 = k)).map Prod.snd) := by
  exact SortedMap.find?_foldl_insert points curve k

theorem find?_of_graph {v : Int → ℚ} (h : ∀ e ∈ points, e.2 = v e.1) (k : Int)
    : (points.find? (fun e => e.1 = k)).map Prod.snd = if k ∈ points.map Prod.fst then some (v k)
        else none := by
  induction points with
  | nil => rfl
  | cons e points ih =>
    rw [List.forall_mem_cons] at h
    by_cases hk : e.1 = k
    . rw [List.find?_cons_of_pos (by simp [hk]), if_pos (by simp [hk]), Option.map_some, h.1, hk]
    . have hmem : k ∈ (e :: points).map Prod.fst ↔ k ∈ points.map Prod.fst := by
        rw [List.map_cons, List.mem_cons]
        exact or_iff_right (Ne.symm hk)
      rw [List.find?_cons_of_neg (by simp [hk]), ih h.2, if_congr hmem rfl rfl]

theorem find?_between (x0 x1 : Int) (y1 slope : ℚ) (k : Int)
    : ((between x0 x1 y1 slope).find? (fun e => e.1 = k)).map Prod.snd
        =
      if x0 ≤ k ∧ k < x1 then some (y1 - (x1 - k) * slope) else none := by
  have hgraph : ∀ e ∈ between x0 x1 y1 slope, e.2 = y1 - (x1 - (e.1 : ℚ)) * slope := by
    intro e he
    obtain ⟨j, -, rfl⟩ := List.mem_map.mp he
    exact rfl
  have hmem : k ∈ (between x0 x1 y1 slope).map Prod.fst ↔ x0 ≤ k ∧ k < x1 := by
    simp only [between, List.map_map, List.mem_map, List.mem_range, Function.comp]
    constructor
    . rintro ⟨j, hj, rfl⟩
      omega
    . intro hin
      exact ⟨(k - x0).toNat, by omega, by omega⟩
  rw [find?_of_graph (v := fun k => y1 - (x1 - (k : ℚ)) * slope) hgraph, if_congr hmem rfl rfl]

def Close (points : List (Int × ℚ)) : Prop :=
  ∀ p q, Polyline.Neighbours points p q → q.1 - p.1 ≤ 2^31 - 1

theorem interpolate_ok_iff_isChain (points : List (Int × ℚ)) (interpolation : Curve)
    : (∃ curve, interpolate points interpolation = .ok curve)
        ↔ points.IsChain (fun p q => q.1 - p.1 ≤ 2^31 - 1) := by
  induction points generalizing interpolation with
  | nil => exact iff_of_true ⟨interpolation, rfl⟩ .nil
  | cons p points ih =>
    cases points with
    | nil => exact iff_of_true ⟨interpolation, rfl⟩ (.singleton p)
    | cons q points =>
      rw [interpolate, List.isChain_cons_cons]
      split
      . next hfar => exact iff_of_false (by simp) (fun h => absurd h.1 (not_le.mpr hfar))
      . next hclose => exact (ih _).trans (and_iff_right (not_lt.mp hclose)).symm

theorem straight_eq {p q : Int × ℚ} (h : p.1 < q.1) (k : Int)
    : q.2 - (q.1 - k) * ((q.2 - p.2) / (q.1 - p.1)) = Polyline.straight p q k := by
  have hne : (q.1 - p.1 : ℚ) ≠ 0 := by
    rw [sub_ne_zero]
    exact Int.cast_injective.ne h.ne'
  unfold Polyline.straight
  field_simp
  ring

theorem find?_interpolate {interpolation curve : Curve} (hpoints : Polyline.Ascending points)
    (h : interpolate points interpolation = .ok curve) (k : Int)
    : curve.find? k = (interpolation.find? k).or
        (if ∃ e ∈ points, k < e.1 then Polyline.value points k else none) := by
  induction points generalizing interpolation with
  | nil =>
    cases h
    simp
  | cons p points ih =>
    obtain ⟨hhead, htail⟩ := List.pairwise_cons.mp hpoints
    cases points with
    | nil =>
      cases h
      simp only [List.mem_singleton, exists_eq_left]
      split
      . next hlt => rw [Polyline.value_eq_none_of_lt hpoints hlt, Option.or_none]
      . rw [Option.or_none]
    | cons q points =>
      have hpq : p.1 < q.1 := hhead q List.mem_cons_self
      rw [interpolate] at h
      split at h
      . cases h
      . rw [ih htail h, find?_insertAll, find?_between, Option.or_assoc]
        congr 1
        by_cases hq : q.1 ≤ k
        . rw [if_neg (fun hin => absurd hin.2 (not_lt.mpr hq)), Option.none_or,
            Polyline.value_cons_of_le hq]
          have hiff : (∃ e ∈ p :: q :: points, k < e.1) ↔ ∃ e ∈ q :: points, k < e.1 := by
            rw [List.exists_mem_cons_iff]
            exact or_iff_right (not_lt.mpr (le_trans (le_of_lt hpq) hq))
          rw [if_congr hiff rfl rfl]
        . have hlt : k < q.1 := not_le.mp hq
          have hbefore : ∃ e ∈ p :: q :: points, k < e.1 := ⟨q, by simp, hlt⟩
          rw [Polyline.value_eq_none_of_lt htail hlt, ite_self, Option.or_none, if_pos hbefore]
          by_cases hp : p.1 ≤ k
          . rw [if_pos ⟨hp, hlt⟩, Polyline.value_cons_of_between hp hlt, straight_eq hpq]
          . rw [if_neg (fun hin => hp hin.1), Polyline.value_eq_none_of_lt hpoints (not_le.mp hp)]

theorem ascending (curve : Curve) : Polyline.Ascending curve.toList := by
  exact curve.sorted

theorem interpolate_ok_iff (curve : Curve) (interpolation : Curve)
    : (∃ curve', interpolate curve.toList interpolation = .ok curve') ↔ Close curve.toList := by
  rw [interpolate_ok_iff_isChain, Polyline.isChain_iff curve.ascending]
  rfl

theorem find?_insertAll_interpolate {curve interpolation : Curve}
    (h : interpolate curve.toList .empty = .ok interpolation) (k : Int)
    : (curve.insertAll interpolation.toList).find? k = Polyline.value curve.toList k := by
  have hinterpolation : (interpolation.toList.find? (fun e => e.1 = k)).map Prod.snd
    = interpolation.find? k := rfl
  rw [find?_insertAll, hinterpolation, find?_interpolate curve.ascending h, SortedMap.find?_empty,
    Option.none_or]
  cases hfind : curve.find? k with
  | some y =>
    exact (Polyline.value_of_mem (p := (k, y)) curve.ascending (SortedMap.mem_toList_of_find? hfind)).symm
  | none =>
    split
    . rfl
    . next hlast =>
      cases hvalue : Polyline.value curve.toList k with
      | none => rfl
      | some y =>
        exfalso
        have hascending := curve.ascending
        cases hlist : curve.toList with
        | nil =>
          rw [hlist] at hvalue
          cases hvalue
        | cons p points =>
          rw [hlist] at hvalue hlast hascending
          obtain ⟨-, e, he, hle⟩ := (Polyline.value_isSome_iff hascending).mp ⟨y, hvalue⟩
          have heq : k = e.1 := le_antisymm hle (not_lt.mp (fun hlt => hlast ⟨e, he, hlt⟩))
          have hmem : e ∈ curve.toList := hlist ▸ he
          have hsome := SortedMap.find?_of_mem hmem
          rw [← heq, hfind] at hsome
          cases hsome

end Curve

def Limited.addPoint (l : Limited) (p : Int × ℚ) : Limited :=
  ⟨min p.1 l.minScaledSINR, max p.1 l.maxScaledSINR, l.curve.insert p.1 p.2⟩

def Limited.unset : Limited :=
  ⟨2^31 - 1, -2^31, .empty⟩

section

variable {f : Floating ℚ} {dataRate : Nat}

theorem insertEntry_eq_ok_iff (l : Limited) (e : Entry) (l' : Limited)
    : insertEntry f dataRate l e = .ok l' ↔ ∃ p, loadEntry f e = .ok p ∧ l.curve.find? p.1 = none
        ∧ l' = l.addPoint p := by
  unfold insertEntry
  rw [bind_eq_ok_iff]
  refine exists_congr (fun p => and_congr_right (fun _ => ?_))
  obtain ⟨scaledSINR, por⟩ := p
  dsimp only
  by_cases hcontains : l.curve.contains scaledSINR = true
  . obtain ⟨v, hv⟩ := SortedMap.contains_eq_true_iff.mp hcontains
    refine iff_of_false ?_ (fun h => absurd (hv.symm.trans h.1) (Option.some_ne_none v))
    rw [if_pos hcontains]
    exact fun h => by cases h
  . have hnone := SortedMap.contains_eq_false_iff.mp (Bool.not_eq_true _ ▸ hcontains)
    rw [if_neg hcontains, and_iff_right hnone]
    exact ⟨fun h => (Except.ok.inj h).symm, fun h => congrArg Except.ok h.symm⟩

theorem find?_addPoint_eq_none_iff (l : Limited) (p : Int × ℚ) (k : Int)
    : (l.addPoint p).curve.find? k = none ↔ k ≠ p.1 ∧ l.curve.find? k = none := by
  rw [Limited.addPoint, SortedMap.find?_insert]
  split
  . next heq => simp [heq]
  . next hne => simp [hne]

theorem foldlM_insertEntry_iff (entries : List Entry) (l l' : Limited)
    : entries.foldlM (insertEntry f dataRate) l = .ok l'
        ↔
      ∃ points, List.Forall₂ (fun e p => loadEntry f e = .ok p) entries points
        ∧ (points.map Prod.fst).Nodup
        ∧ (∀ p ∈ points, l.curve.find? p.1 = none) ∧ l' = points.foldl Limited.addPoint l := by
  exact foldlM_fresh_iff (fun e p => loadEntry f e = .ok p)
    (fun l k => l.curve.find? k = none) insertEntry_eq_ok_iff
    find?_addPoint_eq_none_iff entries l l'

end

section

variable {points : List (Int × ℚ)}

theorem curve_foldl_addPoint (points : List (Int × ℚ)) (l : Limited)
    : (points.foldl Limited.addPoint l).curve = l.curve.insertAll points := by
  induction points generalizing l with
  | nil => rfl
  | cons p points ih => exact ih (l.addPoint p)

theorem minScaledSINR_foldl_addPoint (points : List (Int × ℚ)) (l : Limited)
    : (points.foldl Limited.addPoint l).minScaledSINR ≤ l.minScaledSINR
      ∧ (∀ p ∈ points, (points.foldl Limited.addPoint l).minScaledSINR ≤ p.1)
      ∧ ((points.foldl Limited.addPoint l).minScaledSINR = l.minScaledSINR
        ∨ ∃ p ∈ points, p.1 = (points.foldl Limited.addPoint l).minScaledSINR) := by
  induction points generalizing l with
  | nil => exact ⟨le_refl _, fun _ h => absurd h List.not_mem_nil, .inl rfl⟩
  | cons p points ih =>
    obtain ⟨hle, hall, hattained⟩ := ih (l.addPoint p)
    refine ⟨le_trans hle (min_le_right _ _), List.forall_mem_cons.mpr
      ⟨le_trans hle (min_le_left _ _), hall⟩, ?_⟩
    rcases hattained with heq | ⟨q, hq, heq⟩
    . rcases min_choice p.1 l.minScaledSINR with hp | hl
      . exact .inr ⟨p, List.mem_cons_self, (heq.trans hp).symm⟩
      . exact .inl (heq.trans hl)
    . exact .inr ⟨q, List.mem_cons_of_mem _ hq, heq⟩

theorem maxScaledSINR_foldl_addPoint (points : List (Int × ℚ)) (l : Limited)
    : l.maxScaledSINR ≤ (points.foldl Limited.addPoint l).maxScaledSINR
      ∧ (∀ p ∈ points, p.1 ≤ (points.foldl Limited.addPoint l).maxScaledSINR)
      ∧ ((points.foldl Limited.addPoint l).maxScaledSINR = l.maxScaledSINR
        ∨ ∃ p ∈ points, p.1 = (points.foldl Limited.addPoint l).maxScaledSINR) := by
  induction points generalizing l with
  | nil => exact ⟨le_refl _, fun _ h => absurd h List.not_mem_nil, .inl rfl⟩
  | cons p points ih =>
    obtain ⟨hle, hall, hattained⟩ := ih (l.addPoint p)
    refine ⟨le_trans (le_max_right _ _) hle, List.forall_mem_cons.mpr
      ⟨le_trans (le_max_left _ _) hle, hall⟩, ?_⟩
    rcases hattained with heq | ⟨q, hq, heq⟩
    . rcases max_choice p.1 l.maxScaledSINR with hp | hl
      . exact .inr ⟨p, List.mem_cons_self, (heq.trans hp).symm⟩
      . exact .inl (heq.trans hl)
    . exact .inr ⟨q, List.mem_cons_of_mem _ hq, heq⟩

theorem mem_toList_insertAll (hnodup : (points.map Prod.fst).Nodup) (p : Int × ℚ)
    : p ∈ (Curve.insertAll .empty points).toList ↔ p ∈ points := by
  exact SortedMap.mem_foldl_insert_empty_iff hnodup p

end

def positions (points : List (Int × ℚ)) : Set Int :=
  {k | ∃ p ∈ points, p.1 = k}

structure Limited.Through (l : Limited) (points : List (Int × ℚ)) : Prop where
  least : IsLeast (positions points) l.minScaledSINR
  greatest : IsGreatest (positions points) l.maxScaledSINR
  line : ∃ ordered, Polyline.Ascending ordered ∧ (∀ p, p ∈ ordered ↔ p ∈ points)
    ∧ ∀ k, l.curve.find? k = Polyline.value ordered k

def InRange (points : List (Int × ℚ)) : Prop :=
  ∀ p ∈ points, -2^31 ≤ p.1 ∧ p.1 ≤ 2^31 - 1

section

variable {f : Floating ℚ} {dataRate : Nat} {entries : List Entry}

theorem loadEntries_eq_ok_iff {l : Limited}
    : loadEntries f dataRate entries = .ok l
        ↔
      ∃ l₀ interpolation, entries.foldlM (insertEntry f dataRate) Limited.unset = .ok l₀
        ∧ Curve.interpolate l₀.curve.toList .empty = .ok interpolation
        ∧ l = { l₀ with curve := l₀.curve.insertAll interpolation.toList } := by
  have hunfold : loadEntries f dataRate entries
      = (entries.foldlM (insertEntry f dataRate) Limited.unset).bind (fun l₀ =>
          (Curve.interpolate l₀.curve.toList .empty).bind (fun interpolation =>
            .ok { l₀ with curve := l₀.curve.insertAll interpolation.toList })) := rfl
  rw [hunfold]
  cases entries.foldlM (insertEntry f dataRate) Limited.unset with
  | error e => exact iff_of_false (by simp [Except.bind]) (fun ⟨l₀, _, h, _⟩ => by cases h)
  | ok l₀ =>
    cases hinterpolate : Curve.interpolate l₀.curve.toList .empty with
    | error e =>
      refine iff_of_false (by simp [Except.bind, hinterpolate]) ?_
      rintro ⟨l₀', interpolation, h, h', -⟩
      cases h
      rw [hinterpolate] at h'
      cases h'
    | ok interpolation =>
      simp only [Except.bind, hinterpolate]
      constructor
      . intro h
        exact ⟨l₀, interpolation, rfl, hinterpolate, (Except.ok.inj h).symm⟩
      . rintro ⟨l₀', interpolation', h, h', rfl⟩
        cases h
        rw [hinterpolate] at h'
        cases h'
        rfl

theorem curve_unset (points : List (Int × ℚ))
    : (points.foldl Limited.addPoint Limited.unset).curve = Curve.insertAll .empty points := by
  exact curve_foldl_addPoint points Limited.unset

theorem close_iff {points : List (Int × ℚ)} (hnodup : (points.map Prod.fst).Nodup)
    : Curve.Close (points.foldl Limited.addPoint Limited.unset).curve.toList ↔ Curve.Close points := by
  rw [curve_unset]
  exact forall₂_congr
    (fun p q => imp_congr_left (Polyline.Neighbours.congr (mem_toList_insertAll hnodup)))

theorem loadEntries_iff
    : (∃ l, loadEntries f dataRate entries = .ok l)
        ↔
      ∃ points, List.Forall₂ (fun e p => loadEntry f e = .ok p) entries points
          ∧ (points.map Prod.fst).Nodup ∧ Curve.Close points := by
  simp only [loadEntries_eq_ok_iff]
  constructor
  . rintro ⟨l, l₀, interpolation, hfold, hinterpolate, -⟩
    obtain ⟨points, hpoints, hnodup, -, rfl⟩ := (foldlM_insertEntry_iff _ _ _).mp hfold
    exact ⟨points, hpoints, hnodup, (close_iff hnodup).mp
      ((Curve.interpolate_ok_iff _ _).mp ⟨interpolation, hinterpolate⟩)⟩
  . rintro ⟨points, hpoints, hnodup, hclose⟩
    obtain ⟨interpolation, hinterpolate⟩ := (Curve.interpolate_ok_iff _ .empty).mpr
      ((close_iff hnodup).mpr hclose)
    exact ⟨_, _, interpolation, (foldlM_insertEntry_iff _ _ _).mpr
      ⟨points, hpoints, hnodup, fun _ _ => rfl, rfl⟩, hinterpolate, rfl⟩

theorem points_unique {points points' : List (Int × ℚ)}
    (h : List.Forall₂ (fun e p => loadEntry f e = .ok p) entries points)
    (h' : List.Forall₂ (fun e p => loadEntry f e = .ok p) entries points')
    : points = points' := by
  induction h generalizing points' with
  | nil => exact (List.forall₂_nil_left_iff.mp h').symm
  | cons hp _ ih =>
    obtain ⟨p', points', hp', hpoints', rfl⟩ := List.forall₂_cons_left_iff.mp h'
    rw [Except.ok.inj (hp.symm.trans hp'), ih hpoints']

theorem through_of_loadEntries {l : Limited} {points : List (Int × ℚ)}
    (h : loadEntries f dataRate entries = .ok l)
    (hpoints : List.Forall₂ (fun e p => loadEntry f e = .ok p) entries points) (hne : points ≠ [])
    (hrange : InRange points)
    : l.Through points := by
  obtain ⟨l₀, interpolation, hfold, hinterpolate, rfl⟩ := loadEntries_eq_ok_iff.mp h
  obtain ⟨points', hpoints', hnodup, -, rfl⟩ := (foldlM_insertEntry_iff _ _ _).mp hfold
  obtain rfl := points_unique hpoints hpoints'
  obtain ⟨p, hp⟩ := List.exists_mem_of_ne_nil points hne
  obtain ⟨-, hmin, hleast⟩ := minScaledSINR_foldl_addPoint points Limited.unset
  obtain ⟨-, hmax, hgreatest⟩ := maxScaledSINR_foldl_addPoint points Limited.unset
  refine ⟨⟨?_, ?_⟩, ⟨?_, ?_⟩, _, Curve.ascending _, ?_, Curve.find?_insertAll_interpolate hinterpolate⟩
  . rcases hleast with heq | hattained
    . exact ⟨p, hp, le_antisymm (le_of_le_of_eq (hrange p hp).2 heq.symm) (hmin p hp)⟩
    . exact hattained
  . rintro _ ⟨q, hq, rfl⟩
    exact hmin q hq
  . rcases hgreatest with heq | hattained
    . exact ⟨p, hp, le_antisymm (hmax p hp) (le_of_eq_of_le heq (hrange p hp).1)⟩
    . exact hattained
  . rintro _ ⟨q, hq, rfl⟩
    exact hmax q hq
  . rw [curve_unset]
    exact mem_toList_insertAll hnodup

end

end Pcr
end Tdma
end Emane

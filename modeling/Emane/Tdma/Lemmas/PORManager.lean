import Emane.Tdma.Lemmas.PcrCurve

/-!
This module contains what is looked up after a document has been loaded, and for which documents
this is what the document says.
-/

namespace Emane
namespace Tdma
namespace Pcr

open ParameterConvert

theorem truncate_mono {q r : ℚ} (h : q ≤ r) : truncate q ≤ truncate r := by
  unfold truncate
  split
  . next hq =>
    rw [if_pos (le_trans hq h)]
    exact Int.floor_le_floor h
  . next hq =>
    split
    . next hr =>
      have hleft : ⌈q⌉ ≤ 0 := Int.ceil_le.mpr (by simpa using le_of_lt (not_le.mp hq))
      exact le_trans hleft (Int.floor_nonneg.mpr hr)
    . exact Int.ceil_le_ceil h

theorem truncate_intCast (k : Int) : truncate (k : ℚ) = k := by
  unfold truncate
  rw [Int.floor_intCast, Int.ceil_intCast, ite_self]

structure Powers (powf : ℚ → ℚ → ℚ) : Prop where
  nonneg : ∀ a e, 0 ≤ a → 0 ≤ e → 0 ≤ powf a e
  mono : ∀ a b e, 0 ≤ a → a ≤ b → 0 ≤ e → powf a e ≤ powf b e
  one_left : ∀ e, powf 1 e = 1
  one_right : ∀ a, powf a 1 = a

def Rises (points : List (Int × ℚ)) : Prop :=
  ∀ p ∈ points, ∀ q ∈ points, p.1 ≤ q.1 → p.2 ≤ q.2

/--
A curve has exactly one value at every position between its ends, on the straight line between the
points beside it.
-/
structure Limited.Right (powf : ℚ → ℚ → ℚ) (m : PORManager) (dataRate : Nat)
    (points : List (Int × ℚ)) (l : Limited) : Prop where
  keys : ∀ k, (∃ y, l.curve.find? k = some y) ↔ (∃ p ∈ points, p.1 ≤ k) ∧ ∃ q ∈ points, k ≤ q.1
  atPoints : ∀ p ∈ points, l.curve.find? p.1 = some p.2
  between : ∀ p q, Polyline.Neighbours points p q → ∀ k, p.1 ≤ k → k ≤ q.1
    → l.curve.find? k = some (Polyline.straight p q k)
  mono : Rises points → ∀ sinr sinr' length y y', sinr ≤ sinr'
    → m.getPOR powf dataRate sinr length = some y →
    m.getPOR powf dataRate sinr' length = some y' → y ≤ y'

def Capped (points : List (Int × ℚ)) : Prop :=
  Rises points → (∀ p ∈ points, p.1 < 2^31 - 1) → ∀ p ∈ points, p.2 ≤ 1

namespace Limited.Through

variable {l : Limited} {points : List (Int × ℚ)}

theorem keys (h : l.Through points) (k : Int)
    : (∃ y, l.curve.find? k = some y) ↔ l.minScaledSINR ≤ k ∧ k ≤ l.maxScaledSINR := by
  obtain ⟨ordered, hascending, hmem, hline⟩ := h.line
  simp only [hline]
  obtain ⟨p, hp, hmin⟩ := h.least.1
  cases ordered with
  | nil => exact absurd ((hmem p).mpr hp) List.not_mem_nil
  | cons first ordered =>
    have hfirst : first.1 = l.minScaledSINR := by
      refine le_antisymm ?_ (h.least.2 ⟨first, (hmem first).mp List.mem_cons_self, rfl⟩)
      rw [← hmin]
      rcases List.mem_cons.mp ((hmem p).mpr hp) with rfl | hrest
      . exact le_refl _
      . exact le_of_lt ((List.pairwise_cons.mp hascending).1 p hrest)
    rw [Polyline.value_isSome_iff hascending, hfirst]
    refine and_congr_right (fun _ => ?_)
    constructor
    . rintro ⟨e, he, hle⟩
      exact le_trans hle (h.greatest.2 ⟨e, (hmem e).mp he, rfl⟩)
    . intro hle
      obtain ⟨q, hq, hmax⟩ := h.greatest.1
      exact ⟨q, (hmem q).mpr hq, le_of_le_of_eq hle hmax.symm⟩

theorem keys_points (h : l.Through points) (k : Int)
    : (∃ y, l.curve.find? k = some y) ↔ (∃ p ∈ points, p.1 ≤ k) ∧ ∃ q ∈ points, k ≤ q.1 := by
  rw [h.keys]
  constructor
  . rintro ⟨hmin, hmax⟩
    obtain ⟨p, hp, hpmin⟩ := h.least.1
    obtain ⟨q, hq, hqmax⟩ := h.greatest.1
    exact ⟨⟨p, hp, le_of_eq_of_le hpmin hmin⟩, q, hq, le_of_le_of_eq hmax hqmax.symm⟩
  . rintro ⟨⟨p, hp, hple⟩, q, hq, hqle⟩
    exact ⟨le_trans (h.least.2 ⟨p, hp, rfl⟩) hple, le_trans hqle (h.greatest.2 ⟨q, hq, rfl⟩)⟩

theorem atPoints (h : l.Through points) {p : Int × ℚ} (hp : p ∈ points)
    : l.curve.find? p.1 = some p.2 := by
  obtain ⟨ordered, hascending, hmem, hline⟩ := h.line
  rw [hline]
  exact Polyline.value_of_mem hascending ((hmem p).mpr hp)

variable {k : Int}

theorem between (h : l.Through points) {p q : Int × ℚ} (hn : Polyline.Neighbours points p q)
    (hp : p.1 ≤ k) (hq : k ≤ q.1)
    : l.curve.find? k = some (Polyline.straight p q k) := by
  obtain ⟨ordered, hascending, hmem, hline⟩ := h.line
  obtain ⟨before, after, rfl⟩ := ((Polyline.Neighbours.congr hmem).mpr hn).adjacent hascending
  rw [hline]
  exact Polyline.value_of_neighbours hascending hp hq

variable {y : ℚ}

theorem mono (h : l.Through points) (hrises : Rises points) {k' : Int} (hk : k ≤ k') {y' : ℚ}
    (hy : l.curve.find? k = some y)
    (hy' : l.curve.find? k' = some y')
    : y ≤ y' := by
  obtain ⟨ordered, hascending, hmem, hline⟩ := h.line
  have hpairwise : ordered.Pairwise (fun p q => p.2 ≤ q.2) :=
    hascending.imp_of_mem
      (fun {p q} hp hq hlt => hrises p ((hmem p).mp hp) q ((hmem q).mp hq) (le_of_lt hlt))
  rw [hline] at hy hy'
  exact Polyline.value_mono hascending hpairwise hk hy hy'

theorem nonneg (h : l.Through points) (hrises : Rises points) (hpos : ∀ p ∈ points, 0 ≤ p.2)
    (hy : l.curve.find? k = some y)
    : 0 ≤ y := by
  obtain ⟨p, hp, hmin⟩ := h.least.1
  have hle : p.1 ≤ k := le_of_eq_of_le hmin ((h.keys k).mp ⟨y, hy⟩).1
  exact le_trans (hpos p hp) (h.mono hrises hle (h.atPoints hp) hy)

theorem le_one (h : l.Through points) (hrises : Rises points) (hone : ∀ p ∈ points, p.2 ≤ 1)
    (hy : l.curve.find? k = some y)
    : y ≤ 1 := by
  obtain ⟨q, hq, hmax⟩ := h.greatest.1
  have hle : k ≤ q.1 := le_of_le_of_eq ((h.keys k).mp ⟨y, hy⟩).2 hmax.symm
  exact le_trans (h.mono hrises hle hy (h.atPoints hq)) (hone q hq)

end Limited.Through

namespace PORManager

variable {powf : ℚ → ℚ → ℚ} {m : PORManager} {dataRate : Nat} {l : Limited} {points : List (Int × ℚ)}

def modified (powf : ℚ → ℚ → ℚ) (m : PORManager) (length : Nat) (por : ℚ) : ℚ :=
  if m.modifierLengthBytes ≠ 0 then powf por (length / m.modifierLengthBytes) else por

variable {a : ℚ}

theorem modified_mono (hpow : Powers powf) (length : Nat) {b : ℚ} (ha : 0 ≤ a) (h : a ≤ b)
    : modified powf m length a ≤ modified powf m length b := by
  unfold modified
  split
  . exact hpow.mono a b _ ha h (by positivity)
  . exact h

theorem modified_nonneg (hpow : Powers powf) (length : Nat) (ha : 0 ≤ a)
    : 0 ≤ modified powf m length a := by
  unfold modified
  split
  . exact hpow.nonneg a _ ha (by positivity)
  . exact ha

theorem modified_le_one (hpow : Powers powf) (length : Nat) (ha : 0 ≤ a) (h : a ≤ 1)
    : modified powf m length a ≤ 1 := by
  have hone : modified powf m length 1 = 1 := by
    unfold modified
    split
    . exact hpow.one_left _
    . rfl
  exact hone ▸ modified_mono hpow length ha h

theorem modified_self (hpow : Powers powf) (a : ℚ) : modified powf m m.modifierLengthBytes a = a := by
  unfold modified
  split
  . next hne => rw [div_self (Nat.cast_ne_zero.mpr hne), hpow.one_right]
  . rfl

def lookup (powf : ℚ → ℚ → ℚ) (m : PORManager) (l : Limited) (length : Nat) (k : Int) : ℚ :=
  if k < l.minScaledSINR then
    0
  else if k > l.maxScaledSINR then
    1
  else
    ((l.curve.find? k).map (modified powf m length)).getD 0

theorem getPOR_eq_some_iff (hfind : m.dataRateTable.find? dataRate = some l) (sinr : ℚ)
    (length : Nat) (y : ℚ)
    : m.getPOR powf dataRate sinr length = some y
        ↔
      (-2^31 ≤ truncate (sinr * 100) ∧ truncate (sinr * 100) ≤ 2^31 - 1)
          ∧ y = lookup powf m l length (truncate (sinr * 100)) := by
  have hlookup : m.getPOR powf dataRate sinr length
      = if truncate (sinr * 100) < -2^31 ∨ truncate (sinr * 100) > 2^31 - 1 then none
        else some (lookup powf m l length (truncate (sinr * 100))) := by
    unfold getPOR lookup modified
    rw [hfind]
    simp only [Option.some_or, Option.bind_eq_bind, Option.bind_some]
    generalize truncate (sinr * 100) = k
    cases l.curve.find? k with
    | none => split_ifs <;> rfl
    | some por => split_ifs <;> rfl
  rw [hlookup]
  split
  . next hout => exact iff_of_false (by simp) (fun h => by omega)
  . next hin =>
    rw [Option.some_inj, eq_comm]
    exact (and_iff_right (by omega)).symm

variable {length : Nat} {k : Int}

theorem lookup_of_lt (hk : k < l.minScaledSINR) : lookup powf m l length k = 0 := by
  exact if_pos hk

theorem lookup_of_gt (h : l.Through points) (hk : l.maxScaledSINR < k)
    : lookup powf m l length k = 1 := by
  have hmin : l.minScaledSINR ≤ l.maxScaledSINR := h.least.2 h.greatest.1
  exact (if_neg (not_lt.mpr (le_of_lt (lt_of_le_of_lt hmin hk)))).trans (if_pos hk)

theorem lookup_of_find? (h : l.Through points) {v : ℚ} (hv : l.curve.find? k = some v)
    : lookup powf m l length k = modified powf m length v := by
  obtain ⟨hmin, hmax⟩ := (h.keys k).mp ⟨v, hv⟩
  unfold lookup
  rw [if_neg (not_lt.mpr hmin), if_neg (not_lt.mpr hmax), hv]
  rfl

theorem position_cases (h : l.Through points) (k : Int)
    : k < l.minScaledSINR ∨ l.maxScaledSINR < k ∨ ∃ v, l.curve.find? k = some v := by
  rcases lt_or_ge k l.minScaledSINR with hlow | hmin
  . exact .inl hlow
  . rcases lt_or_ge l.maxScaledSINR k with hhigh | hmax
    . exact .inr (.inl hhigh)
    . exact .inr (.inr ((h.keys k).mpr ⟨hmin, hmax⟩))

theorem lookup_mono (hpow : Powers powf) (h : l.Through points) (hrises : Rises points)
    (hpos : ∀ p ∈ points, 0 ≤ p.2)
    (hcapped : Capped points) (length : Nat) {k' : Int} (hk : k ≤ k') (hmax : k' ≤ 2^31 - 1)
    : lookup powf m l length k ≤ lookup powf m l length k' := by
  rcases position_cases h k' with hlow' | hhigh' | ⟨v', hv'⟩
  . rw [lookup_of_lt hlow', lookup_of_lt (lt_of_le_of_lt hk hlow')]
  . rw [lookup_of_gt h hhigh']
    rcases position_cases h k with hlow | hhigh | ⟨v, hv⟩
    . rw [lookup_of_lt hlow]
      exact zero_le_one
    . rw [lookup_of_gt h hhigh]
    . -- there is a position above the curve, so that one is not below any point
      have hbelow : ∀ p ∈ points, p.1 < 2^31 - 1 :=
        fun p hp => lt_of_le_of_lt (h.greatest.2 ⟨p, hp, rfl⟩) (lt_of_lt_of_le hhigh' hmax)
      rw [lookup_of_find? h hv]
      exact modified_le_one hpow length (h.nonneg hrises hpos hv)
        (h.le_one hrises (hcapped hrises hbelow) hv)
  . rw [lookup_of_find? h hv']
    rcases position_cases h k with hlow | hhigh | ⟨v, hv⟩
    . rw [lookup_of_lt hlow]
      exact modified_nonneg hpow length (h.nonneg hrises hpos hv')
    . have hle := ((h.keys k').mp ⟨v', hv'⟩).2
      exact absurd (lt_of_lt_of_le hhigh hk) (not_lt.mpr hle)
    . rw [lookup_of_find? h hv]
      exact modified_mono hpow length (h.nonneg hrises hpos hv) (h.mono hrises hk hv hv')

theorem getPOR_mono (hpow : Powers powf) (hfind : m.dataRateTable.find? dataRate = some l)
    (h : l.Through points) (hrises : Rises points)
    (hpos : ∀ p ∈ points, 0 ≤ p.2) (hcapped : Capped points) {sinr sinr' : ℚ} {y y' : ℚ}
    (hle : sinr ≤ sinr')
    (hy : m.getPOR powf dataRate sinr length = some y)
    (hy' : m.getPOR powf dataRate sinr' length = some y')
    : y ≤ y' := by
  have htruncate : truncate (sinr * 100) ≤ truncate (sinr' * 100) := truncate_mono
    (mul_le_mul_of_nonneg_right hle (by norm_num))
  obtain ⟨-, rfl⟩ := (getPOR_eq_some_iff hfind _ _ _).mp hy
  obtain ⟨⟨-, hmax'⟩, rfl⟩ := (getPOR_eq_some_iff hfind _ _ _).mp hy'
  exact lookup_mono hpow h hrises hpos hcapped length htruncate hmax'

theorem capped_of_mono (hpow : Powers powf) (hfind : m.dataRateTable.find? dataRate = some l)
    (h : l.Through points) (hrange : InRange points)
    (hmono : Rises points → ∀ sinr sinr' length y y', sinr ≤ sinr'
      → m.getPOR powf dataRate sinr length = some y →
      m.getPOR powf dataRate sinr' length = some y' → y ≤ y')
    : Capped points := by
  intro hrises hbelow p hp
  obtain ⟨q, hq, hqmax⟩ := h.greatest.1
  have hkeys : ∀ k : Int, truncate ((k : ℚ) / 100 * 100) = k := by
    intro k
    rw [div_mul_cancel₀ _ (by norm_num), truncate_intCast]
  -- the last point and the position behind it
  have hlast : m.getPOR powf dataRate (q.1 / 100) m.modifierLengthBytes = some q.2 := by
    refine (getPOR_eq_some_iff hfind _ _ _).mpr ?_
    rw [hkeys, lookup_of_find? h (h.atPoints hq), modified_self hpow]
    exact ⟨hrange q hq, rfl⟩
  have hbehind : m.getPOR powf dataRate ((q.1 + 1 : Int) / 100) m.modifierLengthBytes = some 1 := by
    refine (getPOR_eq_some_iff hfind _ _ _).mpr ?_
    rw [hkeys, lookup_of_gt h (by omega)]
    have hlt := hbelow q hq
    have hge := (hrange q hq).1
    exact ⟨⟨by omega, by omega⟩, rfl⟩
  have hle : (q.1 : ℚ) / 100 ≤ (q.1 + 1 : Int) / 100 := by
    push_cast
    linarith
  have hone : q.2 ≤ 1 := hmono hrises _ _ _ _ _ hle hlast hbehind
  exact le_trans (hrises p hp q hq (le_of_le_of_eq (h.greatest.2 ⟨p, hp, rfl⟩) hqmax.symm)) hone

def addCurve (m : PORManager) (r : Nat × Limited) : PORManager :=
  ⟨m.dataRateTable.insert r.1 r.2,
    if m.dataRateTable.toList = [] then r.1 else m.defaultCurveDataRate, m.modifierLengthBytes⟩

def Reads (f : Floating ℚ) (d : DataRate) (r : Nat × Limited) : Prop :=
  toUINT64 0 (2^64 - 1) d.bps.val = .ok r.1 ∧ loadEntries f r.1 d.entries = .ok r.2

section

variable {f : Floating ℚ}

theorem convert_eq_ok_iff {α : Type} {x : Except Exception α} {a : α}
    : convert x = .ok a ↔ x = .ok a := by
  cases x with
  | ok a' => simp [convert]
  | error e => simp [convert]

theorem addDataRate_eq_ok_iff (m : PORManager) (d : DataRate) (m' : PORManager)
    : addDataRate f m d = .ok m' ↔ ∃ r, Reads f d r ∧ m.dataRateTable.find? r.1 = none
        ∧ m' = m.addCurve r := by
  have hunfold : addDataRate f m d
      = (do
          let dataRate ← convert (toUINT64 0 (2^64 - 1) d.bps.val)
          let l ← loadEntries f dataRate d.entries
          if m.dataRateTable.contains dataRate then
            .error (.duplicateDatarate dataRate)
          else
            .ok (m.addCurve (dataRate, l))) := by
    unfold addDataRate addCurve
    refine bind_congr (fun dataRate => ?_)
    by_cases hempty : m.dataRateTable.toList = []
    . simp only [if_pos hempty]
      rfl
    . simp only [if_neg hempty]
      rfl
  rw [hunfold]
  simp only [bind_eq_ok_iff, convert_eq_ok_iff]
  constructor
  . rintro ⟨dataRate, hrate, l, hl, hadd⟩
    split at hadd
    . cases hadd
    . next hcontains =>
      exact ⟨(dataRate, l), ⟨hrate, hl⟩, SortedMap.contains_eq_false_iff.mp
        (Bool.not_eq_true _ ▸ hcontains), (Except.ok.inj hadd).symm⟩
  . rintro ⟨⟨dataRate, l⟩, ⟨hrate, hl⟩, hfree, rfl⟩
    refine ⟨dataRate, hrate, l, hl, ?_⟩
    rw [SortedMap.contains_eq_false_iff.mpr hfree]
    rfl

theorem find?_addCurve_eq_none_iff (m : PORManager) (r : Nat × Limited) (dataRate : Nat)
    : (m.addCurve r).dataRateTable.find? dataRate = none ↔ dataRate ≠ r.1
        ∧ m.dataRateTable.find? dataRate = none := by
  rw [addCurve, SortedMap.find?_insert]
  split
  . next heq => simp [heq]
  . next hne => simp [hne]

theorem load_eq_ok_iff (document : Document) (m : PORManager)
    : init.load f document = .ok m
        ↔
      ∃ packetSize rs, toUINT64 0 (2^16 - 1) document.packetsize.val = .ok packetSize
        ∧ List.Forall₂ (Reads f) document.dataRates rs
        ∧ (rs.map Prod.fst).Nodup
        ∧ m = rs.foldl addCurve { init with modifierLengthBytes := packetSize } := by
  unfold load
  simp only [bind_eq_ok_iff, convert_eq_ok_iff]
  refine exists_congr (fun packetSize => ?_)
  rw [foldlM_fresh_iff (Reads f) (fun m dataRate => m.dataRateTable.find? dataRate = none)
    addDataRate_eq_ok_iff find?_addCurve_eq_none_iff]
  constructor
  . rintro ⟨hsize, rs, hrs, hnodup, -, hm⟩
    exact ⟨rs, hsize, hrs, hnodup, hm⟩
  . rintro ⟨rs, hsize, hrs, hnodup, hm⟩
    exact ⟨hsize, rs, hrs, hnodup, fun _ _ => rfl, hm⟩

theorem dataRateTable_foldl_addCurve (rs : List (Nat × Limited)) (m : PORManager)
    : (rs.foldl addCurve m).dataRateTable = rs.foldl
        (fun table r => table.insert r.1 r.2) m.dataRateTable := by
  induction rs generalizing m with
  | nil => rfl
  | cons r rs ih => exact ih (m.addCurve r)

theorem find?_of_load {rs : List (Nat × Limited)} (hnodup : (rs.map Prod.fst).Nodup)
    (packetSize : Nat) (r : Nat × Limited)
    : (rs.foldl addCurve { init with modifierLengthBytes := packetSize }).dataRateTable.find? r.1
        = some r.2 ↔ r ∈ rs := by
  rw [dataRateTable_foldl_addCurve, SortedMap.find?_eq_some_iff]
  exact SortedMap.mem_foldl_insert_empty_iff hnodup r

end

end PORManager

/--
What is promised of a document: it is loaded, every entry is stored as the point that it stands
for, and every rate has the curve through its points.
-/
def Document.Loads (f : Floating ℚ) (powf : ℚ → ℚ → ℚ) (document : Document) : Prop :=
  ∃ m, PORManager.init.load f document = .ok m
    ∧ ∀ d ∈ document.dataRates, ∃ dataRate l points, toUINT64 0 (2^64 - 1) d.bps.val = .ok dataRate
      ∧ m.dataRateTable.find? dataRate = some l ∧ List.Forall₂ (Entry.Stored f) d.entries points
      ∧ l.Right powf m dataRate points

structure DataRate.Fits (f : Floating ℚ) (d : DataRate) (points : List (Int × ℚ)) : Prop where
  entries : List.Forall₂ (fun e p => ∃ l l', e.Denotes l l' p ∧ Entry.Storable f l l' p) d.entries points
  distinct : (points.map Prod.fst).Nodup
  close : Curve.Close points
  capped : Capped points

structure Document.Fits (f : Floating ℚ) (document : Document) : Prop where
  packetsize : ∃ n, toUINT64 0 (2^16 - 1) document.packetsize.val = .ok n
  bps : ∃ rates, List.Forall₂ (fun d rate => toUINT64 0 (2^64 - 1) d.bps.val = .ok rate)
    document.dataRates rates ∧ rates.Nodup
  curves : ∀ d ∈ document.dataRates, ∃ points, d.Fits f points

section

variable {f : Floating ℚ} {powf : ℚ → ℚ → ℚ}

variable {points : List (Int × ℚ)}

theorem loadEntry_of_stored {entries : List Entry} (h : List.Forall₂ (Entry.Stored f) entries points)
    : List.Forall₂ (fun e p => loadEntry f e = .ok p) entries points := by
  exact h.imp (fun _ _ ⟨_, _, _, hload⟩ => hload)

theorem points_of_stored (hf : Exact f) {entries : List Entry}
    (h : List.Forall₂ (Entry.Stored f) entries points)
    : InRange points ∧ ∀ p ∈ points, 0 ≤ p.2 := by
  have hpoint : ∀ p ∈ points, (-2^31 ≤ p.1 ∧ p.1 ≤ 2^31 - 1) ∧ 0 ≤ p.2 := by
    intro p hp
    obtain ⟨e, -, hstored⟩ := exists_of_mem_right h hp
    obtain ⟨l, l', hdenotes, hstorable⟩ := (e.stored_iff hf p).mp hstored
    exact ⟨hstorable.range, hdenotes.value ▸ div_nonneg hdenotes.isPor.nonneg (by norm_num)⟩
  exact ⟨fun p hp => (hpoint p hp).1, fun p hp => (hpoint p hp).2⟩

theorem through_of_stored (hf : Exact f) {d : DataRate} {dataRate : Nat} {l : Limited}
    (hl : loadEntries f dataRate d.entries = .ok l) (h : List.Forall₂ (Entry.Stored f) d.entries points)
    : l.Through points := by
  refine through_of_loadEntries hl (loadEntry_of_stored h) ?_ (points_of_stored hf h).1
  rintro rfl
  exact d.nonempty (List.forall₂_nil_right_iff.mp h)

theorem right_of_through (hpow : Powers powf) {m : PORManager} {dataRate : Nat} {l : Limited}
    (hfind : m.dataRateTable.find? dataRate = some l) (h : l.Through points)
    (hpos : ∀ p ∈ points, 0 ≤ p.2) (hcapped : Capped points)
    : l.Right powf m dataRate points := by
  refine ⟨h.keys_points, fun _ hp => h.atPoints hp, fun _ _ hn _ hp hq => h.between hn hp hq, ?_⟩
  intro hrises sinr sinr' length y y' hle hy hy'
  exact PORManager.getPOR_mono hpow hfind h hrises hpos hcapped hle hy hy'

theorem exists_reads {dataRates : List DataRate} {rates : List Nat}
    (hrates : List.Forall₂ (fun d rate => toUINT64 0 (2^64 - 1) d.bps.val = .ok rate) dataRates rates)
    (hcurves : ∀ d ∈ dataRates, ∀ dataRate, ∃ l, loadEntries f dataRate d.entries = .ok l)
    : ∃ rs, List.Forall₂ (PORManager.Reads f) dataRates rs ∧ rs.map Prod.fst = rates := by
  induction hrates with
  | nil => exact ⟨[], .nil, rfl⟩
  | @cons d rate dataRates rates hrate _ ih =>
    rw [List.forall_mem_cons] at hcurves
    obtain ⟨l, hl⟩ := hcurves.1 rate
    obtain ⟨rs, hrs, heq⟩ := ih hcurves.2
    exact ⟨(rate, l) :: rs, .cons ⟨hrate, hl⟩ hrs, by rw [List.map_cons, heq]⟩

theorem Document.loads_iff (hf : Exact f) (hpow : Powers powf) (document : Document)
    : document.Loads f powf ↔ document.Fits f := by
  constructor
  . rintro ⟨m, hload, hcurves⟩
    obtain ⟨packetSize, rs, hsize, hrs, hnodup, rfl⟩ := (PORManager.load_eq_ok_iff _ _).mp hload
    refine ⟨⟨packetSize, hsize⟩, ⟨rs.map Prod.fst, ?_, hnodup⟩, fun d hd => ?_⟩
    . exact List.forall₂_map_right_iff.mpr (hrs.imp (fun _ _ hread => hread.1))
    . obtain ⟨dataRate, l, points, hrate, hfind, hstored, hright⟩ := hcurves d hd
      obtain ⟨r, hr, hreads⟩ := exists_of_mem_left hrs hd
      -- the curve in the table is that of the rate
      have hrate' : r.1 = dataRate := Except.ok.inj (hreads.1.symm.trans hrate)
      have hcurve := (PORManager.find?_of_load hnodup packetSize r).mpr hr
      rw [hrate'] at hcurve
      have hl : l = r.2 := Option.some.inj (hfind.symm.trans hcurve)
      have hloaded := hreads.2
      rw [← hl] at hloaded
      have hthrough := through_of_stored hf hloaded hstored
      obtain ⟨points', hpoints', hdistinct, hclose⟩ := loadEntries_iff.mp ⟨_, hloaded⟩
      obtain rfl := points_unique (loadEntry_of_stored hstored) hpoints'
      refine ⟨points, hstored.imp (fun e p h => (e.stored_iff hf p).mp h), hdistinct, hclose, ?_⟩
      exact PORManager.capped_of_mono hpow hfind hthrough (points_of_stored hf hstored).1 hright.mono
  . rintro ⟨⟨packetSize, hsize⟩, ⟨rates, hrates, hnodup⟩, hcurves⟩
    have hstored : ∀ d ∈ document.dataRates, ∃ points,
        List.Forall₂ (Entry.Stored f) d.entries points ∧ d.Fits f points := by
      intro d hd
      obtain ⟨points, hfits⟩ := hcurves d hd
      exact ⟨points, hfits.entries.imp (fun e p h => (e.stored_iff hf p).mpr h), hfits⟩
    have hloaded : ∀ d ∈ document.dataRates, ∀ dataRate, ∃ l,
        loadEntries f dataRate d.entries = .ok l := by
      intro d hd dataRate
      obtain ⟨points, hpoints, hfits⟩ := hstored d hd
      exact loadEntries_iff.mpr ⟨points, loadEntry_of_stored hpoints, hfits.distinct, hfits.close⟩
    obtain ⟨rs, hrs, rfl⟩ := exists_reads hrates hloaded
    refine ⟨_, (PORManager.load_eq_ok_iff _ _).mpr ⟨packetSize, rs, hsize, hrs, hnodup, rfl⟩,
      fun d hd => ?_⟩
    obtain ⟨points, hpoints, hfits⟩ := hstored d hd
    obtain ⟨r, hr, hreads⟩ := exists_of_mem_left hrs hd
    have hfind := (PORManager.find?_of_load hnodup packetSize r).mpr hr
    have hthrough := through_of_stored hf hreads.2 hpoints
    exact ⟨r.1, r.2, points, hreads.1, hfind, hpoints, right_of_through hpow hfind hthrough
      (points_of_stored hf hpoints).2 hfits.capped⟩

end

open Classical in
noncomputable def denoted (s : Text) : ℚ :=
  if h : ∃ l : Literal, l.suffix = none ∧ l.text = s then h.choose.value else 0

theorem denoted_text {l : Literal} (h : l.suffix = none) : denoted l.text = l.value := by
  have hexists : ∃ l' : Literal, l'.suffix = none ∧ l'.text = l.text := ⟨l, h, rfl⟩
  unfold denoted
  rw [dif_pos hexists]
  exact Literal.value_eq_of_text_eq hexists.choose_spec.1 h hexists.choose_spec.2

noncomputable def exactNumbers : Floating ℚ where
  lt a b := decide (a < b)
  strtod s := (denoted s, false, [])
  lowest := -((2^53 - 1) * 2^971)
  max := (2^53 - 1) * 2^971
  floatLowest := -((2^24 - 1) * 2^104)
  floatMax := (2^24 - 1) * 2^104
  toFloat a := a

theorem exact_exactNumbers : Exact exactNumbers where
  lt _ _ := rfl
  toFloat _ := rfl
  lowest := by
    change -((2^24 - 1) * 2^104 : ℚ) ≤ 0
    norm_num
  strtod _ h _ _ := by
    change (denoted _, false, []) = _
    rw [denoted_text h]
  overflow _ h hmax := by
    change _ ∨ _ < denoted _
    rw [denoted_text h]
    exact .inr hmax

def wholePower (a e : ℚ) : ℚ :=
  a ^ ⌊e⌋₊

theorem powers_wholePower : Powers wholePower where
  nonneg a e ha _ := pow_nonneg ha _
  mono a b e ha h _ := pow_le_pow_left₀ ha h _
  one_left e := one_pow _
  one_right a := by
    unfold wholePower
    rw [Nat.floor_one, pow_one]

def risingRate : DataRate where
  bps := ⟨['1', 'M'], ['1'], [], ['M'], by decide, by decide, .inl rfl, .inr (.inr (.inl rfl))⟩
  entries :=
    [⟨some ⟨['-', '1'], ['-'], ['1'], [], by decide, .inr (.inr rfl), by decide, by decide⟩,
      some ⟨['0'], ['0'], [], by decide, by decide, by decide⟩⟩,
    ⟨some ⟨['1', '.', '5'], [], ['1'], ['.', '5'], by decide, .inl rfl, by decide, by decide⟩,
      some ⟨['1', '0', '0'], ['1', '0', '0'], [], by decide, by decide, by decide⟩⟩]
  nonempty := List.cons_ne_nil _ _

def risingDocument : Document :=
  ⟨⟨['1', '2', '8'], [], ['1', '2', '8'], by decide, by decide, by decide, .inl rfl⟩, [risingRate],
    List.cons_ne_nil _ _⟩

theorem fits_risingRate : risingRate.Fits exactNumbers [(-100, 0), (150, 1)] := by
  refine ⟨.cons ?_ (.cons ?_ .nil), by decide, ?_, ?_⟩
  . refine ⟨⟨Literal.noBlanks, .minus, [1], none, none, by decide⟩,
      ⟨Literal.noBlanks, .absent, [0], none, none, by decide⟩, ?_, ?_⟩
    . exact ⟨rfl, ⟨rfl, by decide, by decide⟩, rfl, ⟨rfl, rfl⟩, by decide +kernel, by decide +kernel⟩
    . exact ⟨by decide, by decide, by decide +kernel⟩
  . refine ⟨⟨Literal.noBlanks, .absent, [1], some [5], none, by decide⟩,
      ⟨Literal.noBlanks, .absent, [1, 0, 0], none, none, by decide⟩, ?_, ?_⟩
    . exact ⟨rfl, ⟨rfl, by decide, by decide⟩, rfl, ⟨rfl, rfl⟩, by decide +kernel, by decide +kernel⟩
    . exact ⟨by decide, by decide, by decide +kernel⟩
  . intro p q hn
    have hp := hn.left
    have hq := hn.right
    simp only [List.mem_cons, List.not_mem_nil, or_false] at hp hq
    rcases hp with rfl | rfl <;> rcases hq with rfl | rfl <;> decide
  . intro _ _ p hp
    simp only [List.mem_cons, List.not_mem_nil, or_false] at hp
    rcases hp with rfl | rfl <;> norm_num

theorem loads_risingDocument : risingDocument.Loads exactNumbers wholePower := by
  refine (Document.loads_iff exact_exactNumbers powers_wholePower risingDocument).mpr
    ⟨⟨128, by decide⟩, ⟨[1000000], ?_, by decide⟩, ?_⟩
  . exact .cons (by decide) .nil
  . intro d hd
    obtain rfl := List.mem_singleton.mp hd
    exact ⟨_, fits_risingRate⟩

def tenthEntry : Entry where
  sinr := some ⟨['0', '.', '1'], [], ['0'], ['.', '1'], by decide, .inl rfl, by decide, by decide⟩
  por := some ⟨['1', '0', '0'], ['1', '0', '0'], [], by decide, by decide, by decide⟩

def tenthDocument : Document :=
  ⟨⟨['1', '2', '8'], [], ['1', '2', '8'], by decide, by decide, by decide, .inl rfl⟩,
    [⟨⟨['1', 'M'], ['1'], [], ['M'], by decide, by decide, .inl rfl, .inr (.inr (.inl rfl))⟩,
      [tenthEntry], List.cons_ne_nil _ _⟩],
    List.cons_ne_nil _ _⟩

theorem not_loads_tenthDocument
    : ¬tenthDocument.Loads exactNumbers wholePower
      ∧ toINT64 (-2^31) (2^31 - 1) (scaleFloatToInteger ['0', '.', '1']) = .ok 8
      ∧ SINRType ['0', '.', '0', '8']
      ∧ toINT64 (-2^31) (2^31 - 1) (scaleFloatToInteger ['0', '.', '0', '8'])
          = .error (.conversion (.invalidCharacter ['0', '0', '8'] '8')) := by
  refine ⟨?_, by decide, ⟨[], ['0'], ['.', '0', '8'], by decide, .inl rfl, by decide, by decide⟩, by decide⟩
  rintro ⟨m, -, hcurves⟩
  obtain ⟨dataRate, l, points, -, -, hstored, -⟩ := hcurves _ List.mem_cons_self
  obtain ⟨p, -, l, l', hdenotes, hload⟩ := exists_of_mem_left hstored List.mem_cons_self
  -- what is read is 8, what the literal denotes is 10
  have hkey : toINT64 (-2^31) (2^31 - 1) (scaleFloatToInteger ['0', '.', '1']) = .ok p.1 := by
    obtain ⟨key, hkey, value⟩ := bind_eq_ok_iff.mp hload
    obtain ⟨v, -, hp⟩ := bind_eq_ok_iff.mp value
    cases hp
    exact PORManager.convert_eq_ok_iff.mp hkey
  have hread : toINT64 (-2^31) (2^31 - 1) (scaleFloatToInteger ['0', '.', '1']) = .ok 8 := by decide
  have height : (8 : Int) = p.1 := Except.ok.inj (hread.symm.trans hkey)
  have hvalue : l.value = Literal.value ⟨Literal.noBlanks, .absent, [0], some [1], none, by decide⟩ :=
    Literal.value_eq_of_text_eq hdenotes.isSinr.suffix rfl (Option.some.inj hdenotes.sinr).symm
  have hten : ((8 : Int) : ℚ) = 100 * Literal.value
      ⟨Literal.noBlanks, .absent, [0], some [1], none, by decide⟩ := by
    rw [height, ← hvalue]
    exact hdenotes.key
  exact absurd hten (by decide +kernel)

end Pcr
end Tdma
end Emane

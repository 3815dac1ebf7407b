import Mathlib.Algebra.GroupWithZero.Nat
import Mathlib.Algebra.Ring.Int.Defs
import Emane.Lib.Outcome
import Emane.Lib.SortedMap

/-!
This module contains tables of ranges of 16-bit numbers.
-/

namespace Emane
namespace SortedMap

variable {κ : Type u} {ν : Type v} [LinearOrder κ]

def lowerBound (m : SortedMap κ ν) (k : κ) : Option (κ × ν) :=
  m.toList.find? (fun e => k ≤ e.1)

theorem lowerBound_spec {m : SortedMap κ ν} {k : κ} {e : κ × ν} (h : m.lowerBound k = some e)
    : m.find? e.1 = some e.2 ∧ k ≤ e.1 ∧ ∀ k', (m.find? k').isSome → k ≤ k' → e.1 ≤ k' := by
  obtain ⟨hk, as, bs, hsplit, has⟩ := List.find?_eq_some_iff_append.mp h
  refine ⟨(find?_eq_some_iff ..).mpr (hsplit ▸ by simp), of_decide_eq_true hk, fun k' hk' hle => ?_⟩
  obtain ⟨v', hv'⟩ := Option.isSome_iff_exists.mp hk'
  have hmem := (find?_eq_some_iff ..).mp hv'
  have hsorted := m.sorted
  rw [hsplit] at hmem hsorted
  rcases List.mem_append.mp hmem with hmem | hmem
  . have := has _ hmem
    simp [hle] at this
  . rcases List.mem_cons.mp hmem with rfl | hmem
    . exact le_rfl
    . exact ((List.pairwise_cons.mp (List.pairwise_append.mp hsorted).2.1).1 _ hmem).le

theorem lowerBound_of_least {m : SortedMap κ ν} {k k' : κ} {v : ν} (h : m.find? k' = some v)
    (hle : k ≤ k')
    (hleast : ∀ a, (m.find? a).isSome → k ≤ a → k' ≤ a)
    : m.lowerBound k = some (k', v) := by
  cases hbound : m.lowerBound k with
  | none =>
    have := List.find?_eq_none.mp hbound _ ((find?_eq_some_iff ..).mp h)
    simp [hle] at this
  | some e =>
    obtain ⟨hfind, hke, hmin⟩ := lowerBound_spec hbound
    have heq : e.1 = k' := le_antisymm (hmin k' (by rw [h]; rfl) hle)
      (hleast e.1 (by rw [hfind]; rfl) hke)
    rw [heq, h] at hfind
    rw [← heq, Option.some.inj hfind]

end SortedMap

structure Range (α : Type u) where
  low : Int
  high : Int
  value : α
  deriving DecidableEq

namespace Range

variable {α : Type u}

def Has (r : Range α) (k : Int) : Prop :=
  r.low ≤ k ∧ k ≤ r.high

def Ordered (rs : List (Range α)) : Prop :=
  (∀ r ∈ rs, r.low ≤ r.high) ∧ rs.Pairwise (fun a b => a.high < b.low)

theorem Ordered.nil : Ordered ([] : List (Range α)) := by
  exact ⟨fun _ h => absurd h List.not_mem_nil, .nil⟩

theorem ordered_cons_iff {r : Range α} {rs : List (Range α)}
    : Ordered (r :: rs) ↔ r.low ≤ r.high ∧ (∀ r' ∈ rs, r.high < r'.low) ∧ Ordered rs := by
  unfold Ordered
  rw [List.forall_mem_cons, List.pairwise_cons]
  tauto

variable {rs : List (Range α)} {r r' : Range α}

theorem Ordered.apart (h : Ordered rs) (hr : r ∈ rs) (hr' : r' ∈ rs)
    : r = r' ∨ r.high < r'.low ∨ r'.high < r.low := by
  induction rs with
  | nil => cases hr
  | cons a rs ih =>
    obtain ⟨-, habove, hrest⟩ := ordered_cons_iff.mp h
    rcases List.mem_cons.mp hr with rfl | hmem
    . rcases List.mem_cons.mp hr' with rfl | hmem'
      . exact .inl rfl
      . exact .inr (.inl (habove r' hmem'))
    . rcases List.mem_cons.mp hr' with rfl | hmem'
      . exact .inr (.inr (habove r hmem))
      . exact ih hrest hmem hmem'

end Range

namespace RangeTable

variable {α : Type u} {ν : Type v}

def sentinel (low : Int) : Int :=
  (low - 1).bmod (2^16)

theorem sentinel_cases {low : Int} (hmin : -2^15 ≤ low) (hmax : low < 2^15)
    : (-2^15 < low ∧ sentinel low = low - 1) ∨ (low = -2^15 ∧ sentinel low = 2^15 - 1) := by
  simp only [sentinel, Int.bmod]
  omega

def add (missing : ν) (m : SortedMap Int ν) (low high : Int) (v : ν) : SortedMap Int ν :=
  (m.insert (sentinel low) missing).set high v

def put (missing : ν) (vals : α → List ν) (m : SortedMap Int ν) (r : Range α) : SortedMap Int ν :=
  (vals r.value).foldl (fun m v => add missing m r.low r.high v) m

def build (missing : ν) (vals : α → List ν) (rs : List (Range α)) : SortedMap Int ν :=
  rs.foldl (put missing vals) .empty

variable {missing : ν} {vals : α → List ν} {m : SortedMap Int ν} {r : Range α} {rs : List (Range α)}

theorem find?_add (low high : Int) (v : ν) (k : Int)
    : (add missing m low high v).find? k
        =
      if k = high then some v else if k = sentinel low then some ((m.find? k).getD missing)
          else m.find? k := by
  unfold add
  rw [SortedMap.find?_set, SortedMap.find?_insert]
  split
  . rfl
  . split
    . next h => rw [h]
    . rfl

theorem find?_put (hne : vals r.value ≠ []) (k : Int)
    : (put missing vals m r).find? k
        =
      if k = r.high then (vals r.value).getLast?
      else if k = sentinel r.low then some ((m.find? k).getD missing) else m.find? k := by
  unfold put
  generalize vals r.value = vs at hne ⊢
  induction vs generalizing m with
  | nil => exact absurd rfl hne
  | cons v vs ih =>
    rw [List.foldl_cons]
    cases vs with
    | nil => exact find?_add ..
    | cons v' vs =>
      rw [ih (List.cons_ne_nil v' vs), find?_add, List.getLast?_cons_cons]
      split_ifs <;> rfl

theorem put_ne_nil (hne : vals r.value ≠ []) : (put missing vals m r).toList ≠ [] := by
  have hfind : (put missing vals m r).find? r.high = (vals r.value).getLast? :=
    (find?_put hne r.high).trans (if_pos rfl)
  rw [List.getLast?_eq_some_getLast hne, SortedMap.find?_eq_some_iff] at hfind
  exact List.ne_nil_of_mem hfind

structure Holds (missing : ν) (vals : α → List ν) (rs : List (Range α)) (m : SortedMap Int ν) : Prop where
  high : ∀ r ∈ rs, ∃ v, (vals r.value).getLast? = some v ∧ m.find? r.high = some v
  low : ∀ r ∈ rs, (m.find? (sentinel r.low)).isSome
  key : ∀ k v, m.find? k = some v → ∃ r ∈ rs, k = r.high ∨ (k = sentinel r.low ∧ v = missing)

theorem Holds.nil : Holds missing vals [] .empty where
  high _ h := absurd h List.not_mem_nil
  low _ h := absurd h List.not_mem_nil
  key k v h := by cases (SortedMap.find?_empty k).symm.trans h

theorem Holds.snoc (h : Holds missing vals rs m) (hne : vals r.value ≠ []) (hr : r.low ≤ r.high)
    (habove : ∀ r' ∈ rs, r'.high < r.low)
    : Holds missing vals (rs ++ [r]) (put missing vals m r) where
  high r' hr' := by
    rcases List.mem_append.mp hr' with hr' | hr'
    . obtain ⟨v, hlast, hfind⟩ := h.high r' hr'
      have hbelow := habove r' hr'
      refine ⟨v, hlast, ?_⟩
      rw [find?_put hne, if_neg (by omega), hfind]
      split_ifs <;> rfl
    . obtain rfl := List.mem_singleton.mp hr'
      exact ⟨_, List.getLast?_eq_some_getLast hne, (find?_put hne _).trans
        ((if_pos rfl).trans (List.getLast?_eq_some_getLast hne))⟩
  low r' hr' := by
    rw [find?_put hne]
    split_ifs with hhigh hlow
    . rw [List.getLast?_eq_some_getLast hne, Option.isSome_some]
    . rfl
    . rcases List.mem_append.mp hr' with hr' | hr'
      . exact h.low r' hr'
      . exact absurd (congrArg (fun a => sentinel a.low) (List.mem_singleton.mp hr')) hlow
  key k v hk := by
    have hmem : r ∈ rs ++ [r] := List.mem_append_right _ (List.mem_singleton_self r)
    have hold : ∀ w, m.find? k = some w → ∃ r' ∈ rs ++ [r], k = r'.high
        ∨ (k = sentinel r'.low ∧ w = missing) := fun w hw => by
      obtain ⟨r', hr', hcase⟩ := h.key k w hw
      exact ⟨r', List.mem_append_left _ hr', hcase⟩
    rw [find?_put hne] at hk
    split_ifs at hk with hhigh hlow
    . exact ⟨r, hmem, .inl hhigh⟩
    . cases hfind : m.find? k with
      | none => exact ⟨r, hmem, .inr ⟨hlow, by rw [hfind] at hk; exact (Option.some.inj hk).symm⟩⟩
      | some w =>
        rw [hfind] at hk
        exact Option.some.inj hk ▸ hold w hfind
    . exact hold v hk

theorem holds_foldl (hne : ∀ r ∈ rs, vals r.value ≠ []) {done : List (Range α)}
    (h : Holds missing vals done m)
    (hordered : Range.Ordered rs) (habove : ∀ r' ∈ done, ∀ r ∈ rs, r'.high < r.low)
    : Holds missing vals (done ++ rs) (rs.foldl (put missing vals) m) := by
  induction rs generalizing done m with
  | nil => simpa using h
  | cons r rs ih =>
    obtain ⟨hr, hafter, hrest⟩ := Range.ordered_cons_iff.mp hordered
    rw [List.foldl_cons, List.append_cons]
    refine ih (fun a ha => hne a (.tail _ ha))
      (h.snoc (hne r (.head _)) hr (fun r' hr' => habove r' hr' r (.head _))) hrest ?_
    intro r' hr' a ha
    rcases List.mem_append.mp hr' with hr' | hr'
    . exact habove r' hr' a (.tail _ ha)
    . exact List.mem_singleton.mp hr' ▸ hafter a ha

theorem holds_build (hne : ∀ r ∈ rs, vals r.value ≠ []) (hordered : Range.Ordered rs)
    : Holds missing vals rs (build missing vals rs) := by
  exact holds_foldl hne .nil hordered (fun _ h => absurd h List.not_mem_nil)

variable {k : Int}

theorem Holds.lowerBound_of_has (h : Holds missing vals rs m) (hordered : Range.Ordered rs)
    (hfits : ∀ r ∈ rs, -2^15 ≤ r.low ∧ r.high < 2^15) (hr : r ∈ rs) (hk : r.Has k)
    : (m.lowerBound k).map Prod.snd = (vals r.value).getLast? := by
  obtain ⟨v, hlast, hfind⟩ := h.high r hr
  rw [hlast, SortedMap.lowerBound_of_least hfind hk.2]
  . rfl
  . intro a ha hle
    obtain ⟨w, hw⟩ := Option.isSome_iff_exists.mp ha
    obtain ⟨r', hr', hcase⟩ := h.key a w hw
    have hbounds := hordered.1 r' hr'
    have hfit := hfits r' hr'
    have hlow := sentinel_cases hfit.1 (by omega)
    have hfit := hfits r hr
    have hk := hk.1
    rcases hordered.apart hr hr' with rfl | hapart | hapart
    . omega
    . omega
    . omega

theorem Holds.lowerBound_of_not_has (h : Holds missing vals rs m) (hordered : Range.Ordered rs)
    (hfits : ∀ r ∈ rs, -2^15 ≤ r.low ∧ r.high < 2^15) (hk : -2^15 ≤ k) (hnone : ∀ r ∈ rs, ¬r.Has k)
    {e : Int × ν}
    (he : m.lowerBound k = some e)
    : e.2 = missing := by
  obtain ⟨hfind, hle, hleast⟩ := SortedMap.lowerBound_spec he
  obtain ⟨r, hr, hcase⟩ := h.key e.1 e.2 hfind
  rcases hcase with hhigh | hlow
  . have hbounds := hordered.1 r hr
    have hfit := hfits r hr
    have hbelow : k < r.low := by
      have := hnone r hr
      unfold Range.Has at this
      omega
    have hcases := sentinel_cases hfit.1 (by omega)
    have := hleast _ (h.low r hr)
    omega
  . exact hlow.2

theorem foldlM_ordered_iff {ε : Type w} {γ : Type x} {read : γ → Range α → Prop}
    {step : Int × SortedMap Int ν → γ → Except ε (Int × SortedMap Int ν)}
    (hstep : ∀ s c s', step s c = .ok s' ↔ ∃ r, read c r ∧ r.low ≤ r.high
      ∧ (s.2.toList ≠ [] → s.1 < r.low) ∧ s' = (r.high, put missing vals s.2 r))
    (hne : ∀ c r, read c r → vals r.value ≠ []) (cs : List γ) (s s' : Int × SortedMap Int ν)
    : cs.foldlM step s = .ok s'
        ↔
      ∃ rs, List.Forall₂ read cs rs ∧ Range.Ordered rs ∧ (s.2.toList ≠ [] → ∀ r ∈ rs, s.1 < r.low)
        ∧ s' = (rs.foldl (fun _ r => r.high) s.1, rs.foldl (put missing vals) s.2) := by
  induction cs generalizing s with
  | nil =>
    constructor
    . intro h
      exact ⟨[], .nil, .nil, fun _ _ h => absurd h List.not_mem_nil, (Except.ok.inj h).symm⟩
    . rintro ⟨rs, hrs, -, -, rfl⟩
      obtain rfl := List.forall₂_nil_left_iff.mp hrs
      rfl
  | cons c cs ih =>
    rw [List.foldlM_cons, bind_eq_ok_iff]
    constructor
    . rintro ⟨s₁, hfirst, hrest⟩
      obtain ⟨r, hread, hr, hafter, rfl⟩ := (hstep s c s₁).mp hfirst
      obtain ⟨rs, hrs, hordered, habove, rfl⟩ := (ih _).mp hrest
      have habove := habove (put_ne_nil (hne c r hread))
      refine ⟨r :: rs, .cons hread hrs, Range.ordered_cons_iff.mpr ⟨hr, habove, hordered⟩,
        fun hs => ?_, rfl⟩
      refine List.forall_mem_cons.mpr ⟨hafter hs, fun r' hr' => ?_⟩
      have := hafter hs
      have := habove r' hr'
      omega
    . rintro ⟨rs, hrs, hordered, habove, rfl⟩
      obtain ⟨r, rest, hread, hrest, rfl⟩ := List.forall₂_cons_left_iff.mp hrs
      obtain ⟨hr, hafter, hordered⟩ := Range.ordered_cons_iff.mp hordered
      exact ⟨_, (hstep s c _).mpr ⟨r, hread, hr, fun hs => habove hs r (.head _), rfl⟩,
        (ih _).mpr ⟨rest, hrest, hordered, fun _ => hafter, rfl⟩⟩

end RangeTable
end Emane

import Mathlib.Data.List.Basic

/-!
This module contains steps that only ever raise a rank.
-/

namespace Emane

variable {σ : Type u} {κ : Type v}

/--
From `s` to `t` no rank sinks. Without `act` nothing happens, and with it some rank rises, at
least if the rank is a `live` one.
-/
structure Ratchets (rank : σ → κ → Int) (live act : Prop) (s t : σ) : Prop where
  le : ∀ k, rank s k ≤ rank t k
  idle : ¬ act → t = s
  rises : live → act → ∃ k, rank s k < rank t k

namespace Ratchets

variable {rank : σ → κ → Int} {live act : Prop} {s t : σ}

theorem refl (h : ¬ act) : Ratchets rank live act s s := by
  exact ⟨fun _ => Int.le_refl _, fun _ => rfl, fun _ hact => absurd hact h⟩

theorem of_iff {act' : Prop} (h : Ratchets rank live act s t) (hiff : act ↔ act')
    : Ratchets rank live act' s t := by
  exact ⟨h.le, fun hnot => h.idle (fun hact => hnot (hiff.mp hact)), fun hlive hact => h.rises hlive
    (hiff.mpr hact)⟩

theorem trans {u : σ} {act₁ act₂ act₂' : Prop} (hst : Ratchets rank live act₁ s t)
    (htu : Ratchets rank live act₂ t u)
    (hact : t = s → (act₂ ↔ act₂'))
    : Ratchets rank live (act₁ ∨ act₂') s u := by
  constructor
  . intro k
    exact Int.le_trans (hst.le k) (htu.le k)
  . intro hnot
    rw [not_or] at hnot
    have hts := hst.idle hnot.1
    rw [htu.idle (fun hact₂ => hnot.2 ((hact hts).mp hact₂)), hts]
  . intro hlive hor
    by_cases hfirst : act₁
    . obtain ⟨k, hlt⟩ := hst.rises hlive hfirst
      exact ⟨k, Int.lt_of_lt_of_le hlt (htu.le k)⟩
    . have hts := hst.idle hfirst
      obtain ⟨k, hlt⟩ := htu.rises hlive ((hact hts).mpr (hor.resolve_left hfirst))
      exact ⟨k, hts ▸ hlt⟩

section

variable {τ : Type w} {α : Type x} {f : τ → α → Option τ} {good : τ → Prop}

theorem good_of_foldlM (hback : ∀ s a t, f s a = some t → good t → good s) {xs : List α} {s t : τ}
    (h : xs.foldlM f s = some t)
    (hgood : good t)
    : good s := by
  induction xs generalizing s with
  | nil =>
    cases h
    exact hgood
  | cons a xs ih =>
    rw [List.foldlM_cons, Option.bind_eq_bind, Option.bind_eq_some_iff] at h
    obtain ⟨s', hone, hrest⟩ := h
    exact hback s a s' hone (ih hrest)

/--
The states that go wrong do so for good.
-/
theorem foldlM (hback : ∀ s a t, f s a = some t → good t → good s) {abs : τ → σ}
    {acts : σ → α → Prop} {xs : List α}
    (hstep : ∀ s a t, a ∈ xs → f s a = some t → good t
      → Ratchets rank live (acts (abs s) a) (abs s) (abs t)) {s t : τ}
    (h : xs.foldlM f s = some t) (hgood : good t)
    : Ratchets rank live (∃ a ∈ xs, acts (abs s) a) (abs s) (abs t) := by
  induction xs generalizing s with
  | nil =>
    cases h
    exact refl (by simp)
  | cons a xs ih =>
    rw [List.foldlM_cons, Option.bind_eq_bind, Option.bind_eq_some_iff] at h
    obtain ⟨s', hone, hrest⟩ := h
    have hfirst := hstep s a s' List.mem_cons_self hone (good_of_foldlM hback hrest hgood)
    have hsecond := ih (fun s b t hb => hstep s b t (List.mem_cons_of_mem a hb)) hrest
    refine (hfirst.trans hsecond ?_).of_iff (List.exists_mem_cons_iff _ _ _).symm
    intro heq
    rw [heq]

end

theorem not_act (h : Ratchets rank live act s t) (hlive : live) (hsame : ∀ k, rank t k = rank s k)
    : ¬ act := by
  intro hact
  obtain ⟨k, hlt⟩ := h.rises hlive hact
  rw [hsame k] at hlt
  exact Int.lt_irrefl _ hlt

end Ratchets
end Emane

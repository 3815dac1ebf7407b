import Mathlib.Data.List.Basic
import Mathlib.Data.List.Induction
import Mathlib.Data.Option.Basic

/-!
This module contains runs of machines that are given by a partial step function: an input is taken
or the step is not defined.
-/

namespace Emane

variable {σ : Type u} {α : Type v}

def run (step : σ → α → Option σ) (s : σ) : List α → Option σ
  | [] => some s
  | a :: as => (step s a).bind (fun s' => run step s' as)

def Guarded (step : σ → α → Option σ) (ok : σ → α → Prop) (s : σ) : List α → Prop
  | [] => True
  | a :: as => ok s a ∧ ∀ s', step s a = some s' → Guarded step ok s' as

instance Guarded.decidable (step : σ → α → Option σ) (ok : σ → α → Prop) [∀ s a, Decidable (ok s a)]
    : (s : σ) → (as : List α) → Decidable (Guarded step ok s as)
  | _, [] => isTrue trivial
  | s, a :: as =>
    match h : step s a with
    | none => decidable_of_iff (ok s a) (by simp [Guarded, h])
    | some s' =>
      have := Guarded.decidable step ok s' as
      decidable_of_iff (ok s a ∧ Guarded step ok s' as) (by simp [Guarded, h])

variable {step : σ → α → Option σ} {ok : σ → α → Prop} {s : σ} {as : List α}

theorem Guarded.and {ok' : σ → α → Prop} (h : Guarded step ok s as)
    (h' : Guarded step ok' s as)
    : Guarded step (fun s a => ok s a ∧ ok' s a) s as := by
  induction as generalizing s with
  | nil => trivial
  | cons a as ih => exact ⟨⟨h.1, h'.1⟩, fun t ht => ih (h.2 t ht) (h'.2 t ht)⟩

theorem Guarded.mono {ok' : σ → α → Prop} (himp : ∀ s a, ok s a → ok' s a)
    (h : Guarded step ok s as)
    : Guarded step ok' s as := by
  induction as generalizing s with
  | nil => trivial
  | cons a as ih => exact ⟨himp s a h.1, fun t ht => ih (h.2 t ht)⟩

@[simp]
theorem run_nil (step : σ → α → Option σ) (s : σ) : run step s [] = some s := by
  rfl

@[simp]
theorem run_cons (step : σ → α → Option σ) (s : σ) (a : α) (as : List α)
    : run step s (a :: as) = (step s a).bind (fun s' => run step s' as) := by
  rfl

theorem run_append (step : σ → α → Option σ) (s : σ) (as bs : List α)
    : run step s (as ++ bs) = (run step s as).bind (fun s' => run step s' bs) := by
  induction as generalizing s with
  | nil => rfl
  | cons a as ih =>
    simp only [List.cons_append, run_cons]
    cases step s a with
    | none => rfl
    | some s' => exact ih s'

/--
The invariant rule: what holds at the start and is kept by every guarded step holds at the end of
every guarded run.
-/
theorem run_inv {step : σ → α → Option σ} {ok : σ → α → Prop} {inv : σ → Prop}
    (hstep : ∀ s a s', inv s → ok s a → step s a = some s' → inv s')
    {s : σ} {as : List α} {s' : σ} (hinv : inv s) (hok : Guarded step ok s as)
    (hrun : run step s as = some s')
    : inv s' := by
  induction as generalizing s with
  | nil =>
    simp only [run_nil, Option.some.injEq] at hrun
    exact hrun ▸ hinv
  | cons a as ih =>
    rw [run_cons, Option.bind_eq_some_iff] at hrun
    obtain ⟨t, hst, hrun⟩ := hrun
    exact ih (hstep s a t hinv hok.1 hst) (hok.2 t hst) hrun

variable {inv : σ → Prop}

theorem run_total
    (hstep : ∀ s a, inv s → ok s a → ∃ s', step s a = some s' ∧ inv s') (hinv : inv s)
    (hok : Guarded step ok s as)
    : ∃ s', run step s as = some s' ∧ inv s' := by
  induction as generalizing s with
  | nil => exact ⟨s, rfl, hinv⟩
  | cons a as ih =>
    obtain ⟨t, hst, ht⟩ := hstep s a hinv hok.1
    obtain ⟨s', hrun, hs'⟩ := ih ht (hok.2 t hst)
    refine ⟨s', ?_, hs'⟩
    simp [hst, hrun]

/--
The simulation rule: if a function of the state commutes with every step then it does so with
every run. The second machine may be undefined only where the first one is.
-/
theorem run_map {τ : Type w} {step' : τ → α → Option τ} {abs : σ → τ}
    (hstep : ∀ s a, inv s → (step s a).map abs = step' (abs s) a)
    (hinv : ∀ s a s', inv s → step s a = some s' → inv s') (h : inv s) (as : List α)
    : (run step s as).map abs = run step' (abs s) as := by
  induction as generalizing s with
  | nil => rfl
  | cons a as ih =>
    rw [run_cons, run_cons, ← hstep s a h]
    cases hst : step s a with
    | none => rfl
    | some s' => exact ih (hinv s a s' h hst)

theorem run_defined_iff
    (hdef : ∀ s a, inv s → ((∃ s', step s a = some s') ↔ ok s a))
    (hstep : ∀ s a s', inv s → step s a = some s' → inv s') (hinv : inv s)
    : (∃ s', run step s as = some s') ↔ Guarded step ok s as := by
  induction as generalizing s with
  | nil => exact ⟨fun _ => trivial, fun _ => ⟨s, rfl⟩⟩
  | cons a as ih =>
    constructor
    . rintro ⟨s', hrun⟩
      rw [run_cons, Option.bind_eq_some_iff] at hrun
      obtain ⟨t, hst, hrun⟩ := hrun
      refine ⟨(hdef s a hinv).mp ⟨t, hst⟩, ?_⟩
      intro t' hst'
      obtain rfl : t = t' := Option.some.inj (hst.symm.trans hst')
      exact (ih (hstep s a t hinv hst)).mp ⟨s', hrun⟩
    . rintro ⟨hok, hrest⟩
      obtain ⟨t, hst⟩ := (hdef s a hinv).mpr hok
      obtain ⟨s', hrun⟩ := (ih (hstep s a t hinv hst)).mpr (hrest t hst)
      refine ⟨s', ?_⟩
      rw [run_cons, hst, Option.bind_some]
      exact hrun

variable {s' : σ}

/--
If the guard is exactly what a step needs to keep the state good, then a run ends well if and only
if it is guarded.
-/
theorem run_good_iff {good : σ → Prop}
    (hkeep : ∀ s a s', inv s → step s a = some s' → inv s')
    (hstep : ∀ s a s', inv s → step s a = some s' → (good s' ↔ good s ∧ ok s a)) (hinv : inv s)
    (hrun : run step s as = some s')
    : good s' ↔ good s ∧ Guarded step ok s as := by
  induction as generalizing s with
  | nil =>
    cases hrun
    exact ⟨fun h => ⟨h, trivial⟩, fun h => h.1⟩
  | cons a as ih =>
    rw [run_cons, Option.bind_eq_some_iff] at hrun
    obtain ⟨t, hst, hrun⟩ := hrun
    have hrest := ih (hkeep s a t hinv hst) hrun
    have hfirst := hstep s a t hinv hst
    constructor
    . intro h
      obtain ⟨hgood, hguarded⟩ := hrest.mp h
      obtain ⟨hgood, hok⟩ := hfirst.mp hgood
      refine ⟨hgood, hok, ?_⟩
      intro t' hst'
      obtain rfl := Option.some.inj (hst.symm.trans hst')
      exact hguarded
    . rintro ⟨hgood, hok, hguarded⟩
      exact hrest.mpr ⟨hfirst.mpr ⟨hgood, hok⟩, hguarded t hst⟩

/--
If the guard is exactly what keeps a good state good, then every state that is reached is good if
and only if the run is guarded.
-/
theorem run_always_iff {step : σ → α → Option σ} {ok : σ → α → Prop} {inv good : σ → Prop}
    (hkeep : ∀ s a s', inv s → step s a = some s' → inv s')
    (hstep : ∀ s a s', inv s → good s → step s a = some s' → (good s' ↔ ok s a))
    {s s' : σ} {as : List α} (hinv : inv s) (hgood : good s) (hrun : run step s as = some s')
    : (∀ (bs cs : List α) (t : σ), as = bs ++ cs → run step s bs = some t → good t)
        ↔ Guarded step ok s as := by
  induction as generalizing s with
  | nil =>
    refine ⟨fun _ => trivial, ?_⟩
    intro _ bs cs t heq hbs
    obtain rfl := (List.append_eq_nil_iff.mp heq.symm).1
    cases hbs
    exact hgood
  | cons a as ih =>
    rw [run_cons, Option.bind_eq_some_iff] at hrun
    obtain ⟨t, hst, hrun⟩ := hrun
    have hfirst := hstep s a t hinv hgood hst
    have hrest : good t → _ := fun hgood => ih (hkeep s a t hinv hst) hgood hrun
    constructor
    . intro h
      have hgood' : good t := h [a] as t rfl (by rw [run_cons, hst]; rfl)
      refine ⟨hfirst.mp hgood', ?_⟩
      intro t' hst'
      obtain rfl := Option.some.inj (hst.symm.trans hst')
      apply (hrest hgood').mp
      intro bs cs u heq hbs
      apply h (a :: bs) cs u (by rw [heq, List.cons_append])
      rw [run_cons, hst]
      exact hbs
    . rintro ⟨hok, hguarded⟩ bs cs u heq hbs
      cases bs with
      | nil =>
        cases hbs
        exact hgood
      | cons b bs =>
        rw [List.cons_append, List.cons.injEq] at heq
        obtain ⟨rfl, heq⟩ := heq
        rw [run_cons, hst] at hbs
        exact (hrest (hfirst.mpr hok)).mpr (hguarded t hst) bs cs u heq hbs

theorem run_steps_iff {good : σ → α → σ → Prop}
    (hstep : ∀ s a s', inv s → step s a = some s' → (good s a s' ↔ ok s a))
    (hkeep : ∀ s a s', inv s → ok s a → step s a = some s' → inv s') (hinv : inv s)
    (hrun : run step s as = some s')
    : (∀ (bs : List α) (a : α) (cs : List α) (t t' : σ), as = bs ++ a :: cs → run step s bs = some t
        → step t a = some t' →
          good t a t')
        ↔
      Guarded step ok s as := by
  induction as generalizing s with
  | nil =>
    refine ⟨fun _ => trivial, ?_⟩
    intro _ bs a cs t t' heq
    exact absurd heq.symm (by simp)
  | cons a as ih =>
    rw [run_cons, Option.bind_eq_some_iff] at hrun
    obtain ⟨t, hst, hrun⟩ := hrun
    constructor
    . intro h
      have hok : ok s a := (hstep s a t hinv hst).mp (h [] a as s t rfl rfl hst)
      refine ⟨hok, ?_⟩
      intro t' hst'
      obtain rfl := Option.some.inj (hst.symm.trans hst')
      apply (ih (hkeep s a t hinv hok hst) hrun).mp
      intro bs b cs u u' heq hbs hu
      apply h (a :: bs) b cs u u' (by rw [heq, List.cons_append]) ?_ hu
      rw [run_cons, hst]
      exact hbs
    . rintro ⟨hok, hguarded⟩ bs b cs u u' heq hbs hu
      cases bs with
      | nil =>
        obtain ⟨rfl, rfl⟩ := List.cons.inj heq
        cases hbs
        exact (hstep s a u' hinv hu).mpr hok
      | cons b' bs =>
        rw [List.cons_append, List.cons.injEq] at heq
        obtain ⟨rfl, heq⟩ := heq
        rw [run_cons, hst] at hbs
        exact (ih (hkeep s a t hinv hok hst) hrun).mpr (hguarded t hst) bs b cs u u' heq hbs hu

theorem guarded_append_iff {bs : List α}
    : Guarded step ok s (as ++ bs) ↔ Guarded step ok s as ∧ ∀ s', run step s as = some s'
        → Guarded step ok s' bs := by
  induction as generalizing s with
  | nil => simp [Guarded]
  | cons a as ih =>
    simp only [List.cons_append, Guarded, ih, run_cons, Option.bind_eq_some_iff]
    constructor
    . rintro ⟨hok, hrest⟩
      refine ⟨⟨hok, fun t ht => (hrest t ht).1⟩, ?_⟩
      rintro s' ⟨t, ht, hrun⟩
      exact (hrest t ht).2 s' hrun
    . rintro ⟨⟨hok, hfirst⟩, hsecond⟩
      exact ⟨hok, fun t ht => ⟨hfirst t ht, fun s' hrun => hsecond s' ⟨t, ht, hrun⟩⟩⟩

theorem Guarded.last {a : α}
    (h : Guarded step ok s (as ++ [a])) (hrun : run step s as = some s')
    : ok s' a := by
  exact ((guarded_append_iff.mp h).2 s' hrun).1

theorem Guarded.of_append {step : σ → α → Option σ} {ok : σ → α → Prop} {s : σ} {as bs : List α}
    (h : Guarded step ok s (as ++ bs))
    : Guarded step ok s as := by
  exact (guarded_append_iff.mp h).1

theorem guarded_of_forall {ok : α → Prop}
    (h : ∀ a ∈ as, ok a)
    : Guarded step (fun _ a => ok a) s as := by
  induction as generalizing s with
  | nil => trivial
  | cons a as ih =>
    exact ⟨h a (by simp), fun t _ => ih (fun b hb => h b (by simp [hb]))⟩

/--
The invariant rule for what is said of a state in terms of the inputs that have led to it.
-/
theorem run_history {s₀ : σ} {inv : List α → σ → Prop}
    (hstep : ∀ as s a s', run step s₀ as = some s → inv as s → ok s a → step s a = some s'
      → inv (as ++ [a]) s')
    (hinit : inv [] s₀) (hok : Guarded step ok s₀ as) (hrun : run step s₀ as = some s)
    : inv as s := by
  induction as using List.reverseRecOn generalizing s with
  | nil => exact Option.some.inj hrun ▸ hinit
  | append_singleton as a ih =>
    rw [run_append, Option.bind_eq_some_iff] at hrun
    obtain ⟨t, ht, hrun⟩ := hrun
    rw [run_cons, Option.bind_eq_some_iff] at hrun
    obtain ⟨t', hst, hrun⟩ := hrun
    obtain rfl := Option.some.inj hrun
    exact hstep as t a t' ht (ih hok.of_append ht) (hok.last ht) hst

/--
The same for what is told from the inputs that have been fed.
-/
theorem forall_fed_inv_iff {good inv : List α → Prop} {ok : List α → α → Prop} {as : List α}
    (hnil : good []) (hinv : inv [])
    (hstep : ∀ fed a later, as = fed ++ a :: later → inv fed → good fed →
      (good (fed ++ [a]) ↔ ok fed a) ∧ (ok fed a → inv (fed ++ [a])))
    : (∀ fed later, as = fed ++ later → good fed) ↔ ∀ fed a later, as = fed ++ a :: later → ok fed a := by
  constructor
  . intro h
    have hinv' : ∀ fed later, as = fed ++ later → inv fed := by
      intro fed
      induction fed using List.reverseRecOn with
      | nil => exact fun _ _ => hinv
      | append_singleton fed a ih =>
        intro later heq
        have hgood := h (fed ++ [a]) later heq
        have heq : as = fed ++ a :: later := by simp [heq]
        obtain ⟨hiff, hkeep⟩ := hstep fed a later heq (ih (a :: later) heq) (h fed (a :: later) heq)
        exact hkeep (hiff.mp hgood)
    intro fed a later heq
    apply (hstep fed a later heq (hinv' fed (a :: later) heq) (h fed (a :: later) heq)).1.mp
    exact h (fed ++ [a]) later (by simp [heq])
  . intro h
    have hboth : ∀ fed later, as = fed ++ later → inv fed ∧ good fed := by
      intro fed
      induction fed using List.reverseRecOn with
      | nil => exact fun _ _ => ⟨hinv, hnil⟩
      | append_singleton fed a ih =>
        intro later heq
        have heq : as = fed ++ a :: later := by simp [heq]
        obtain ⟨hfed, hgood⟩ := ih (a :: later) heq
        obtain ⟨hiff, hkeep⟩ := hstep fed a later heq hfed hgood
        exact ⟨hkeep (h fed a later heq), hiff.mpr (h fed a later heq)⟩
    exact fun fed later heq => (hboth fed later heq).2

theorem forall_fed_iff {good : List α → Prop} {ok : List α → α → Prop} {as : List α} (hnil : good [])
    (hstep : ∀ fed a later, as = fed ++ a :: later → good fed → (good (fed ++ [a]) ↔ ok fed a))
    : (∀ fed later, as = fed ++ later → good fed) ↔ ∀ fed a later, as = fed ++ a :: later → ok fed a := by
  apply @forall_fed_inv_iff _ good good ok as hnil hnil
  intro fed a later heq hgood _
  have hiff := hstep fed a later heq hgood
  exact ⟨hiff, hiff.mpr⟩

theorem guarded_fed_iff {ok : List α → α → Prop} {fed : List α}
    : Guarded (fun fed a => some (fed ++ [a])) ok fed as ↔ ∀ bs a cs, as = bs ++ a :: cs
        → ok (fed ++ bs) a := by
  induction as generalizing fed with
  | nil => simp [Guarded]
  | cons a as ih =>
    simp only [Guarded, Option.some.injEq, forall_eq', ih]
    constructor
    . rintro ⟨hok, hrest⟩ bs b cs heq
      cases bs with
      | nil =>
        obtain ⟨rfl, rfl⟩ := List.cons.inj heq
        rw [List.append_nil]
        exact hok
      | cons b' bs =>
        obtain ⟨rfl, rfl⟩ := List.cons.inj heq
        have hb := hrest bs b cs rfl
        rw [List.append_assoc] at hb
        exact hb
    . intro h
      constructor
      . have ha := h [] a as rfl
        rw [List.append_nil] at ha
        exact ha
      . rintro bs b cs rfl
        rw [List.append_assoc]
        exact h (a :: bs) b cs rfl

theorem forall_fed_filterMap_iff {β : Type w} {f : α → Option β} {ok : List β → β → Prop}
    : (∀ xs b ys, as.filterMap f = xs ++ b :: ys → ok xs b)
        ↔
      ∀ fed a later, as = fed ++ a :: later → ∀ b, f a = some b → ok (fed.filterMap f) b := by
  constructor
  . rintro h fed a later rfl b hb
    apply h (fed.filterMap f) b (later.filterMap f)
    rw [List.filterMap_append, List.filterMap_cons_some hb]
  . intro h xs b ys heq
    obtain ⟨fed, rest, rfl, hxs, hrest⟩ := List.filterMap_eq_append_iff.mp heq
    obtain ⟨skipped, a, later, rfl, hskipped, ha, -⟩ := List.filterMap_eq_cons_iff.mp hrest
    have hfed : (fed ++ skipped).filterMap f = xs := by
      rw [List.filterMap_append, hxs, List.filterMap_eq_nil_iff.mpr hskipped, List.append_nil]
    rw [← hfed]
    exact h (fed ++ skipped) a later (by rw [List.append_assoc]) b ha

end Emane

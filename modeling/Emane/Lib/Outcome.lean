import Mathlib.Data.List.Basic
import Mathlib.Data.List.Forall2

/-!
This module contains postconditions of computations that can fail: one for the result and one for
the error.
-/

namespace Emane

variable {ε : Type u} {α : Type v} {β : Type v}

def Ensures (x : Except ε α) (post : α → Prop) (fail : ε → Prop) : Prop :=
  match x with
  | .ok a => post a
  | .error e => fail e

namespace Ensures

variable {x : Except ε α} {post : α → Prop} {fail : ε → Prop}

variable {a : α}

theorem ok (h : post a) : Ensures (.ok a : Except ε α) post fail := by
  exact h

theorem error {e : ε} (h : fail e) : Ensures (.error e : Except ε α) post fail := by
  exact h

theorem of_ok (h : Ensures x post fail) (hx : x = .ok a) : post a := by
  subst hx
  exact h

theorem of_error (h : Ensures x post fail) {e : ε} (hx : x = .error e) : fail e := by
  subst hx
  exact h

theorem of_toOption (h : Ensures x post fail) (hx : x.toOption = some a) : post a := by
  cases x with
  | ok a' =>
    cases hx
    exact h
  | error e => cases hx

theorem mono {post' : α → Prop} {fail' : ε → Prop} (h : Ensures x post fail)
    (hpost : ∀ a, post a → post' a)
    (hfail : ∀ e, fail e → fail' e)
    : Ensures x post' fail' := by
  cases x with
  | ok a => exact hpost a h
  | error e => exact hfail e h

variable {f : α → Except ε β}

theorem bind {post' : β → Prop} (h : Ensures x post fail)
    (hf : ∀ a, post a → Ensures (f a) post' fail)
    : Ensures (x >>= f) post' fail := by
  cases x with
  | ok a => exact hf a h
  | error e => exact h

variable {γ : Type w}

theorem map {post' : γ → Prop} {f : α → γ} (h : Ensures x post fail) (hf : ∀ a, post a → post' (f a))
    : Ensures (x.map f) post' fail := by
  cases x with
  | ok a => exact hf a h
  | error e => exact h

theorem bind_of_fail {post' : β → Prop} (h : ∀ e, x = .error e → fail e)
    (hf : ∀ a, x = .ok a → Ensures (f a) post' fail)
    : Ensures (x >>= f) post' fail := by
  cases hx : x with
  | ok a => exact hf a hx
  | error e => exact h e hx

theorem bind_of_eq {post : β → Prop} (hx : x = .ok a) (h : Ensures (f a) post fail)
    : Ensures (x >>= f) post fail := by
  rw [hx]
  exact h

theorem and {post' : α → Prop} {fail' : ε → Prop} (h : Ensures x post fail) (h' : Ensures x post' fail')
    : Ensures x (fun a => post a ∧ post' a) fail := by
  cases x with
  | ok a => exact ⟨h, h'⟩
  | error e => exact h

theorem foldlM {γ : Type w} {f : α → γ → Except ε α} {l : List γ}
    (hstep : ∀ a, ∀ c ∈ l, post a → Ensures (f a c) post fail) {a : α} (h : post a)
    : Ensures (l.foldlM f a) post fail := by
  induction l generalizing a with
  | nil => exact h
  | cons c l ih =>
    apply bind (hstep a c List.mem_cons_self h)
    intro a' h'
    exact ih (fun a c hc => hstep a c (List.mem_cons_of_mem _ hc)) h'

theorem of_foldlM (post : α → Prop) {f : α → γ → Except ε α} {l : List γ}
    (hstep : ∀ a c a', post a → f a c = .ok a' → post a') {a' : α} (h : post a)
    (hrun : l.foldlM f a = .ok a')
    : post a' := by
  have hloop : Ensures (l.foldlM f a) post (fun _ => True) := by
    refine foldlM ?_ h
    intro a c _ ha
    cases hx : f a c with
    | ok a' => exact hstep a c a' ha hx
    | error e => exact trivial
  exact hloop.of_ok hrun

theorem foldlM_trace {δ : Type t} {f : α → γ → Except ε α} {l : List γ} {g : γ → List δ}
    {post : List δ → α → Prop}
    (hstep : ∀ (ds : List δ) (a : α), ∀ c ∈ l, post ds a → Ensures (f a c) (post (ds ++ g c)) fail)
    {ds : List δ}
    (h : post ds a)
    : Ensures (l.foldlM f a) (post (ds ++ l.flatMap g)) fail := by
  induction l generalizing ds a with
  | nil =>
    rw [List.flatMap_nil, List.append_nil]
    exact h
  | cons c l ih =>
    rw [List.foldlM_cons, List.flatMap_cons, ← List.append_assoc]
    apply bind (hstep ds a c List.mem_cons_self h)
    intro a' h'
    exact ih (fun ds a c hc => hstep ds a c (List.mem_cons_of_mem _ hc)) h'

/--
A loop over different elements that fails exactly at an element that is not admitted, where a step
only changes how its own element looks.
-/
theorem foldlM_exact {δ : Type t} {f : α → γ → Except ε α} (look : α → γ → δ) (admits : δ → Prop)
    {l : List γ}
    (hstep : ∀ a, ∀ c ∈ l,
      Ensures (f a c) (fun a' => admits (look a c) ∧ ∀ c', c' ≠ c → look a' c' = look a c')
      (fun _ => ¬ admits (look a c)))
    (hnodup : l.Nodup) (a : α)
    : Ensures (l.foldlM f a)
        (fun a' => (∀ c ∈ l, admits (look a c)) ∧ ∀ c', c' ∉ l → look a' c' = look a c')
        (fun _ => ¬ ∀ c ∈ l, admits (look a c)) := by
  induction l generalizing a with
  | nil => exact .ok ⟨fun _ hc => absurd hc List.not_mem_nil, fun _ _ => rfl⟩
  | cons c l ih =>
    obtain ⟨hfresh, hnodup⟩ := List.nodup_cons.mp hnodup
    rw [List.foldlM_cons]
    cases hone : f a c with
    | error e =>
      have hrefused := (hstep a c List.mem_cons_self).of_error hone
      exact .error (fun hall => hrefused (hall c List.mem_cons_self))
    | ok a₁ =>
      obtain ⟨hadmits, hothers⟩ := (hstep a c List.mem_cons_self).of_ok hone
      have hlook : ∀ c' ∈ l, look a₁ c' = look a c' := by
        intro c' hc'
        apply hothers
        rintro rfl
        exact hfresh hc'
      have hrest : (∀ c' ∈ l, admits (look a₁ c')) ↔ ∀ c' ∈ l, admits (look a c') :=
        forall₂_congr (fun c' hc' => by rw [hlook c' hc'])
      apply (ih (fun a c' hc' => hstep a c' (List.mem_cons_of_mem _ hc')) hnodup a₁).mono
      . rintro a' ⟨hall, houtside⟩
        refine ⟨List.forall_mem_cons.mpr ⟨hadmits, hrest.mp hall⟩, ?_⟩
        intro c' hc'
        rw [List.mem_cons, not_or] at hc'
        exact (houtside c' hc'.2).trans (hothers c' hc'.1)
      . intro e hfail hall
        exact hfail (hrest.mpr (List.forall_mem_cons.mp hall).2)

end Ensures

variable {x : Except ε α}

theorem toOption_eq_some_iff {a : α} : x.toOption = some a ↔ x = .ok a := by
  cases x with
  | ok b => exact ⟨fun h => congrArg Except.ok (Option.some.inj h), fun h => congrArg some
    (Except.ok.inj h)⟩
  | error e =>
    constructor
    . intro h
      cases h
    . intro h
      cases h

theorem isOk_iff : x.isOk = true ↔ ∃ a, x = .ok a := by
  cases x with
  | ok a => simp [Except.isOk, Except.toBool]
  | error e => simp [Except.isOk, Except.toBool]

variable {f : α → Except ε β}

theorem bind_eq_ok_iff {b : β} : x >>= f = .ok b ↔ ∃ a, x = .ok a ∧ f a = .ok b := by
  cases x with
  | ok a =>
    constructor
    . exact fun h => ⟨a, rfl, h⟩
    . rintro ⟨a', heq, h⟩
      cases heq
      exact h
  | error e =>
    constructor
    . intro h
      cases h
    . rintro ⟨a', heq, -⟩
      cases heq

variable {l : List α}

theorem forM_eq_ok_iff {f : α → Except ε PUnit} {u : PUnit}
    : l.forM f = .ok u ↔ ∀ a ∈ l, f a = .ok ⟨⟩ := by
  induction l with
  | nil => simp [pure, Except.pure]
  | cons a l ih =>
    rw [List.forM, bind_eq_ok_iff, List.forall_mem_cons]
    constructor
    . rintro ⟨_, ha, hl⟩
      exact ⟨ha, ih.mp hl⟩
    . rintro ⟨ha, hl⟩
      exact ⟨⟨⟩, ha, ih.mpr hl⟩

theorem mapM_eq_ok_iff {bs : List β}
    : l.mapM f = .ok bs ↔ List.Forall₂ (fun a b => f a = .ok b) l bs := by
  induction l generalizing bs with
  | nil =>
    rw [List.mapM_nil]
    simp only [pure, Except.pure, Except.ok.injEq, List.forall₂_nil_left_iff]
    exact eq_comm
  | cons a l ih =>
    rw [List.mapM_cons, bind_eq_ok_iff]
    constructor
    . rintro ⟨b, hb, hrest⟩
      rw [bind_eq_ok_iff] at hrest
      obtain ⟨bs', hbs', hpure⟩ := hrest
      cases hpure
      exact .cons hb (ih.mp hbs')
    . rintro (_ | ⟨hb, hrest⟩)
      exact ⟨_, hb, bind_eq_ok_iff.mpr ⟨_, ih.mpr hrest, rfl⟩⟩

theorem mapM_isOk_iff : (∃ bs, l.mapM f = .ok bs) ↔ ∀ a ∈ l, ∃ b, f a = .ok b := by
  induction l with
  | nil => exact ⟨fun _ _ hmem => absurd hmem List.not_mem_nil, fun _ => ⟨[], rfl⟩⟩
  | cons a l ih =>
    rw [List.forall_mem_cons, ← ih]
    simp only [mapM_eq_ok_iff]
    constructor
    . rintro ⟨_, hbs⟩
      cases hbs with
      | cons hb hrest => exact ⟨⟨_, hb⟩, ⟨_, hrest⟩⟩
    . rintro ⟨⟨b, hb⟩, ⟨bs, hrest⟩⟩
      exact ⟨b :: bs, .cons hb hrest⟩

def Meets {γ : Type w} (f : α → γ → Except ε α) (cond : α → γ → Prop) : List γ → α → Prop
  | [], _ => True
  | c :: l, a => cond a c ∧ ∀ a' ∈ (f a c).toOption, Meets f cond l a'

instance Meets.decidable {γ : Type w} (f : α → γ → Except ε α) (cond : α → γ → Prop)
    [∀ a c, Decidable (cond a c)]
    : ∀ l a, Decidable (Meets f cond l a)
  | [], _ => inferInstanceAs (Decidable True)
  | c :: l, a =>
    have := Meets.decidable f cond l
    inferInstanceAs (Decidable (cond a c ∧ ∀ a' ∈ (f a c).toOption, Meets f cond l a'))

theorem Meets.foldlM {γ : Type w} (inv : α → Prop) {f : α → γ → Except ε α} {cond : α → γ → Prop}
    (hstep : ∀ a c a', inv a → cond a c → f a c = .ok a' → inv a') {l : List γ} {a a' : α}
    (h : Meets f cond l a) (ha : inv a)
    (hrun : l.foldlM f a = .ok a')
    : inv a' := by
  induction l generalizing a with
  | nil =>
    cases hrun
    exact ha
  | cons c l ih =>
    rw [List.foldlM_cons, bind_eq_ok_iff] at hrun
    obtain ⟨a₁, hfirst, hrest⟩ := hrun
    exact ih (h.2 a₁ (toOption_eq_some_iff.mpr hfirst)) (hstep a c a₁ ha h.1 hfirst) hrest

variable {γ : Type v}

theorem exists_of_mem_left {δ : Type w} {r : γ → δ → Prop} {l : List γ} {l' : List δ}
    (h : List.Forall₂ r l l') {c : γ}
    (hc : c ∈ l)
    : ∃ d ∈ l', r c d := by
  induction h with
  | nil => exact absurd hc List.not_mem_nil
  | cons hr _ ih =>
    rcases List.mem_cons.mp hc with rfl | hc
    . exact ⟨_, List.mem_cons_self, hr⟩
    . obtain ⟨d, hd, hr⟩ := ih hc
      exact ⟨d, List.mem_cons_of_mem _ hd, hr⟩

theorem exists_of_mem_right {δ : Type w} {r : γ → δ → Prop} {l : List γ} {l' : List δ}
    (h : List.Forall₂ r l l') {d : δ}
    (hd : d ∈ l')
    : ∃ c ∈ l, r c d := by
  exact exists_of_mem_left h.flip hd

/--
A loop that adds an entry for every element, if there is none for its key yet. It goes through if
and only if the keys are different and none of them is there from the start.
-/
theorem foldlM_fresh_iff {σ : Type u} {κ : Type w} {ν : Type x} {step : σ → γ → Except ε σ}
    (read : γ → κ × ν → Prop)
    (free : σ → κ → Prop) {add : σ → κ × ν → σ}
    (hstep : ∀ s c s', step s c = .ok s' ↔ ∃ p, read c p ∧ free s p.1 ∧ s' = add s p)
    (hfree : ∀ s p k, free (add s p) k ↔ k ≠ p.1 ∧ free s k) (l : List γ) (s s' : σ)
    : l.foldlM step s = .ok s'
        ↔
      ∃ ps, List.Forall₂ read l ps ∧ (ps.map Prod.fst).Nodup ∧ (∀ p ∈ ps, free s p.1)
          ∧ s' = ps.foldl add s := by
  induction l generalizing s with
  | nil =>
    constructor
    . intro h
      exact ⟨[], .nil, .nil, fun _ h => absurd h List.not_mem_nil, (Except.ok.inj h).symm⟩
    . rintro ⟨ps, hps, -, -, rfl⟩
      obtain rfl := List.forall₂_nil_left_iff.mp hps
      rfl
  | cons c l ih =>
    rw [List.foldlM_cons, bind_eq_ok_iff]
    constructor
    . rintro ⟨s₁, hfirst, hrest⟩
      obtain ⟨p, hread, hp, rfl⟩ := (hstep s c s₁).mp hfirst
      obtain ⟨ps, hps, hnodup, hall, rfl⟩ := (ih (add s p)).mp hrest
      refine ⟨p :: ps, .cons hread hps, ?_, List.forall_mem_cons.mpr
        ⟨hp, fun q hq => ((hfree s p q.1).mp (hall q hq)).2⟩, rfl⟩
      rw [List.map_cons, List.nodup_cons]
      refine ⟨fun hmem => ?_, hnodup⟩
      obtain ⟨q, hq, heq⟩ := List.mem_map.mp hmem
      exact ((hfree s p q.1).mp (hall q hq)).1 heq
    . rintro ⟨ps, hps, hnodup, hall, rfl⟩
      obtain ⟨p, rest, hread, hrest, rfl⟩ := List.forall₂_cons_left_iff.mp hps
      rw [List.map_cons, List.nodup_cons] at hnodup
      obtain ⟨hp, hall⟩ := List.forall_mem_cons.mp hall
      refine ⟨add s p, (hstep s c _).mpr ⟨p, hread, hp, rfl⟩, (ih (add s p)).mpr
        ⟨rest, hrest, hnodup.2, fun q hq => ?_, rfl⟩⟩
      exact (hfree s p q.1).mpr ⟨fun heq => hnodup.1 (List.mem_map.mpr ⟨q, hq, heq⟩), hall q hq⟩

def foldUntil {γ : Type w} (f : α → γ → α × Option ε) : List γ → α → α × Option ε
  | [], a => (a, none)
  | c :: l, a =>
    match f a c with
    | (a', none) => foldUntil f l a'
    | (a', some e) => (a', some e)

def mapUntil (f : α → α × Option ε) : List α → List α × Option ε
  | [] => ([], none)
  | a :: l =>
    match f a with
    | (a', none) => (a' :: (mapUntil f l).1, (mapUntil f l).2)
    | (a', some e) => (a' :: l, some e)

theorem foldUntil_of_none {γ : Type w} {f : α → γ → α × Option ε} {g : α → γ → α} {l : List γ}
    (h : ∀ a, ∀ c ∈ l, f a c = (g a c, none)) (a : α)
    : foldUntil f l a = (l.foldl g a, none) := by
  induction l generalizing a with
  | nil => rfl
  | cons c l ih =>
    rw [foldUntil, h a c List.mem_cons_self, List.foldl_cons]
    exact ih (fun a c hc => h a c (List.mem_cons_of_mem _ hc)) (g a c)

theorem mapUntil_eq_none_iff {f : α → α × Option ε} {l' : List α}
    : mapUntil f l = (l', none) ↔ List.Forall₂ (fun a a' => f a = (a', none)) l l' := by
  induction l generalizing l' with
  | nil =>
    rw [List.forall₂_nil_left_iff]
    exact ⟨fun h => (Prod.mk.inj h).1.symm, fun h => by rw [h]; rfl⟩
  | cons a l ih =>
    rw [List.forall₂_cons_left_iff, mapUntil]
    rcases hf : f a with ⟨a', _ | e⟩
    . constructor
      . intro h
        obtain ⟨hl', hnone⟩ := Prod.mk.inj h
        exact ⟨a', (mapUntil f l).1, rfl, ih.mp (Prod.ext rfl hnone), hl'.symm⟩
      . rintro ⟨b, rest, hb, hrest, rfl⟩
        cases hb
        rw [ih.mpr hrest]
    . constructor
      . intro h
        cases (Prod.mk.inj h).2
      . rintro ⟨b, rest, hb, -, -⟩
        cases (Prod.mk.inj hb).2

end Emane

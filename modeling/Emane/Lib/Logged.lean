import Mathlib.Algebra.GroupWithZero.Nat
import Mathlib.Control.Monad.Writer
import Emane.Lib.Memory

/-!
This module contains computations that keep a log of what they do, and programs over a buffer.
-/

namespace Emane

abbrev Logged (ω : Type) (α : Type) := Writer (List ω) α

namespace Logged

variable {ω α β γ : Type}

def log (x : Logged ω α) : List ω :=
  (Id.run x.run).2

def result (x : Logged ω α) : α :=
  (Id.run x.run).1

def Within (x : Logged ω α) (p : ω → Prop) : Prop :=
  ∀ e ∈ x.log, p e

instance (x : Logged ω α) (p : ω → Prop) [DecidablePred p] : Decidable (Within x p) :=
  inferInstanceAs (Decidable (∀ e ∈ x.log, p e))

def findIf (f : γ → Logged ω Bool) : List γ → Logged ω Bool
  | [] => return false
  | c :: l => do
    if ← f c then
      return true
    else
      findIf f l

@[simp]
theorem result_pure (a : α) : result (pure a : Logged ω α) = a := by
  rfl

@[simp]
theorem result_bind (x : Logged ω α) (f : α → Logged ω β) : result (x >>= f) = result (f x.result) := by
  rfl

@[simp]
theorem within_pure (a : α) (p : ω → Prop) : Within (pure a : Logged ω α) p := by
  intro e he
  cases he

@[simp]
theorem within_tell_iff (es : List ω) (p : ω → Prop)
    : Within (tell es : Logged ω PUnit) p ↔ ∀ e ∈ es, p e := by
  rfl

@[simp]
theorem within_bind_iff (x : Logged ω α) (f : α → Logged ω β) (p : ω → Prop)
    : Within (x >>= f) p ↔ Within x p ∧ Within (f x.result) p := by
  exact List.forall_mem_append

def Decides (x : Logged ω Bool) (p : ω → Prop) (c : Prop) : Prop :=
  x.Within p ∧ (x.result = true ↔ c)

namespace Decides

variable {x rest : Logged ω Bool} {p : ω → Prop} {c c' : Prop}

theorem yes (h : c) : Decides (pure true : Logged ω Bool) p c := by
  exact ⟨within_pure true p, iff_of_true rfl h⟩

theorem no (h : ¬c) : Decides (pure false : Logged ω Bool) p c := by
  exact ⟨within_pure false p, iff_of_false Bool.false_ne_true h⟩

theorem congr (h : Decides x p c) (hiff : c ↔ c') : Decides x p c' := by
  exact ⟨h.1, h.2.trans hiff⟩

theorem result_eq_false (h : Decides x p c) (hc : ¬c) : x.result = false := by
  exact Bool.eq_false_iff.mpr (fun hresult => hc (h.2.mp hresult))

theorem guard (h : Decides x p (¬c')) (hrest : c' → Decides rest p c) (hneeded : c → c')
    : Decides (do if ← x then return false else rest) p c := by
  unfold Decides
  rw [within_bind_iff, result_bind]
  by_cases hc' : c'
  . rw [h.result_eq_false (not_not.mpr hc')]
    exact ⟨⟨h.1, (hrest hc').1⟩, (hrest hc').2⟩
  . rw [h.2.mpr hc']
    have hno := @no ω p c (fun hc => hc' (hneeded hc))
    exact ⟨⟨h.1, hno.1⟩, hno.2⟩

theorem within_rest (h : Decides x p (¬c')) (hc' : c')
    (hall : Within (do if ← x then return false else rest) p)
    : Within rest p := by
  rw [within_bind_iff, h.result_eq_false (not_not.mpr hc')] at hall
  exact hall.2

theorem findIf_iff {f : γ → Logged ω Bool} {l : List γ} {cond : γ → Prop}
    (h : ∀ a ∈ l, (f a).Within p → ((f a).result = true ↔ cond a))
    : Decides (findIf f l) p (∃ a ∈ l, cond a)
        ↔
      ∀ before a after, l = before ++ a :: after → (∀ b ∈ before, ¬cond b) → (f a).Within p := by
  induction l with
  | nil =>
    refine iff_of_true (no (by simp)) ?_
    intro before a after heq
    exact absurd heq (by simp)
  | cons c l ih =>
    rw [List.forall_mem_cons] at h
    by_cases hwithin : (f c).Within p
    . by_cases hc : cond c
      . have hresult : (f c).result = true := (h.1 hwithin).mpr hc
        refine iff_of_true ?_ ?_
        . unfold Decides Logged.findIf
          rw [within_bind_iff, result_bind, hresult]
          exact ⟨⟨hwithin, within_pure true p⟩, iff_of_true rfl ⟨c, List.mem_cons_self, hc⟩⟩
        . intro before a after heq hbefore
          cases before with
          | nil =>
            obtain ⟨rfl, -⟩ := List.cons.inj heq
            exact hwithin
          | cons b before =>
            obtain ⟨rfl, -⟩ := List.cons.inj heq
            exact absurd hc (hbefore c List.mem_cons_self)
      . have hresult : (f c).result = false := Bool.eq_false_iff.mpr
          (fun htrue => hc ((h.1 hwithin).mp htrue))
        have hskip : Decides (Logged.findIf f (c :: l)) p (∃ a ∈ c :: l, cond a)
            ↔ Decides (Logged.findIf f l) p (∃ a ∈ l, cond a) := by
          rw [Decides, Logged.findIf, within_bind_iff, result_bind, hresult, List.exists_mem_cons_iff]
          simp only [hwithin, hc, Bool.false_eq_true, if_false, true_and, false_or]
          rfl
        rw [hskip, ih h.2]
        constructor
        . intro hl before a after heq hbefore
          cases before with
          | nil =>
            obtain ⟨rfl, -⟩ := List.cons.inj heq
            exact hwithin
          | cons b before =>
            obtain ⟨rfl, htail⟩ := List.cons.inj heq
            exact hl before a after htail (List.forall_mem_cons.mp hbefore).2
        . intro hl before a after heq hbefore
          exact hl (c :: before) a after (congrArg (List.cons c) heq)
            (List.forall_mem_cons.mpr ⟨hc, hbefore⟩)
    . refine iff_of_false ?_ ?_
      . rintro ⟨hall, -⟩
        rw [Logged.findIf, within_bind_iff] at hall
        exact hwithin hall.1
      . intro hl
        exact hwithin (hl [] c l rfl (fun b hb => absurd hb List.not_mem_nil))

theorem findIf {f : γ → Logged ω Bool} {l : List γ} {cond : γ → Prop}
    (h : ∀ a ∈ l, Decides (f a) p (cond a))
    : Decides (findIf f l) p (∃ a ∈ l, cond a) := by
  refine (findIf_iff (fun a ha _ => (h a ha).2)).mpr ?_
  rintro before a after rfl -
  exact (h a (by simp)).1

end Decides

end Logged

/--
What can go wrong with a buffer: bytes beyond its end are read, or the difference of two lengths
is less than zero.
-/
inductive BufferStep where
  | read (start length : Nat)
  | subtract (length offset : Nat)
  deriving DecidableEq

namespace BufferStep

def Inside (size : Nat) : BufferStep → Prop
  | .read start length => start + length ≤ size
  | .subtract length offset => offset ≤ length

instance (size : Nat) : DecidablePred (Inside size)
  | .read start length => inferInstanceAs (Decidable (start + length ≤ size))
  | .subtract length offset => inferInstanceAs (Decidable (offset ≤ length))

variable {β : Type}

def load (mem : Nat → β) (start length : Nat) : Logged BufferStep (List β) := do
  tell [.read start length]
  return Memory.load mem start length

def sub (width length offset : Nat) : Logged BufferStep Nat := do
  tell [.subtract length offset]
  return (length + 2^width - offset) % 2^width

@[simp]
theorem result_load (mem : Nat → β) (start length : Nat)
    : (load mem start length).result = Memory.load mem start length := by
  rfl

@[simp]
theorem within_load_iff (mem : Nat → β) (start length : Nat) (p : BufferStep → Prop)
    : (load mem start length).Within p ↔ p (.read start length) := by
  simp [load]

@[simp]
theorem within_sub_iff (width length offset : Nat) (p : BufferStep → Prop)
    : (sub width length offset).Within p ↔ p (.subtract length offset) := by
  simp [sub]

@[simp]
theorem inside_read_iff (size start length : Nat)
    : Inside size (.read start length) ↔ start + length ≤ size := by
  rfl

@[simp]
theorem inside_subtract_iff (size length offset : Nat)
    : Inside size (.subtract length offset) ↔ offset ≤ length := by
  rfl

theorem result_sub {width length offset : Nat} (h : offset ≤ length) (hlength : length < 2^width)
    : (sub width length offset).result = length - offset := by
  change (length + 2^width - offset) % 2^width = length - offset
  rw [Nat.sub_add_comm h, Nat.add_mod_right, Nat.mod_eq_of_lt (by omega)]

end BufferStep
end Emane

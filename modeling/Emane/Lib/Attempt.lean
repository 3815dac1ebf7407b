import Emane.Lib.Logged

/-!
This module contains computations that keep a log of what they do and may have no result.
-/

namespace Emane

abbrev Attempt (ω : Type) (α : Type) := OptionT (Writer (List ω)) α

namespace Attempt

variable {ω α β : Type}

def result (x : Attempt ω α) : Option α :=
  Logged.result x.run

def Within (x : Attempt ω α) (p : ω → Prop) : Prop :=
  Logged.Within x.run p

def note (e : ω) : Attempt ω PUnit :=
  OptionT.lift (tell [e])

def ofOption (x : Option α) : Attempt ω α :=
  OptionT.mk (pure x)

@[simp]
theorem result_note (e : ω) : (note e).result = some ⟨⟩ := by
  rfl

@[simp]
theorem result_ofOption (x : Option α) : (ofOption x : Attempt ω α).result = x := by
  rfl

@[simp]
theorem result_pure (a : α) : (pure a : Attempt ω α).result = some a := by
  rfl

@[simp]
theorem result_failure : (failure : Attempt ω α).result = none := by
  rfl

@[simp]
theorem result_bind (x : Attempt ω α) (f : α → Attempt ω β)
    : (x >>= f).result = x.result.bind (fun a => (f a).result) := by
  unfold result
  rw [OptionT.run_bind, Option.elimM, Logged.result_bind]
  cases Logged.result x.run with
  | none => rfl
  | some a => rfl

@[simp]
theorem result_map (f : α → β) (x : Attempt ω α) : (f <$> x).result = x.result.map f := by
  change (x >>= fun a => pure (f a)).result = x.result.map f
  rw [result_bind, Option.map_eq_bind]
  rfl

variable (p : ω → Prop)

@[simp]
theorem within_note_iff (e : ω) : (note e).Within p ↔ p e := by
  simp [Within, note]

@[simp]
theorem within_ofOption (x : Option α) : (ofOption x : Attempt ω α).Within p := by
  exact Logged.within_pure x p

@[simp]
theorem within_pure (a : α) : (pure a : Attempt ω α).Within p := by
  exact Logged.within_pure (some a) p

@[simp]
theorem within_failure : (failure : Attempt ω α).Within p := by
  exact Logged.within_pure none p

@[simp]
theorem within_bind_iff (x : Attempt ω α) (f : α → Attempt ω β)
    : (x >>= f).Within p ↔ x.Within p ∧ ∀ a ∈ x.result, (f a).Within p := by
  unfold Within result
  rw [OptionT.run_bind, Option.elimM, Logged.within_bind_iff]
  cases Logged.result x.run with
  | none => simp
  | some a => simp

@[simp]
theorem within_map_iff (f : α → β) (x : Attempt ω α) : (f <$> x).Within p ↔ x.Within p := by
  change (x >>= fun a => pure (f a)).Within p ↔ x.Within p
  simp

end Attempt
end Emane

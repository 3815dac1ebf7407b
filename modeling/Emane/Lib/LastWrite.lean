import Mathlib.Data.List.Basic
import Mathlib.Logic.Function.Basic

/-!
This module contains tables that are written key by key, where the last write of a key counts.
-/

namespace Emane

abbrev Store (κ : Type u) (ν : Type v) :=
  κ → Option ν

namespace Store

variable {κ : Type u} {ν : Type v}

def empty : Store κ ν :=
  fun _ => none

def upon (t t' : Store κ ν) : Store κ ν :=
  fun k => (t k).or (t' k)

theorem upon_assoc (t t' t'' : Store κ ν) : (t.upon t').upon t'' = t.upon (t'.upon t'') := by
  funext k
  exact Option.or_assoc

@[simp]
theorem empty_upon (t : Store κ ν) : empty.upon t = t := by
  rfl

@[simp]
theorem upon_empty (t : Store κ ν) : t.upon empty = t := by
  funext k
  exact Option.or_none

section

variable [DecidableEq κ]

def write (t : Store κ ν) (ws : List (κ × ν)) : Store κ ν :=
  ws.foldl (fun t w => Function.update t w.1 (some w.2)) t

def lastWrite (ws : List (κ × ν)) : Store κ ν :=
  fun k => (ws.reverse.find? (fun w => w.1 = k)).map Prod.snd

@[simp]
theorem lastWrite_nil : lastWrite ([] : List (κ × ν)) = empty := by
  rfl

theorem lastWrite_append (ws ws' : List (κ × ν))
    : lastWrite (ws ++ ws') = (lastWrite ws').upon (lastWrite ws) := by
  funext k
  unfold lastWrite upon
  rw [List.reverse_append, List.find?_append, Option.map_or]

theorem lastWrite_ne_empty {ws : List (κ × ν)} (h : ws ≠ []) : lastWrite ws ≠ empty := by
  intro hempty
  obtain ⟨w, hw⟩ := List.exists_mem_of_ne_nil ws h
  have hnone : (ws.reverse.find? (fun w' => w'.1 = w.1)).map Prod.snd = none := congrFun hempty w.1
  rw [Option.map_eq_none_iff, List.find?_eq_none] at hnone
  exact hnone w (List.mem_reverse.mpr hw) (by simp)

theorem lastWrite_singleton (w : κ × ν) : lastWrite [w] = Function.update empty w.1 (some w.2) := by
  funext k
  unfold lastWrite
  rw [Function.update_apply, List.reverse_singleton, List.find?_singleton]
  by_cases hk : w.1 = k
  . rw [if_pos (by simpa using hk), if_pos hk.symm]
    rfl
  . rw [if_neg (by simpa using hk), if_neg (Ne.symm hk)]
    rfl

theorem write_append (t : Store κ ν) (ws ws' : List (κ × ν))
    : t.write (ws ++ ws') = (t.write ws).write ws' := by
  exact List.foldl_append

theorem write_eq (t : Store κ ν) (ws : List (κ × ν)) : t.write ws = (lastWrite ws).upon t := by
  induction ws generalizing t with
  | nil => rfl
  | cons w ws ih =>
    have hupdate : Function.update t w.1 (some w.2) = (lastWrite [w]).upon t := by
      funext k
      rw [lastWrite_singleton]
      unfold upon
      rw [Function.update_apply, Function.update_apply]
      split
      . rfl
      . rfl
    rw [← List.singleton_append, lastWrite_append, upon_assoc, ← hupdate, ← ih]
    rfl

/--
Writes that do not contradict each other are the entries of a table.
-/
theorem lastWrite_eq {ws : List (κ × ν)} {t : Store κ ν} (h : ∀ k v, (k, v) ∈ ws ↔ t k = some v)
    : lastWrite ws = t := by
  funext k
  unfold lastWrite
  cases hfind : ws.reverse.find? (fun w => w.1 = k) with
  | none =>
    cases ht : t k with
    | none => rfl
    | some v =>
      have hnot := List.find?_eq_none.mp hfind (k, v) (List.mem_reverse.mpr ((h k v).mpr ht))
      simp at hnot
  | some w =>
    have hk : w.1 = k := by simpa using List.find?_some hfind
    have hmem : w ∈ ws := List.mem_reverse.mp (List.mem_of_find?_eq_some hfind)
    rw [Option.map_some, ← hk]
    exact ((h w.1 w.2).mp hmem).symm

end

@[simp]
theorem upon_self (t : Store κ ν) : t.upon t = t := by
  funext k
  exact Option.or_self

def InStep (fresh written received : Store κ ν) : Prop :=
  fresh.upon received = written

namespace InStep

variable {fresh written received : Store κ ν}

theorem write (h : InStep fresh written received) (t : Store κ ν)
    : InStep (t.upon fresh) (t.upon written) received := by
  exact (upon_assoc t fresh received).trans (congrArg t.upon h)

/--
It does not matter if all of it is published.
-/
theorem written_upon (h : InStep fresh written received) : written.upon received = written := by
  funext k
  have hk := congrFun h k
  unfold upon at hk ⊢
  cases hwritten : written k with
  | some v => rfl
  | none =>
    rw [hwritten, Option.or_eq_none_iff] at hk
    exact hk.2

end InStep

end Store
end Emane

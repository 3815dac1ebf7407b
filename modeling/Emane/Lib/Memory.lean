import Mathlib.Data.List.Basic
import Mathlib.Logic.Function.Basic

/-!
This module contains a memory that is read in runs, where nothing keeps a run from going beyond what
has been put there, and a heap of single owner cells: what `new`, `delete`, a read and a write
through a pointer do.
-/

namespace Emane

variable {α : Type u}

structure Heap (α : Type u) where
  next : Nat
  cells : Nat → Option α

namespace Heap

def empty : Heap α := ⟨0, fun _ => none⟩

instance : Inhabited (Heap α) := ⟨empty⟩

def read (h : Heap α) (p : Nat) : Option α :=
  h.cells p

def alloc (h : Heap α) (a : α) : Heap α :=
  ⟨h.next + 1, Function.update h.cells h.next (some a)⟩

def write (h : Heap α) (p : Nat) (a : α) : Heap α :=
  { h with cells := Function.update h.cells p (some a) }

def free (h : Heap α) (p : Nat) : Heap α :=
  { h with cells := Function.update h.cells p none }

@[simp]
theorem next_alloc (h : Heap α) (a : α) : (h.alloc a).next = h.next + 1 := by
  rfl

theorem read_alloc (h : Heap α) (a : α) (p : Nat)
    : (h.alloc a).read p = if p = h.next then some a else h.read p := by
  simp [read, alloc, Function.update_apply]

theorem read_write (h : Heap α) (p q : Nat) (a : α)
    : (h.write p a).read q = if q = p then some a else h.read q := by
  simp [read, write, Function.update_apply]

theorem read_free (h : Heap α) (p q : Nat)
    : (h.free p).read q = if q = p then none else h.read q := by
  simp [read, free, Function.update_apply]

theorem write_of_read {h : Heap α} {p : Nat} {a : α} (hread : h.read p = some a) : h.write p a = h := by
  have hcells : Function.update h.cells p (some a) = h.cells := by
    rw [← hread]
    exact Function.update_eq_self p h.cells
  unfold write
  rw [hcells]

end Heap

namespace Memory

variable {β : Type u}

def load (mem : Nat → β) (start length : Nat) : List β :=
  (List.range' start length).map mem

def ofList (bs : List β) (beyond : Nat → β) (i : Nat) : β :=
  bs.getD i (beyond i)

def Holds (mem : Nat → β) (start : Nat) (bs : List β) : Prop :=
  load mem start bs.length = bs

@[simp]
theorem length_load (mem : Nat → β) (start length : Nat) : (load mem start length).length = length := by
  simp [load]

theorem load_add (mem : Nat → β) (start length length' : Nat)
    : load mem start (length + length') = load mem start length ++ load mem (start + length) length' := by
  unfold load
  rw [← List.map_append, List.range'_append_1]

theorem holds_append_iff (mem : Nat → β) (start : Nat) (bs bs' : List β)
    : Holds mem start (bs ++ bs') ↔ Holds mem start bs ∧ Holds mem (start + bs.length) bs' := by
  unfold Holds
  rw [List.length_append, load_add]
  constructor
  . intro h
    exact List.append_inj h (length_load _ _ _)
  . rintro ⟨h, h'⟩
    rw [h, h']

theorem load_ofList {bs : List β} (beyond : Nat → β) {start length : Nat} (h : start + length ≤ bs.length)
    : load (ofList bs beyond) start length = (bs.drop start).take length := by
  apply List.ext_getElem?
  intro i
  unfold load
  rw [List.getElem?_map, List.getElem?_take]
  by_cases hi : i < length
  . rw [List.getElem?_range' hi, if_pos hi, List.getElem?_drop, Option.map_some, Nat.one_mul]
    unfold ofList
    rw [List.getD_eq_getElem?_getD, List.getElem?_eq_getElem (by omega)]
    rfl
  . rw [if_neg hi, List.getElem?_eq_none (by simpa using hi)]
    rfl

theorem holds_ofList (bs : List β) (beyond : Nat → β) : Holds (ofList bs beyond) 0 bs := by
  unfold Holds
  rw [load_ofList beyond (by omega), List.drop_zero, List.take_length]

theorem load_ofList_isInfix {bs : List β} (beyond : Nat → β) {start length : Nat}
    (h : start + length ≤ bs.length)
    : load (ofList bs beyond) start length <:+: bs := by
  rw [load_ofList beyond h]
  refine ⟨bs.take start, bs.drop (start + length), ?_⟩
  rw [List.append_assoc, ← List.drop_drop, List.take_append_drop, List.take_append_drop]

end Memory
end Emane

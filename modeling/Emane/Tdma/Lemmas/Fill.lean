import Emane.Tdma.Lemmas.Fifo

/-!
This module contains how many bytes a dequeue takes, as a function of the sizes of the packets
alone.
-/

namespace Emane
namespace Tdma
namespace Fifo

def fill (fragment aggregate : Bool) : Nat → List Nat → Nat
  | _, [] => 0
  | room, n :: sizes =>
    if n ≤ room then
      if aggregate then n + fill fragment aggregate (room - n) sizes else n
    else if fragment then
      room
    else
      0

def touches (fragment : Bool) (room : Nat) : List Nat → Bool
  | [] => false
  | n :: _ => n ≤ room || fragment

def sizes (p : Request) (es : List Entry) : List Nat :=
  let sizes := (es.filter (Entry.selectedBy p.destination)).map Entry.remaining
  if p.drop && !p.fragment then
    sizes.dropWhile (fun n => p.requestedBytes < n)
  else
    sizes

def taken (p : Request) (es : List Entry) : Nat :=
  fill p.fragment p.aggregate p.requestedBytes (sizes p es)

def Wastes (p : Request) (es : List Entry) : Prop :=
  touches p.fragment p.requestedBytes (sizes p es) = true ∧ taken p es = 0

instance (p : Request) (es : List Entry) : Decidable (Wastes p es) :=
  inferInstanceAs (Decidable (_ ∧ _))

section

variable {p : Request} {es : List Entry} {r : Queue.dequeue.Result}

theorem totalBytes_dequeue_of_not_drop (hr : r.totalBytes ≤ p.requestedBytes)
    (hdrop : ¬ (p.fragment = false ∧ p.drop = true ∧ r.components = []))
    : (dequeue p es r).2.totalBytes
        =
      r.totalBytes
        + fill p.fragment p.aggregate (p.requestedBytes - r.totalBytes)
            ((es.filter (Entry.selectedBy p.destination)).map Entry.remaining) := by
  induction es generalizing r with
  | nil => rfl
  | cons e es ih =>
    by_cases hsel : e.selectedBy p.destination
    . rw [List.filter_cons_of_pos hsel]
      simp only [List.map_cons, fill]
      by_cases hfits : e.remaining ≤ p.requestedBytes - r.totalBytes
      . rw [if_pos hfits]
        cases hagg : p.aggregate with
        | true =>
          rw [dequeue_of_aggregate hsel hfits hagg]
          rw [ih (by simp only [push]; omega) (by simp [push])]
          simp only [push, hagg, ↓reduceIte]
          rw [Nat.sub_add_eq]
          omega
        | false =>
          rw [dequeue_of_not_aggregate hsel hfits hagg]
          simp [push]
      . rw [if_neg hfits]
        cases hfrag : p.fragment with
        | true =>
          rw [dequeue_of_fragment hsel hfits hfrag]
          simp [push]
        | false =>
          rw [dequeue_of_stop hsel hfits hfrag]
          . simp
          . intro hdrop'
            rw [Bool.and_eq_true] at hdrop'
            exact hdrop ⟨hfrag, hdrop'.1, List.isEmpty_iff.mp hdrop'.2⟩
    . rw [List.filter_cons_of_neg hsel]
      rw [dequeue_of_not_selected hsel]
      exact ih hr hdrop

end

section

variable {p : Request} {e : Entry} {es : List Entry}

theorem sizes_of_not_selected (hsel : ¬ e.selectedBy p.destination) : sizes p (e :: es) = sizes p es := by
  unfold sizes
  rw [List.filter_cons_of_neg hsel]

theorem sizes_of_kept (hsel : e.selectedBy p.destination)
    (hkeep : ¬ (p.drop && !p.fragment) ∨ e.remaining ≤ p.requestedBytes)
    : sizes p (e :: es)
        = e.remaining :: (es.filter (Entry.selectedBy p.destination)).map Entry.remaining := by
  unfold sizes
  rw [List.filter_cons_of_pos hsel]
  split
  . next hdrop =>
    simp only [hdrop, not_true_eq_false, false_or] at hkeep
    simpa using hkeep
  . rfl

theorem sizes_of_dropped (hsel : e.selectedBy p.destination) (hdrop : p.drop && !p.fragment)
    (hbig : p.requestedBytes < e.remaining)
    : sizes p (e :: es) = sizes p es := by
  unfold sizes
  rw [List.filter_cons_of_pos hsel]
  simp only [List.map_cons, hdrop, ↓reduceIte]
  rw [List.dropWhile_cons_of_pos (by simpa using hbig)]

end

section

variable {p : Request} {es : List Entry} {r : Queue.dequeue.Result}

theorem totalBytes_dequeue (hr : r.components = []) (htotal : r.totalBytes = 0)
    : (dequeue p es r).2.totalBytes = taken p es := by
  induction es generalizing r with
  | nil => simp [dequeue, taken, sizes, fill, htotal]
  | cons e es ih =>
    by_cases hsel : e.selectedBy p.destination
    . by_cases hdiscard : (p.drop && !p.fragment) ∧ p.requestedBytes < e.remaining
      . have hdrop := hdiscard.1
        simp only [Bool.and_eq_true, Bool.not_eq_true'] at hdrop
        rw [dequeue_of_discard hsel (by omega) hdrop.2 (by simp [hdrop.1, hr])]
        unfold taken
        rw [sizes_of_dropped hsel hdiscard.1 hdiscard.2]
        exact ih hr htotal
      . have hkeep : ¬ (p.drop && !p.fragment) ∨ e.remaining ≤ p.requestedBytes := by
          rw [not_and_or, Nat.not_lt] at hdiscard
          exact hdiscard
        unfold taken
        rw [sizes_of_kept hsel hkeep]
        by_cases hfits : e.remaining ≤ p.requestedBytes
        . simp only [fill, hfits, ↓reduceIte]
          cases hagg : p.aggregate with
          | true =>
            rw [dequeue_of_aggregate hsel (by omega) hagg]
            rw [totalBytes_dequeue_of_not_drop (by simp only [push]; omega) (by simp [push])]
            simp [push, htotal, hagg]
          | false =>
            rw [dequeue_of_not_aggregate hsel (by omega) hagg]
            simp [push, htotal]
        . -- too large, so it is not dropped because that is not allowed
          have hdrop : ¬ (p.fragment = false ∧ p.drop = true ∧ r.components = []) := by
            cases hkeep with
            | inl hkeep =>
              intro h
              simp [h.1, h.2.1] at hkeep
            | inr hkeep => exact absurd hkeep hfits
          rw [totalBytes_dequeue_of_not_drop (by omega) hdrop]
          rw [List.filter_cons_of_pos hsel]
          rw [htotal, Nat.zero_add, Nat.sub_zero]
          rfl
    . rw [dequeue_of_not_selected hsel]
      unfold taken
      rw [sizes_of_not_selected hsel]
      exact ih hr htotal

theorem components_dequeue_ne_nil (hr : r.components ≠ []) : (dequeue p es r).2.components ≠ [] := by
  rw [(dequeue_decomposes p es r).components]
  simp [hr]

theorem components_dequeue_eq_nil_iff (hr : r.components = []) (htotal : r.totalBytes = 0)
    : (dequeue p es r).2.components = [] ↔ touches p.fragment p.requestedBytes (sizes p es) = false := by
  induction es generalizing r with
  | nil => simp [dequeue, sizes, touches, hr]
  | cons e es ih =>
    have hpush : ∀ c n, (push r c n).components ≠ [] := by simp [push]
    by_cases hsel : e.selectedBy p.destination
    . by_cases hfits : e.remaining ≤ p.requestedBytes - r.totalBytes
      . rw [sizes_of_kept hsel (Or.inr (by omega))]
        have htouches : touches p.fragment p.requestedBytes
            (e.remaining :: (es.filter (Entry.selectedBy p.destination)).map Entry.remaining)
                ≠ false := by
          simp only [touches, ne_eq, Bool.or_eq_false_iff, decide_eq_false_iff_not]
          omega
        cases hagg : p.aggregate with
        | true =>
          rw [dequeue_of_aggregate hsel hfits hagg]
          exact iff_of_false (components_dequeue_ne_nil (hpush _ _)) htouches
        | false =>
          rw [dequeue_of_not_aggregate hsel hfits hagg]
          exact iff_of_false (hpush _ _) htouches
      . cases hfrag : p.fragment with
        | true =>
          rw [sizes_of_kept hsel (Or.inl (by simp [hfrag]))]
          rw [dequeue_of_fragment hsel hfits hfrag]
          simp [hpush, touches]
        | false =>
          cases hdrop : p.drop with
          | true =>
            rw [sizes_of_dropped hsel (by simp [hdrop, hfrag]) (by omega)]
            rw [dequeue_of_discard hsel hfits hfrag (by simp [hdrop, hr])]
            have ih := ih (r := discard r e) hr htotal
            rw [hfrag] at ih
            exact ih
          | false =>
            rw [sizes_of_kept hsel (Or.inl (by simp [hdrop]))]
            rw [dequeue_of_stop hsel hfits hfrag (by simp [hdrop])]
            simp only [hr, touches, Bool.or_false, decide_eq_false_iff_not, true_iff]
            omega
    . rw [dequeue_of_not_selected hsel]
      rw [sizes_of_not_selected hsel]
      exact ih hr htotal

theorem totalBytes_dequeue_nil (p : Request) (es : List Entry)
    : (dequeue p es ⟨[], 0, []⟩).2.totalBytes = taken p es := by
  apply totalBytes_dequeue
  . rfl
  . rfl

theorem wastes_iff (p : Request) (es : List Entry)
    : Wastes p es
        ↔
      (dequeue p es ⟨[], 0, []⟩).2.components ≠ [] ∧ (dequeue p es ⟨[], 0, []⟩).2.totalBytes = 0 := by
  unfold Wastes
  rw [totalBytes_dequeue_nil]
  rw [Ne, components_dequeue_eq_nil_iff rfl rfl]
  rw [Bool.not_eq_false]

end

end Fifo
end Tdma
end Emane

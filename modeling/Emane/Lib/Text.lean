import Mathlib.Data.List.Basic

/-!
This module contains texts as programs read them: items between delimiters, and decimal numbers at
the front of an item.
-/

namespace Emane

abbrev Text := List Char

namespace Text

def split (delim : Char) : Text → List Text
  | [] => []
  | c :: cs =>
    if c = delim then
      [] :: split delim cs
    else
      match split delim cs with
      | [] => [[c]]
      | item :: items => (c :: item) :: items

def join (delim : Char) : List Text → Text
  | [] => []
  | [item] => item
  | item :: items => item ++ delim :: join delim items

def readDigits (s : Text) : Option Nat :=
  match s.takeWhile Char.isDigit with
  | [] => none
  | digits => some (Nat.ofDigitChars 10 digits 0)

def isSpace (c : Char) : Bool :=
  c = ' ' || (9 ≤ c.toNat && c.toNat ≤ 13)

def readInt (s : Text) : Option Int :=
  let s := s.dropWhile isSpace
  if s.head? = some '-' then
    (readDigits s.tail).map (fun n => -(n : Int))
  else if s.head? = some '+' then
    (readDigits s.tail).map (fun n => (n : Int))
  else
    (readDigits s).map (fun n => (n : Int))

def decimal (n : Nat) : Text :=
  Nat.toDigits 10 n

section

variable {delim : Char} {item s : Text} {items : List Text}

theorem split_of_not_mem (hne : item ≠ []) (hnot : delim ∉ item) : split delim item = [item] := by
  induction item with
  | nil => exact absurd rfl hne
  | cons c cs ih =>
    rw [List.mem_cons, not_or] at hnot
    unfold split
    rw [if_neg (Ne.symm hnot.1)]
    cases cs with
    | nil => rfl
    | cons c' cs => rw [ih (List.cons_ne_nil _ _) hnot.2]

theorem split_eq_cons (hne : s ≠ [])
    : split delim s = s.takeWhile (fun c => c ≠ delim) :: split delim
        (s.dropWhile (fun c => c ≠ delim)).tail := by
  induction s with
  | nil => exact absurd rfl hne
  | cons c cs ih =>
    by_cases hc : c = delim
    . simp [split, hc]
    . cases cs with
      | nil => simp [split, hc]
      | cons c' cs =>
        have hpos : decide (c ≠ delim) = true := by simpa using hc
        rw [split, if_neg hc, ih (List.cons_ne_nil _ _), List.takeWhile_cons_of_pos (a := c) hpos,
          List.dropWhile_cons_of_pos (a := c) hpos]

theorem split_append (hnot : delim ∉ item) (s : Text)
    : split delim (item ++ delim :: s) = item :: split delim s := by
  induction item with
  | nil =>
    rw [List.nil_append, split, if_pos rfl]
  | cons c cs ih =>
    rw [List.mem_cons, not_or] at hnot
    rw [List.cons_append, split, if_neg (Ne.symm hnot.1), ih hnot.2]

theorem split_join (h : ∀ item ∈ items, item ≠ [] ∧ delim ∉ item)
    : split delim (join delim items) = items := by
  induction items with
  | nil => rfl
  | cons item items ih =>
    obtain ⟨hne, hnot⟩ := h item List.mem_cons_self
    have hrest := ih (fun item' hitem' => h item' (List.mem_cons_of_mem _ hitem'))
    cases items with
    | nil => exact split_of_not_mem hne hnot
    | cons item' items =>
      unfold join
      rw [split_append hnot, hrest]

theorem isDigit_of_mem_decimal {c : Char} {n : Nat} (h : c ∈ decimal n) : c.isDigit = true := by
  exact Nat.isDigit_of_mem_toDigits (by decide) (by decide) h

theorem decimal_ne_nil (n : Nat) : decimal n ≠ [] := by
  exact Nat.toDigits_ne_nil

theorem not_mem_decimal {c : Char} (h : c.isDigit = false) (n : Nat) : c ∉ decimal n := by
  intro hmem
  rw [isDigit_of_mem_decimal hmem] at h
  cases h

theorem readDigits_decimal (n : Nat) : readDigits (decimal n) = some n := by
  have hdigits : (decimal n).takeWhile Char.isDigit = decimal n := by
    rw [← List.append_nil (decimal n), List.takeWhile_append_of_pos
      (fun c hc => isDigit_of_mem_decimal hc)]
    rfl
  unfold readDigits
  rw [hdigits]
  split
  . next heq => exact absurd heq (decimal_ne_nil n)
  . exact congrArg some (Nat.ofDigitChars_toDigits (by decide) (by decide))

theorem isSpace_of_isDigit {c : Char} (h : c.isDigit = true) : isSpace c = false := by
  have hbounds : 48 ≤ c.toNat ∧ c.toNat ≤ 57 := by
    simpa [Char.isDigit, UInt32.le_iff_toNat_le] using h
  have hne : c ≠ ' ' := by
    rintro rfl
    simp at hbounds
  simp [isSpace, hne]
  omega

theorem readInt_decimal (n : Nat) : readInt (decimal n) = some (n : Int) := by
  have hdrop : (decimal n).dropWhile isSpace = decimal n := by
    cases hdecimal : decimal n with
    | nil => rfl
    | cons c cs =>
      have hdigit : c.isDigit = true := isDigit_of_mem_decimal (n := n)
        (by rw [hdecimal]; exact List.mem_cons_self)
      rw [List.dropWhile_cons_of_neg (by simp [isSpace_of_isDigit hdigit])]
  have hhead : ∀ c, c.isDigit = false → (decimal n).head? ≠ some c := by
    intro c hc heq
    exact not_mem_decimal hc n (List.mem_of_head? heq)
  unfold readInt
  simp only [hdrop]
  rw [if_neg (hhead '-' (by decide)), if_neg (hhead '+' (by decide)), readDigits_decimal]
  rfl

end

end Text
end Emane

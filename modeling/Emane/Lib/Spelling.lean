import Emane.Lib.InputStream

/-!
This module contains the spelling of numbers and what the extraction of a number takes from the
front of a text: the longest spelling that is there.
-/

namespace Emane
namespace InputStream

open Numeral

def Spells (base : Nat) (negative : Bool) (digits text rest : List UInt8) : Prop :=
  ∃ blanks sign lead,
    text = blanks ++ (sign ++ (lead ++ digits))
      ∧ (∀ c ∈ blanks, isSpace c = true)
      ∧ ((sign = [] ∧ negative = false) ∨ (sign = [plus] ∧ negative = false)
        ∨ (sign = [minus] ∧ negative = true))
      ∧ (lead = [] ∨ lead = [48, 120] ∨ lead = [48, 88])
      ∧ dropLead base (lead ++ (digits ++ rest)) = digits ++ rest
      ∧ (∀ c ∈ digits, isDigit base c = true)
      ∧ (∀ c ∈ rest.head?, isDigit base c = false)

def number (base width : Nat) : Grammar UInt8 Nat :=
  fun n text rest =>
    ∃ negative digits,
      Spells base negative digits text rest
        ∧ digits ≠ []
        ∧ value base digits < 2^width
        ∧ n = wrap width negative (value base digits)

def Unfinished (base width : Nat) (text : List UInt8) : Prop :=
  ∃ negative digits, Spells base negative digits text [] ∧ (digits = [] ∨ 2^width ≤ value base digits)

def Settled (st : InputStream) : Prop :=
  st.good = true ∨ (st.rest = [] ∧ st.eof = true)

section

variable {α : Type} {p : α → Bool} {xs ys : List α}

theorem takeWhile_append_stop (hxs : ∀ x ∈ xs, p x = true) (hys : ∀ y ∈ ys.head?, p y = false)
    : (xs ++ ys).takeWhile p = xs := by
  rw [List.takeWhile_append_of_pos hxs]
  cases ys with
  | nil => simp
  | cons y ys =>
    have hy := hys y rfl
    simp [hy]

theorem dropWhile_append_stop (hxs : ∀ x ∈ xs, p x = true) (hys : ∀ y ∈ ys.head?, p y = false)
    : (xs ++ ys).dropWhile p = ys := by
  rw [List.dropWhile_append_of_pos hxs]
  cases ys with
  | nil => simp
  | cons y ys =>
    have hy := hys y rfl
    simp [hy]

theorem not_of_mem_head?_dropWhile {x : α} (h : x ∈ (xs.dropWhile p).head?)
    : p x = false := by
  have hhead := List.head?_dropWhile_not p xs
  rw [Option.mem_def.mp h] at hhead
  exact hhead

end

section

variable {base width old n : Nat} {negative : Bool} {digits text rest : List UInt8}
  {st : InputStream} {c : UInt8}

theorem isSpace_iff
    : isSpace c = true ↔ c.toNat = 32 ∨ (9 ≤ c.toNat ∧ c.toNat ≤ 13) := by
  simp [isSpace, UInt8.le_iff_toNat_le, ← UInt8.toNat_inj]

theorem isSign_iff
    : isSign c = true ↔ c = plus ∨ c = minus := by
  simp [isSign]

def Solid (c : UInt8) : Prop :=
  isSpace c = false ∧ isSign c = false

theorem solid_of_isDigit (hbase : base ≤ 16) (h : isDigit base c = true)
    : Solid c := by
  have hvalue : digitValue c < 16 := by
    unfold isDigit at h
    rw [decide_eq_true_eq] at h
    omega
  have hrange : 48 ≤ c.toNat := by
    unfold digitValue at hvalue
    by_contra hlt
    rw [if_neg (by omega), if_neg (by omega), if_neg (by omega)] at hvalue
    omega
  constructor
  . rw [Bool.eq_false_iff, ne_eq, isSpace_iff]
    omega
  . rw [Bool.eq_false_iff, ne_eq, isSign_iff]
    rintro (rfl | rfl) <;> simp [plus, minus] at hrange

theorem dropLead_spec (base : Nat) (text : List UInt8)
    : ∃ lead, text = lead ++ dropLead base text ∧ (lead = [] ∨ lead = [48, 120] ∨ lead = [48, 88])
        ∧ dropLead base (lead ++ dropLead base text) = dropLead base text := by
  unfold dropLead
  split
  next c x cs =>
    split
    next h =>
      obtain ⟨hbase, rfl, rfl | rfl⟩ := h
      . exact ⟨[48, 120], rfl, by simp, by simp [hbase]⟩
      . exact ⟨[48, 88], rfl, by simp, by simp [hbase]⟩
    next h => exact ⟨[], rfl, Or.inl rfl, by simp [h]⟩
  next cs hcs =>
    refine ⟨[], rfl, Or.inl rfl, ?_⟩
    rw [List.nil_append]
    split
    . exact absurd rfl (hcs _ _ _)
    . rfl

theorem spells_spell (base : Nat) (text : List UInt8)
    : ∃ taken, text = taken ++ (spell base text).2.2
        ∧ Spells base (spell base text).1 (spell base text).2.1 taken (spell base text).2.2 := by
  simp only [spell]
  generalize hsigned : text.dropWhile isSpace = signed
  obtain ⟨lead, hlead, hkind, hdrop⟩ := dropLead_spec base (signed.drop (signed.head?.any isSign).toNat)
  generalize hunsigned : dropLead base (signed.drop (signed.head?.any isSign).toNat)
    = unsigned at hlead hdrop ⊢
  have hsplit : unsigned.takeWhile (isDigit base) ++ unsigned.dropWhile (isDigit base) = unsigned :=
    List.takeWhile_append_dropWhile
  refine ⟨text.takeWhile isSpace ++ (signed.take (signed.head?.any isSign).toNat ++
    (lead ++ unsigned.takeWhile (isDigit base))), ?_, text.takeWhile isSpace,
      signed.take (signed.head?.any isSign).toNat,
    lead, rfl, ?_, ?_, hkind, ?_, ?_, ?_⟩
  . simp only [List.append_assoc]
    rw [hsplit, ← hlead, List.take_append_drop, ← hsigned, List.takeWhile_append_dropWhile]
  . intro c hc
    exact List.all_eq_true.mp List.all_takeWhile c hc
  . cases signed with
    | nil => exact Or.inl ⟨rfl, rfl⟩
    | cons c cs =>
      cases hsign : isSign c with
      | false =>
        have hminus : c ≠ minus := by
          rintro rfl
          cases hsign
        simp [hsign, hminus]
      | true =>
        rcases isSign_iff.mp hsign with rfl | rfl
        . exact Or.inr (Or.inl ⟨rfl, rfl⟩)
        . exact Or.inr (Or.inr ⟨rfl, rfl⟩)
  . rw [hsplit]
    exact hdrop
  . intro c hc
    exact List.all_eq_true.mp List.all_takeWhile c hc
  . intro c hc
    exact not_of_mem_head?_dropWhile hc

theorem spell_of_spells (hbase : base ≤ 16) (h : Spells base negative digits text rest)
    (hsome : digits ≠ [] ∨ rest = [])
    : spell base (text ++ rest) = (negative, digits, rest) := by
  obtain ⟨blanks, sign, lead, rfl, hblanks, hsign, hkind, hdrop, hdigits, hrest⟩ := h
  have hsolid : ∀ c ∈ (lead ++ (digits ++ rest)).head?, Solid c := by
    intro c hc
    rcases hkind with rfl | rfl | rfl
    . cases digits with
      | nil =>
        obtain rfl := hsome.resolve_left (fun hne => hne rfl)
        cases hc
      | cons d ds =>
        cases hc
        exact solid_of_isDigit hbase (hdigits _ List.mem_cons_self)
    . cases hc
      exact ⟨by decide, by decide⟩
    . cases hc
      exact ⟨by decide, by decide⟩
  generalize hunsigned : lead ++ (digits ++ rest) = unsigned at hdrop hsolid
  have hsigned : (blanks ++ (sign ++ (lead ++ digits)) ++ rest).dropWhile isSpace = sign ++ unsigned := by
    simp only [List.append_assoc]
    rw [hunsigned]
    apply dropWhile_append_stop hblanks
    intro c hc
    rcases hsign with ⟨rfl, -⟩ | ⟨rfl, -⟩ | ⟨rfl, -⟩
    . exact (hsolid c hc).1
    . cases hc
      decide
    . cases hc
      decide
  have hunsigned' : (sign ++ unsigned).drop ((sign ++ unsigned).head?.any isSign).toNat = unsigned := by
    rcases hsign with ⟨rfl, -⟩ | ⟨rfl, -⟩ | ⟨rfl, -⟩
    . cases unsigned with
      | nil => rfl
      | cons c cs =>
        have hc := (hsolid c rfl).2
        simp [hc]
    . rfl
    . rfl
  have hnegative : decide ((sign ++ unsigned).head? = some minus) = negative := by
    rcases hsign with ⟨rfl, rfl⟩ | ⟨rfl, rfl⟩ | ⟨rfl, rfl⟩
    . rw [decide_eq_false_iff_not]
      intro hhead
      have hminus := (hsolid minus hhead).2
      cases hminus
    . rfl
    . rfl
  simp only [spell]
  rw [hsigned, hunsigned', hdrop, hnegative, takeWhile_append_stop hdigits hrest,
    dropWhile_append_stop hdigits hrest]

theorem Unfinished.nil
    : Unfinished base width [] := by
  refine ⟨false, [], ⟨[], [], [], rfl, ?_⟩, Or.inl rfl⟩
  simp [dropLead]

theorem dropWhile_isSpace_idem (text : List UInt8)
    : (text.dropWhile isSpace).dropWhile isSpace = text.dropWhile isSpace := by
  have hnil : ∀ c ∈ ([] : List UInt8), isSpace c = true := by simp
  exact dropWhile_append_stop hnil (fun c hc => not_of_mem_head?_dropWhile hc)

theorem spell_dropWhile (base : Nat) (text : List UInt8)
    : spell base (text.dropWhile isSpace) = spell base text := by
  simp only [spell, dropWhile_isSpace_idem]

theorem spell_nil
    : spell base [] = (false, [], []) := by
  rfl

theorem skipws_ofText (text : List UInt8)
    : skipws (ofText text) = ⟨text.dropWhile isSpace, (text.dropWhile isSpace).isEmpty,
        (text.dropWhile isSpace).isEmpty⟩ := by
  rfl

theorem unsigned_ofText_ok (hdigits : (spell base text).2.1 ≠ [])
    (hlt : value base (spell base text).2.1 < 2^width)
    : unsigned base width old (ofText text)
        = (wrap width (spell base text).1 (value base (spell base text).2.1),
            ⟨(spell base text).2.2, (spell base text).2.2.isEmpty, false⟩) := by
  have hne : text.dropWhile isSpace ≠ [] := by
    intro hnil
    rw [← spell_dropWhile, hnil, spell_nil] at hdigits
    exact hdigits rfl
  have hgood : (skipws (ofText text)).good = true := by
    rw [skipws_ofText]
    simp [good, hne]
  simp only [unsigned]
  rw [if_pos hgood, skipws_ofText, spell_dropWhile, if_neg hdigits, if_neg (Nat.not_le.mpr hlt)]

theorem unsigned_ofText_fail (h : (spell base text).2.1 = [] ∨ 2^width ≤ value base (spell base text).2.1)
    : (unsigned base width old (ofText text)).2
        = ⟨(spell base text).2.2, (spell base text).2.2.isEmpty, true⟩ := by
  simp only [unsigned]
  by_cases hnil : text.dropWhile isSpace = []
  . rw [if_neg (by rw [skipws_ofText, hnil]; decide), skipws_ofText, ← spell_dropWhile, hnil]
    rfl
  . have hgood : (skipws (ofText text)).good = true := by
      rw [skipws_ofText]
      simp [good, hnil]
    rw [if_pos hgood, skipws_ofText, spell_dropWhile]
    split
    . rfl
    . next hdigits => rw [if_pos (h.resolve_left hdigits)]

theorem Settled.ofText (text : List UInt8)
    : (ofText text).Settled := by
  exact Or.inl rfl

theorem Settled.eq_ofText (h : st.Settled) (hne : st.rest ≠ [])
    : st = InputStream.ofText st.rest := by
  rcases h with hgood | ⟨hnil, -⟩
  . obtain ⟨rest, eof, fail⟩ := st
    simp only [good, Bool.and_eq_true, Bool.not_eq_true'] at hgood
    obtain ⟨rfl, rfl⟩ := hgood
    rfl
  . exact absurd hnil hne

theorem Settled.behind (rest : List UInt8)
    : Settled ⟨rest, rest.isEmpty, false⟩ := by
  cases rest with
  | nil => exact Or.inr ⟨rfl, rfl⟩
  | cons c cs => exact Or.inl rfl

theorem Settled.eq_ofText_or (h : st.Settled)
    : st = InputStream.ofText st.rest ∨ (st.rest = [] ∧ st.eof = true) := by
  by_cases hnil : st.rest = []
  . rcases h with hgood | hend
    . left
      obtain ⟨rest, eof, fail⟩ := st
      simp only [good, Bool.and_eq_true, Bool.not_eq_true'] at hgood
      obtain ⟨rfl, rfl⟩ := hgood
      rfl
    . exact Or.inr hend
  . exact Or.inl (h.eq_ofText hnil)

theorem number_ne_nil (h : number base width n text rest)
    : text ≠ [] := by
  obtain ⟨negative, digits, ⟨blanks, sign, lead, rfl, -⟩, hdigits, -⟩ := h
  simp [hdigits]

theorem unsigned_of_number (old : Nat) (hbase : base ≤ 16) (hst : st.Settled)
    (hrest : st.rest = text ++ rest)
    (h : number base width n text rest)
    : unsigned base width old st = (n, ⟨rest, rest.isEmpty, false⟩) := by
  have hne : st.rest ≠ [] := by
    rw [hrest]
    simp [number_ne_nil h]
  obtain ⟨negative, digits, hspells, hdigits, hlt, rfl⟩ := h
  have hspell := spell_of_spells hbase hspells (Or.inl hdigits)
  rw [hst.eq_ofText hne, hrest, unsigned_ofText_ok, hspell]
  . rw [hspell]
    exact hdigits
  . rw [hspell]
    exact hlt

theorem unsigned_of_end (heof : st.eof = true)
    : unsigned base width old st = (old, { st with fail := true }) := by
  simp [unsigned, skipws, good, heof]

theorem number_of_unsigned (hst : st.Settled) (h : (unsigned base width old st).2.fail = false)
    : (unsigned base width old st).2.Settled
        ∧ ∃ text, st.rest = text ++ (unsigned base width old st).2.rest
          ∧ number base width (unsigned base width old st).1 text
              (unsigned base width old st).2.rest := by
  rcases hst.eq_ofText_or with hof | ⟨hnil, heof⟩
  . generalize st.rest = text at hof ⊢
    subst hof
    by_cases hfail : (spell base text).2.1 = [] ∨ 2^width ≤ value base (spell base text).2.1
    . rw [unsigned_ofText_fail hfail] at h
      cases h
    . rw [not_or, Nat.not_le] at hfail
      rw [unsigned_ofText_ok hfail.1 hfail.2]
      obtain ⟨taken, htaken, hspells⟩ := spells_spell base text
      exact ⟨Settled.behind _, taken, htaken, _, _, hspells, hfail.1, hfail.2, rfl⟩
  . rw [unsigned_of_end heof] at h
    cases h

theorem unfinished_of_unsigned (hst : st.Settled) (hfail : (unsigned base width old st).2.fail = true)
    (heof : (unsigned base width old st).2.eof = true)
    : Unfinished base width st.rest := by
  rcases hst.eq_ofText_or with hof | ⟨hnil, -⟩
  . generalize st.rest = text at hof ⊢
    subst hof
    by_cases hdigits : (spell base text).2.1 = [] ∨ 2^width ≤ value base (spell base text).2.1
    . rw [unsigned_ofText_fail hdigits] at heof
      have hend : (spell base text).2.2 = [] := List.isEmpty_iff.mp heof
      obtain ⟨taken, htaken, hspells⟩ := spells_spell base text
      rw [hend, List.append_nil] at htaken
      rw [hend, ← htaken] at hspells
      exact ⟨_, _, hspells, hdigits⟩
    . rw [not_or, Nat.not_le] at hdigits
      rw [unsigned_ofText_ok hdigits.1 hdigits.2] at hfail
      cases hfail
  . rw [hnil]
    exact Unfinished.nil

theorem unsigned_of_unfinished (old : Nat) (hbase : base ≤ 16) (hst : st.Settled)
    (h : Unfinished base width st.rest)
    : (unsigned base width old st).2.fail = true ∧ (unsigned base width old st).2.eof = true := by
  rcases hst.eq_ofText_or with hof | ⟨-, heof⟩
  . generalize st.rest = text at hof h
    subst hof
    obtain ⟨negative, digits, hspells, hdigits⟩ := h
    have hspell := spell_of_spells hbase hspells (Or.inr rfl)
    rw [List.append_nil] at hspell
    rw [unsigned_ofText_fail (by rwa [hspell]), hspell]
    exact ⟨rfl, rfl⟩
  . rw [unsigned_of_end heof]
    exact ⟨rfl, heof⟩

end

end InputStream
end Emane

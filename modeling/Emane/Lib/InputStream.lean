import Mathlib.Data.List.Basic
import Mathlib.Data.Nat.Digits.Defs

/-!
This module contains grammars of texts that are read from the front, and an input stream with its
formatted and unformatted reads, as the standard streams of C++ in the classic locale.
-/

namespace Emane

def Grammar (α β : Type) : Type :=
  β → List α → List α → Prop

namespace Grammar

variable {α β γ : Type}

instance : Monad (Grammar α) where
  pure b := fun b' text _ => b' = b ∧ text = []
  bind g h := fun c text rest =>
    ∃ b text₁ text₂, text = text₁ ++ text₂ ∧ g b text₁ (text₂ ++ rest) ∧ h b c text₂ rest

def optional (a : α) : Grammar α Unit :=
  fun _ text rest => text = [a] ∨ (text = [] ∧ rest.head? ≠ some a)

def filter (g : Grammar α β) (p : β → Prop) : Grammar α β :=
  fun b text rest => g b text rest ∧ p b

def item (g : Grammar α β) (delim : α) : Grammar α β := do
  let b ← g
  optional delim
  return b

def many (g : Grammar α β) : Grammar α (List β)
  | [], text, _ => text = []
  | b :: bs, text, rest => ∃ text₁ text₂, text = text₁ ++ text₂ ∧ g b text₁ (text₂ ++ rest)
    ∧ many g bs text₂ rest

def toEnd (g : Grammar α β) : Grammar α β :=
  fun b text rest => g b text rest ∧ rest = []

def Deterministic (g : Grammar α β) : Prop :=
  ∀ b b' text text' rest rest', text ++ rest = text' ++ rest' → g b text rest → g b' text' rest'
    → b = b' ∧ rest = rest'

section

variable {g : Grammar α β} {h : β → Grammar α γ} {b b' : β} {c : γ} {text text₁ text₂ rest : List α}

theorem bind_intro (hg : g b text₁ (text₂ ++ rest)) (hh : h b c text₂ rest)
    : (g >>= h) c (text₁ ++ text₂) rest := by
  exact ⟨b, text₁, text₂, rfl, hg, hh⟩

theorem bind_pure_intro {f : β → γ} (hg : g b text rest)
    : (g >>= fun b => pure (f b)) (f b) text rest := by
  exact ⟨b, text, [], (List.append_nil text).symm, hg, rfl, rfl⟩

theorem filter_congr {p q : β → Prop} (h : ∀ b, p b ↔ q b)
    : g.filter p = g.filter q := by
  obtain rfl : p = q := funext (fun b => propext (h b))
  rfl

theorem Deterministic.pure (b : β)
    : (Pure.pure b : Grammar α β).Deterministic := by
  rintro b₁ b₂ text text' rest rest' heq ⟨rfl, rfl⟩ ⟨rfl, rfl⟩
  exact ⟨rfl, heq⟩

theorem Deterministic.bind (hg : g.Deterministic) (hh : ∀ b, (h b).Deterministic)
    : (g >>= h).Deterministic := by
  rintro c c' text text' rest rest' heq ⟨b, text₁, text₂, rfl, hb, hc⟩ ⟨b', text₁', text₂', rfl, hb', hc'⟩
  rw [List.append_assoc, List.append_assoc] at heq
  obtain ⟨rfl, hrest⟩ := hg _ _ _ _ _ _ heq hb hb'
  exact hh b _ _ _ _ _ _ hrest hc hc'

theorem Deterministic.toEnd (hg : ∀ b b' text, g b text [] → g b' text [] → b = b')
    : g.toEnd.Deterministic := by
  rintro b b' text text' rest rest' heq ⟨hb, rfl⟩ ⟨hb', rfl⟩
  rw [List.append_nil, List.append_nil] at heq
  subst heq
  exact ⟨hg b b' text hb hb', rfl⟩

theorem Deterministic.many (hg : g.Deterministic) {bs : List β} {text' rest' : List α}
    (heq : text ++ rest = text' ++ rest') (h : many g bs text rest) (h' : many g bs text' rest')
    : rest = rest' := by
  induction bs generalizing text text' with
  | nil =>
    obtain rfl : text = [] := h
    obtain rfl : text' = [] := h'
    exact heq
  | cons b bs ih =>
    obtain ⟨text₁, text₂, rfl, hb, hbs⟩ := h
    obtain ⟨text₁', text₂', rfl, hb', hbs'⟩ := h'
    rw [List.append_assoc, List.append_assoc] at heq
    obtain ⟨-, hrest⟩ := hg _ _ _ _ _ _ heq hb hb'
    exact ih hrest hbs hbs'

theorem many_intercalate {enc : β → List α} {a : α} {bs : List β}
    (henc : ∀ b ∈ bs, ∀ rest, (∀ c ∈ rest.head?, c = a) → g b (enc b) rest)
    : many (g.item a) bs ([a].intercalate (bs.map enc)) [] := by
  induction bs with
  | nil => rfl
  | cons b bs ih =>
    have hitem := fun rest hrest => henc b List.mem_cons_self rest hrest
    have hitems := ih (fun b' hb' => henc b' (List.mem_cons_of_mem b hb'))
    cases bs with
    | nil =>
      refine ⟨enc b, [], ?_, ?_, rfl⟩
      . simp [List.intercalate]
      . refine ⟨b, enc b, [], by simp, hitem _ (by simp), ?_⟩
        exact ⟨(), [], [], rfl, Or.inr ⟨rfl, by simp⟩, rfl, rfl⟩
    | cons b' bs =>
      refine ⟨enc b ++ [a], [a].intercalate ((b' :: bs).map enc), ?_, ?_, hitems⟩
      . simp [List.intercalate]
      . refine ⟨b, enc b, [a], rfl, hitem _ (by simp), ?_⟩
        exact ⟨(), [a], [], rfl, Or.inl rfl, rfl, rfl⟩

end

end Grammar

def ascii (s : String) : List UInt8 :=
  s.toList.map (fun c => UInt8.ofNat c.toNat)

namespace Numeral

def digitChar (d : Nat) : UInt8 :=
  UInt8.ofNat (if d < 10 then 48 + d else 87 + d)

def digitValue (c : UInt8) : Nat :=
  if 48 ≤ c.toNat ∧ c.toNat ≤ 57 then
    c.toNat - 48
  else if 97 ≤ c.toNat ∧ c.toNat ≤ 102 then
    c.toNat - 87
  else if 65 ≤ c.toNat ∧ c.toNat ≤ 70 then
    c.toNat - 55
  else
    16

def isDigit (base : Nat) (c : UInt8) : Bool :=
  digitValue c < base

def value (base : Nat) (digits : List UInt8) : Nat :=
  Nat.ofDigits base (digits.reverse.map digitValue)

def numeral (base n : Nat) : List UInt8 :=
  if n = 0 then
    [digitChar 0]
  else
    (Nat.digits base n).reverse.map digitChar

def padded (width base n : Nat) : List UInt8 :=
  (numeral base n).leftpad width (digitChar 0)

section

variable {base n : Nat} {c : UInt8}

theorem digitValue_digitChar {d : Nat} (h : d < 16)
    : digitValue (digitChar d) = d := by
  unfold digitChar digitValue
  split
  . have htoNat : (UInt8.ofNat (48 + d)).toNat = 48 + d := UInt8.toNat_ofNat_of_lt'
      (by unfold UInt8.size; omega)
    split <;> omega
  . have htoNat : (UInt8.ofNat (87 + d)).toNat = 87 + d := UInt8.toNat_ofNat_of_lt'
      (by unfold UInt8.size; omega)
    rw [if_neg (by omega), if_pos (by omega)]
    omega

theorem isDigit_of_mem_numeral (hbase : 1 < base) (hbase' : base ≤ 16) (h : c ∈ numeral base n)
    : isDigit base c = true := by
  unfold isDigit
  rw [decide_eq_true_eq]
  unfold numeral at h
  split at h
  . rw [List.mem_singleton] at h
    rw [h, digitValue_digitChar (by decide)]
    omega
  . simp only [List.mem_map, List.mem_reverse] at h
    obtain ⟨d, hd, rfl⟩ := h
    have hlt := Nat.digits_lt_base hbase hd
    rw [digitValue_digitChar (by omega)]
    exact hlt

theorem numeral_ne_nil
    : numeral base n ≠ [] := by
  unfold numeral
  split
  . exact List.cons_ne_nil _ _
  . simp only [ne_eq, List.map_eq_nil_iff, List.reverse_eq_nil_iff, Nat.digits_eq_nil_iff_eq_zero]
    assumption

theorem value_numeral (hbase : 1 < base) (hbase' : base ≤ 16)
    : value base (numeral base n) = n := by
  unfold value numeral
  split
  next hzero =>
    simp [digitValue_digitChar, hzero]
  next =>
    have hdigits : ((Nat.digits base n).map digitChar).map digitValue = Nat.digits base n := by
      have hinv : ∀ d ∈ Nat.digits base n, (digitValue ∘ digitChar) d = id d := by
        intro d hd
        have hlt := Nat.digits_lt_base hbase hd
        exact digitValue_digitChar (by omega)
      rw [List.map_map, List.map_congr_left hinv, List.map_id]
    rw [← List.map_reverse, List.reverse_reverse, hdigits, Nat.ofDigits_digits]

theorem mem_padded {width : Nat} (h : c ∈ padded width base n)
    : c = digitChar 0 ∨ c ∈ numeral base n := by
  rcases List.mem_append.mp h with h | h
  . exact Or.inl (List.eq_of_mem_replicate h)
  . exact Or.inr h

theorem isDigit_of_mem_padded {width : Nat} (hbase : 1 < base) (hbase' : base ≤ 16)
    (h : c ∈ padded width base n)
    : isDigit base c = true := by
  rcases mem_padded h with rfl | h
  . unfold isDigit
    rw [decide_eq_true_eq, digitValue_digitChar (by decide)]
    omega
  . exact isDigit_of_mem_numeral hbase hbase' h

theorem padded_ne_nil {width : Nat}
    : padded width base n ≠ [] := by
  unfold padded List.leftpad
  simp [numeral_ne_nil]

theorem value_padded {width : Nat} (hbase : 1 < base) (hbase' : base ≤ 16)
    : value base (padded width base n) = n := by
  have hnumeral := value_numeral (n := n) hbase hbase'
  unfold value padded List.leftpad
  rw [List.reverse_append, List.map_append, List.reverse_replicate, List.map_replicate,
    digitValue_digitChar (by decide), Nat.ofDigits_append_replicate_zero]
  exact hnumeral

end

end Numeral

structure InputStream where
  rest : List UInt8
  eof : Bool
  fail : Bool
  deriving DecidableEq

namespace InputStream

open Numeral

def ofText (text : List UInt8) : InputStream :=
  ⟨text, false, false⟩

def good (st : InputStream) : Bool :=
  !st.eof && !st.fail

def get (st : InputStream) : Option UInt8 × InputStream :=
  if st.good then
    match st.rest with
    | [] => (none, { st with eof := true, fail := true })
    | c :: cs => (some c, { st with rest := cs })
  else
    (none, { st with fail := true })

def peek (st : InputStream) : Option UInt8 × InputStream :=
  if st.good then
    match st.rest with
    | [] => (none, { st with eof := true })
    | c :: _ => (some c, st)
  else
    (none, { st with fail := true })

def ignore (st : InputStream) : InputStream :=
  if st.good then
    match st.rest with
    | [] => { st with eof := true }
    | _ :: cs => { st with rest := cs }
  else
    { st with fail := true }

def isSpace (c : UInt8) : Bool :=
  c = 32 || (9 ≤ c && c ≤ 13)

def skipws (st : InputStream) : InputStream :=
  if st.good then
    let rest := st.rest.dropWhile isSpace
    ⟨rest, rest.isEmpty, rest.isEmpty⟩
  else
    { st with fail := true }

def plus : UInt8 := 43

def minus : UInt8 := 45

def isSign (c : UInt8) : Bool :=
  c = plus || c = minus

def dropLead (base : Nat) : List UInt8 → List UInt8
  | c :: x :: cs => if base = 16 ∧ c = 48 ∧ (x = 120 ∨ x = 88) then cs else c :: x :: cs
  | cs => cs

def spell (base : Nat) (text : List UInt8) : Bool × List UInt8 × List UInt8 :=
  let signed := text.dropWhile isSpace
  let unsigned := dropLead base (signed.drop (signed.head?.any isSign).toNat)
  (signed.head? = some minus, unsigned.takeWhile (isDigit base), unsigned.dropWhile (isDigit base))

def wrap (width : Nat) (negative : Bool) (n : Nat) : Nat :=
  if negative then (2^width - n) % 2^width else n

def unsigned (base width old : Nat) (st : InputStream) : Nat × InputStream :=
  let st := st.skipws
  if st.good then
    let (negative, digits, rest) := spell base st.rest
    if digits = [] then
      (0, ⟨rest, rest.isEmpty, true⟩)
    else if 2^width ≤ value base digits then
      (2^width - 1, ⟨rest, rest.isEmpty, true⟩)
    else
      (wrap width negative (value base digits), ⟨rest, rest.isEmpty, false⟩)
  else
    (old, st)

def word (old : List UInt8) (st : InputStream) : List UInt8 × InputStream :=
  let st := st.skipws
  if st.good then
    let rest := st.rest.dropWhile (fun c => !isSpace c)
    (st.rest.takeWhile (fun c => !isSpace c), ⟨rest, rest.isEmpty, false⟩)
  else
    (old, st)

end InputStream

abbrev Scan (ε : Type) := StateT InputStream (Except ε)

namespace Scan

open InputStream

variable {ε β γ : Type}

def scan (r : Scan ε β) (text : List UInt8) : Except ε β :=
  r.run' (ofText text)

def extract (e : ε) (base width : Nat) : Scan ε Nat := do
  let n ← modifyGet (unsigned base width 0)
  if (← get).fail then
    throw e
  else
    return n

def skip (c : UInt8) : Scan ε Unit := do
  let next ← modifyGet peek
  if next = some c then
    modify ignore

def whileAvail (body : Scan ε β) : Nat → Scan ε (List β)
  | 0 => return []
  | fuel + 1 => do
    let ss ← get
    if ss.fail ∨ ss.rest = [] then
      return []
    else
      let b ← body
      let bs ← whileAvail body fuel
      return b :: bs

end Scan
end Emane

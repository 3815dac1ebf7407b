import Emane.Dlep.Lemmas.ItemText

/-!
This module contains the round trip of a value through its text, and which texts are read to their
end.
-/

namespace Emane
namespace Dlep

open Scan
open InputStream (number wordText Unfinished)

structure AddressText.RoundTrips {α : Type} (ip : AddressText α) : Prop where
  fromString_toString : ∀ a, ip.fromString (ip.toString a) = some a
  no_separator : ∀ a, ∀ c ∈ ip.toString a, isFieldSeparator c = false

def DataItemValue.Spaced : DataItemValue → Prop
  | div_u8_string _ field2 => ∃ c ∈ field2, InputStream.isSpace c = true
  | _ => False

section

variable (ip4 : AddressText AddressV4) (ip6 : AddressText AddressV6)

def Whole (ty : DataItemValueType) (valStr : Bytes) : Prop :=
  ∃ v, DataItemValue.grammar ip4 ip6 ty v valStr []

def Trailing (ty : DataItemValueType) (valStr : Bytes) : Prop :=
  ∃ v text rest, valStr = text ++ rest ∧ rest ≠ [] ∧ DataItemValue.grammar ip4 ip6 ty v text rest

def Portless {α : Type} (ip : AddressText α) (valStr : Bytes) : Prop :=
  ∃ x text rest, valStr = text ++ rest ∧ endpointText ip x text rest
    ∧ ¬ ∃ port text' rest', rest = text' ++ rest' ∧ portText port text' rest'

def Dangling (valStr : Bytes) : Prop :=
  ∃ mac text rest, valStr = text ++ rest ∧ rest ≠ [] ∧ macText mac text rest ∧ Unfinished 16 32 rest

def Unread (valStr : Bytes) : DataItemValueType → Prop
  | .div_dlepmac => Dangling valStr
  | .div_u8_ipv4_u16 => Trailing ip4 ip6 .div_u8_ipv4_u16 valStr ∨ Portless ip4 valStr
  | .div_u8_ipv6_u16 => Trailing ip4 ip6 .div_u8_ipv6_u16 valStr ∨ Portless ip6 valStr
  | ty => Trailing ip4 ip6 ty valStr

end

section

variable {β : Type}

variable {n width : Nat}

theorem number_numeral {base : Nat} {digits : Bytes}
    (hdrop : ∀ text, InputStream.dropLead base (digits ++ text) = digits ++ text)
    (hne : digits ≠ []) (hdigits : ∀ c ∈ digits, Numeral.isDigit base c = true)
    (hvalue : Numeral.value base digits = n) (hn : n < 2^width) {rest : Bytes}
    (hrest : ∀ c ∈ rest.head?, Numeral.isDigit base c = false)
    : number base width n digits rest := by
  refine ⟨false, digits,
    ⟨[], [], [], rfl, ?_, Or.inl ⟨rfl, rfl⟩, Or.inl rfl, hdrop rest, hdigits, hrest⟩, hne, ?_, ?_⟩
  . simp
  . rwa [hvalue]
  . rw [hvalue]
    rfl

theorem dropLead_of_ne {base : Nat} (hbase : base ≠ 16) (text : Bytes)
    : InputStream.dropLead base text = text := by
  unfold InputStream.dropLead
  split
  . rw [if_neg (by simp [hbase])]
  . rfl

theorem number_decimal (hn : n < 2^width) (rest : Bytes)
    (hrest : ∀ c ∈ rest.head?, Numeral.isDigit 10 c = false)
    : number 10 width n (decimal n) rest := by
  exact number_numeral (fun _ => dropLead_of_ne (by decide) _) Numeral.numeral_ne_nil
    (fun _ hc => Numeral.isDigit_of_mem_numeral (by decide) (by decide) hc)
      (Numeral.value_numeral (by decide) (by decide))
    hn hrest

theorem uintText_decimal {bits : Nat} {ofNat : Nat → β} {b : β} (hbits : bits ≤ 64)
    (hn : n < 2^bits) (hb : ofNat n = b)
    (rest : Bytes) (hrest : ∀ c ∈ rest.head?, Numeral.isDigit 10 c = false)
    : uintText bits ofNat b (decimal n) rest := by
  have hn' : n < 2^64 := Nat.lt_of_lt_of_le hn (Nat.pow_le_pow_right (by decide) hbits)
  rw [← hb]
  exact Grammar.bind_pure_intro (g := Grammar.filter _ _) ⟨number_decimal hn' rest hrest, hn⟩

theorem uint8Text_decimal (v : UInt8) (rest : Bytes)
    (hrest : ∀ c ∈ rest.head?, Numeral.isDigit 10 c = false)
    : uint8Text v (decimal v.toNat) rest := by
  have hv := v.toNat_lt
  have hnumber : number 10 32 v.toNat (decimal v.toNat) rest := number_decimal (by omega) rest hrest
  have htext := Grammar.bind_pure_intro (f := UInt8.ofNat)
    (g := Grammar.filter (number 10 32) (fun n => n < 2^8))
    ⟨hnumber, hv⟩
  rwa [UInt8.ofNat_toNat] at htext

theorem vectorText_commaSeparated {bits : Nat} {ofNat : Nat → β} {toNat : β → Nat} (hbits : bits ≤ 64)
    (hofNat : ∀ b, ofNat (toNat b) = b) (htoNat : ∀ b, toNat b < 2^bits) (bs : List β)
    : vectorText bits ofNat bs (commaSeparated (bs.map toNat)) [] := by
  refine ⟨?_, rfl⟩
  unfold commaSeparated
  rw [List.map_map]
  apply Grammar.many_intercalate
  intro b hb rest hrest
  exact uintText_decimal hbits (htoNat b) (hofNat b) rest (fun c hc => by rw [hrest c hc]; decide)

theorem elementText_last (ofNat : Nat → β) (hn : n < 2^width)
    : elementText width ofNat (ofNat n) (decimal n) [] := by
  have hnone : Grammar.optional comma () [] [] := Or.inr ⟨rfl, by simp⟩
  have htext := Grammar.bind_intro (h := fun n => Grammar.optional comma >>= fun _ => pure (ofNat n))
    (number_decimal hn [] (by simp)) (Grammar.bind_pure_intro hnone)
  rwa [List.append_nil] at htext

theorem elementText_first (ofNat : Nat → β) (hn : n < 2^width) (rest : Bytes)
    : elementText width ofNat (ofNat n) (decimal n ++ [comma]) rest := by
  have hcomma : Grammar.optional comma () [comma] rest := Or.inl rfl
  exact Grammar.bind_intro (h := fun n => Grammar.optional comma >>= fun _ => pure (ofNat n))
    (number_decimal hn ([comma] ++ rest) (by simp [comma]; decide)) (Grammar.bind_pure_intro hcomma)

theorem commaSeparated_pair (m n : Nat)
    : commaSeparated [m, n] = (decimal m ++ [comma]) ++ decimal n := by
  simp [commaSeparated, List.intercalate]

theorem dropLead_padded (b : UInt8) (text : Bytes)
    : InputStream.dropLead 16 (Numeral.padded 2 16 b.toNat ++ text) = Numeral.padded 2 16 b.toNat
        ++ text := by
  have hlength : 2 ≤ (Numeral.padded 2 16 b.toNat).length := by
    unfold Numeral.padded
    rw [List.length_leftpad]
    exact Nat.le_max_left _ _
  have hdigits : ∀ c ∈ Numeral.padded 2 16 b.toNat, Numeral.isDigit 16 c = true :=
    fun c hc => Numeral.isDigit_of_mem_padded (by decide) (by decide) hc
  generalize Numeral.padded 2 16 b.toNat = digits at hlength hdigits
  match digits with
  | c :: x :: cs =>
    have hx := hdigits x (by simp)
    simp only [List.cons_append, InputStream.dropLead]
    rw [if_neg]
    rintro ⟨-, -, rfl | rfl⟩
    . cases hx
    . cases hx

theorem macText_macToString (mac : Bytes)
    : macText mac (macToString mac) [] := by
  apply Grammar.many_intercalate
  intro b hb rest hrest
  have hnumber : number 16 32 b.toNat (Numeral.padded 2 16 b.toNat) rest := number_numeral
    (dropLead_padded b)
    Numeral.padded_ne_nil (fun _ hc => Numeral.isDigit_of_mem_padded (by decide) (by decide) hc)
    (Numeral.value_padded (by decide) (by decide))
    (by have hb' := b.toNat_lt; omega) (fun c hc => by rw [hrest c hc]; decide)
  have htext := Grammar.bind_pure_intro (f := UInt8.ofNat)
    (g := Grammar.filter (number 16 32) (fun n => n < 2^8))
    ⟨hnumber, b.toNat_lt⟩
  rwa [UInt8.ofNat_toNat] at htext

end

section

variable {ip4 : AddressText AddressV4} {ip6 : AddressText AddressV6} {garbage : UInt16}

theorem separator_semicolon (rest : Bytes)
    : separator () [semicolon] rest := by
  exact ⟨semicolon, rfl, rfl⟩

theorem separator_slash (rest : Bytes)
    : separator () [slash] rest := by
  exact ⟨slash, rfl, rfl⟩

variable {α : Type} {ip : AddressText α}

theorem addressText_toString (hip : ip.RoundTrips) (a : α) {rest : Bytes}
    (hrest : ∀ c ∈ rest.head?, isFieldSeparator c = true)
    : addressText ip a (ip.toString a) rest := by
  exact ⟨hip.no_separator a, hrest, hip.fromString_toString a⟩

theorem portText_decimal (port : UInt16)
    : portText port (decimal port.toNat) [] := by
  have hnumber := number_decimal port.toNat_lt [] (by simp)
  have htext := Grammar.bind_pure_intro (f := UInt16.ofNat) hnumber
  rwa [UInt16.ofNat_toNat] at htext

theorem endpointText_toString (hip : ip.RoundTrips) (n : UInt8) (a : α) (rest : Bytes)
    : endpointText ip (n, a)
        (decimal n.toNat ++ ([semicolon] ++ (ip.toString a ++ [semicolon]))) rest := by
  exact Grammar.bind_intro (uint8Text_decimal n _ (by simp; decide))
    (Grammar.bind_intro (separator_semicolon _)
    (Grammar.bind_intro (addressText_toString hip a (by simp; decide))
      (Grammar.bind_pure_intro (g := separator) (b := ()) (separator_semicolon _))))

theorem grammar_valueToString (h4 : ip4.RoundTrips) (h6 : ip6.RoundTrips) {v : DataItemValue} (hv : ¬ v.Spaced)
    : DataItemValue.grammar ip4 ip6 v.getType v (v.valueToString ip4 ip6) [] := by
  have hsemicolon := separator_semicolon
  have hslash := separator_slash
  have h8 : ∀ n : UInt8, uint8Text n (decimal n.toNat) [] := fun n => uint8Text_decimal n [] (by simp)
  have h8' : ∀ (n : UInt8) (rest : Bytes), uint8Text n (decimal n.toNat) ([semicolon] ++ rest) :=
    fun n rest => uint8Text_decimal n _ (by simp; decide)
  cases v with
  | blank => exact ⟨rfl, rfl⟩
  | div_u8 value =>
    exact Grammar.bind_pure_intro (uintText_decimal (by decide) value.toNat_lt UInt8.ofNat_toNat [] (by simp))
  | div_u16 value =>
    exact Grammar.bind_pure_intro (uintText_decimal (by decide) value.toNat_lt UInt16.ofNat_toNat [] (by simp))
  | div_u32 value =>
    exact Grammar.bind_pure_intro (uintText_decimal (by decide) value.toNat_lt UInt32.ofNat_toNat [] (by simp))
  | div_u64 value =>
    exact Grammar.bind_pure_intro (uintText_decimal (by decide) value.toNat_lt UInt64.ofNat_toNat [] (by simp))
  | div_v_u8 value =>
    exact Grammar.bind_pure_intro
      (vectorText_commaSeparated (by decide) (fun _ => UInt8.ofNat_toNat) (fun b => b.toNat_lt) value)
  | div_a2_u16 value0 value1 =>
    have hfirst := elementText_first UInt16.ofNat value0.toNat_lt (decimal value1.toNat ++ [])
    have hlast := elementText_last UInt16.ofNat value1.toNat_lt
    rw [UInt16.ofNat_toNat] at hfirst hlast
    change DataItemValue.grammar ip4 ip6 .div_a2_u16 _ (commaSeparated _) []
    rw [commaSeparated_pair]
    exact Grammar.bind_intro hfirst (Grammar.bind_pure_intro hlast)
  | div_a2_u64 value0 value1 =>
    have hfirst := elementText_first UInt64.ofNat value0.toNat_lt (decimal value1.toNat ++ [])
    have hlast := elementText_last UInt64.ofNat value1.toNat_lt
    rw [UInt64.ofNat_toNat] at hfirst hlast
    change DataItemValue.grammar ip4 ip6 .div_a2_u64 _ (commaSeparated _) []
    rw [commaSeparated_pair]
    exact Grammar.bind_intro hfirst (Grammar.bind_pure_intro hlast)
  | div_string value => exact ⟨rfl, rfl⟩
  | div_dlepmac macAddr => exact Grammar.bind_pure_intro (g := macText.toEnd) ⟨macText_macToString macAddr, rfl⟩
  | div_u8_string field1 field2 =>
    have hword : wordText field2 field2 [] := by
      refine ⟨[], rfl, by simp, ?_, Or.inl rfl⟩
      intro c hc
      rw [Bool.eq_false_iff]
      intro hspace
      exact hv ⟨c, hc, hspace⟩
    exact Grammar.bind_intro (h8' field1 _) (Grammar.bind_intro (hsemicolon _) (Grammar.bind_pure_intro hword))
  | div_u8_ipv4 field1 field2 =>
    exact Grammar.bind_intro (h8' field1 _) (Grammar.bind_intro (hsemicolon _)
      (Grammar.bind_pure_intro (addressText_toString h4 field2 (by simp))))
  | div_ipv4_u8 field1 field2 =>
    exact Grammar.bind_intro (addressText_toString h4 field1 (by simp; decide)) (Grammar.bind_intro (hslash _)
      (Grammar.bind_pure_intro (h8 field2)))
  | div_u8_ipv6 field1 field2 =>
    exact Grammar.bind_intro (h8' field1 _) (Grammar.bind_intro (hsemicolon _)
      (Grammar.bind_pure_intro (addressText_toString h6 field2 (by simp))))
  | div_ipv6_u8 field1 field2 =>
    exact Grammar.bind_intro (addressText_toString h6 field1 (by simp; decide)) (Grammar.bind_intro (hslash _)
      (Grammar.bind_pure_intro (h8 field2)))
  | div_u64_u8 field1 field2 =>
    have hfield2 := Grammar.bind_intro (h := fun _ => uint8Text >>= fun field2 => pure (DataItemValue.div_u64_u8 field1 field2))
      (hsemicolon _) (Grammar.bind_pure_intro (h8 field2))
    have hnumber : number 10 64 field1.toNat (decimal field1.toNat) (([semicolon] ++ decimal field2.toNat) ++ []) :=
      number_decimal field1.toNat_lt _ (by simp; decide)
    have htext := Grammar.bind_intro (h := fun n => separator >>= fun _ => uint8Text >>= fun field2 =>
      pure (DataItemValue.div_u64_u8 (UInt64.ofNat n) field2)) hnumber (by rwa [UInt64.ofNat_toNat])
    exact htext
  | div_u16_vu8 field1 field2 =>
    have hvector : vectorText 8 UInt8.ofNat field2 (commaSeparated (field2.map UInt8.toNat)) [] :=
      vectorText_commaSeparated (by decide) (fun _ => UInt8.ofNat_toNat) (fun b => b.toNat_lt) field2
    have hfield2 := Grammar.bind_intro (h := fun _ => vectorText 8 UInt8.ofNat >>= fun field2 =>
      pure (DataItemValue.div_u16_vu8 field1 field2)) (hsemicolon _) (Grammar.bind_pure_intro hvector)
    have hnumber : number 10 16 field1.toNat (decimal field1.toNat)
        (([semicolon] ++ commaSeparated (field2.map UInt8.toNat)) ++ []) :=
      number_decimal field1.toNat_lt _ (by simp; decide)
    have htext := Grammar.bind_intro (h := fun n => separator >>= fun _ => vectorText 8 UInt8.ofNat >>= fun field2 =>
      pure (DataItemValue.div_u16_vu8 (UInt16.ofNat n) field2)) hnumber (by rwa [UInt16.ofNat_toNat])
    exact htext
  | div_v_extid field1 =>
    exact Grammar.bind_pure_intro
      (vectorText_commaSeparated (by decide) (fun _ => UInt32.ofNat_toNat) (fun b => b.toNat_lt) field1)
  | div_u8_ipv4_u16 field1 field2 field3 =>
    have htext := Grammar.bind_intro (g := endpointText ip4) (h := fun x => portText >>= fun port =>
      pure (DataItemValue.div_u8_ipv4_u16 x.1 x.2 port)) (endpointText_toString h4 field1 field2 _)
      (Grammar.bind_pure_intro (portText_decimal field3))
    simp only [List.append_assoc] at htext
    exact htext
  | div_u8_ipv6_u16 field1 field2 field3 =>
    have htext := Grammar.bind_intro (g := endpointText ip6) (h := fun x => portText >>= fun port =>
      pure (DataItemValue.div_u8_ipv6_u16 x.1 x.2 port)) (endpointText_toString h6 field1 field2 _)
      (Grammar.bind_pure_intro (portText_decimal field3))
    simp only [List.append_assoc] at htext
    exact htext
  | div_u8_ipv4_u8 field1 field2 field3 =>
    exact Grammar.bind_intro (h8' field1 _) (Grammar.bind_intro (hsemicolon _)
      (Grammar.bind_intro (addressText_toString h4 field2 (by simp; decide))
        (Grammar.bind_intro (hsemicolon _) (Grammar.bind_pure_intro (h8 field3)))))
  | div_u8_ipv6_u8 field1 field2 field3 =>
    exact Grammar.bind_intro (h8' field1 _) (Grammar.bind_intro (hsemicolon _)
      (Grammar.bind_intro (addressText_toString h6 field2 (by simp; decide))
        (Grammar.bind_intro (hsemicolon _) (Grammar.bind_pure_intro (h8 field3)))))

theorem fromString_valueToString_iff (garbage : UInt16) (h4 : ip4.RoundTrips) (h6 : ip6.RoundTrips)
    (v : DataItemValue)
    : DataItemValue.fromString ip4 ip6 garbage (v.valueToString ip4 ip6) v.getType = .ok v
        ↔ ¬ v.Spaced := by
  constructor
  . intro hok hspaced
    cases v with
    | div_u8_string field1 field2 =>
      obtain ⟨c, hc, hspace⟩ := hspaced
      have hplain : DataItemValueType.Plain .div_u8_string := trivial
      obtain ⟨r, hr, hrecognises⟩ := exists_reader ip4 ip6 garbage
        ((DataItemValue.div_u8_string field1 field2).valueToString ip4 ip6) hplain
      obtain ⟨taken, rest, -, htext⟩ := hrecognises.scan_eq_ok_iff.mp (hr.symm.trans hok)
      obtain ⟨n, text₁, text₂, -, -, u, text₃, text₄, -, -, w, text₅, text₆, -, hword, heq, -⟩ := htext
      obtain ⟨-, rfl⟩ := DataItemValue.div_u8_string.inj heq
      obtain ⟨blanks, -, -, hsolid, -⟩ := hword
      rw [hsolid c hc] at hspace
      cases hspace
    | _ => exact hspaced
  . intro hv
    have htext : DataItemValue.fromString ip4 ip6 garbage
        (v.valueToString ip4 ip6 ++ []) v.getType = .ok v :=
      fromString_of_grammar (grammar_valueToString h4 h6 hv)
    rwa [List.append_nil] at htext

variable {ty : DataItemValueType} {valStr : Bytes}

theorem not_whole_of_trailing (h : Trailing ip4 ip6 ty valStr)
    : ¬ Whole ip4 ip6 ty valStr := by
  rintro ⟨v', hwhole⟩
  obtain ⟨v, text, rest, hsplit, hne, htext⟩ := h
  have heq : text ++ rest = valStr ++ [] := by
    rw [List.append_nil, hsplit]
  exact hne (deterministic_grammar ip4 ip6 ty _ _ _ _ _ _ heq htext hwhole).2

theorem whole_iff_of_plain (hplain : ty.Plain) (valStr : Bytes)
    : ((∃ v, DataItemValue.fromString ip4 ip6 garbage valStr ty = .ok v) → Whole ip4 ip6 ty valStr)
        ↔ ¬ Trailing ip4 ip6 ty valStr := by
  constructor
  . rintro hwhole htrailing
    have hnot := not_whole_of_trailing htrailing
    obtain ⟨v, text, rest, rfl, -, htext⟩ := htrailing
    exact hnot (hwhole ⟨v, fromString_of_grammar htext⟩)
  . rintro htrailing ⟨v, hok⟩
    obtain ⟨r, hr, hrecognises⟩ := exists_reader ip4 ip6 garbage valStr hplain
    obtain ⟨text, rest, hsplit, htext⟩ := hrecognises.scan_eq_ok_iff.mp (hr.symm.trans hok)
    by_cases hnil : rest = []
    . subst hnil
      rw [List.append_nil] at hsplit
      subst hsplit
      exact ⟨v, htext⟩
    . exact absurd ⟨v, text, rest, hsplit, hnil, htext⟩ htrailing

theorem fromString_mac_eq_ok_iff {v : DataItemValue}
    : DataItemValue.fromString ip4 ip6 garbage valStr .div_dlepmac = .ok v
        ↔ ∃ mac, v = .div_dlepmac mac ∧ scan (parseMac valStr) valStr = .ok mac := by
  rw [fromString_mac]
  cases scan (parseMac valStr) valStr with
  | error e => simp [Except.map]
  | ok mac => simp [Except.map, eq_comm]

theorem whole_iff_of_mac (valStr : Bytes)
    : ((∃ v, DataItemValue.fromString ip4 ip6 garbage valStr .div_dlepmac = .ok v)
        → Whole ip4 ip6 .div_dlepmac valStr)
        ↔ ¬ Dangling valStr := by
  constructor
  . rintro hwhole ⟨mac, text, rest, hsplit, hne, hmac, hunfinished⟩
    have hscan := scan_parseMac_eq_ok_iff.mpr ⟨text, rest, hsplit, hmac, hunfinished⟩
    have hread := hwhole ⟨_, fromString_mac_eq_ok_iff.mpr ⟨mac, rfl, hscan⟩⟩
    obtain ⟨v, mac', text₁, text₂, htext, ⟨hmac', hend⟩, -, rfl⟩ := hread
    rw [List.append_nil] at htext
    subst htext
    have hscan' := scan_parseMac_eq_ok_iff.mpr
      ⟨valStr, [], (List.append_nil valStr).symm, hmac', InputStream.Unfinished.nil⟩
    rw [hscan] at hscan'
    cases hscan'
    have heq : text ++ rest = valStr ++ [] := by
      rw [List.append_nil, hsplit]
    exact hne (deterministic_byteText.many heq hmac hmac')
  . rintro hdangling ⟨v, hok⟩
    obtain ⟨mac, rfl, hscan⟩ := fromString_mac_eq_ok_iff.mp hok
    obtain ⟨text, rest, hsplit, hmac, hunfinished⟩ := scan_parseMac_eq_ok_iff.mp hscan
    by_cases hnil : rest = []
    . subst hnil
      rw [List.append_nil] at hsplit
      subst hsplit
      have htext := Grammar.bind_pure_intro (g := macText.toEnd)
        (f := DataItemValue.div_dlepmac) ⟨hmac, rfl⟩
      exact ⟨_, htext⟩
    . exact absurd ⟨mac, text, rest, hsplit, hnil, hmac, hunfinished⟩ hdangling

theorem whole_iff_of_port
    (mk : UInt8 → α → UInt16 → DataItemValue)
    (hfrom : DataItemValue.fromString ip4 ip6 garbage valStr ty
      = scan (endpoint valStr ip >>= fun x => readPort garbage >>= fun port => pure
        (mk x.1 x.2 port)) valStr)
    (hgrammar : DataItemValue.grammar ip4 ip6 ty = endpointText ip >>= fun x => portText
      >>= fun port => pure (mk x.1 x.2 port))
    : ((∃ v, DataItemValue.fromString ip4 ip6 garbage valStr ty = .ok v) → Whole ip4 ip6 ty valStr)
        ↔ ¬ (Trailing ip4 ip6 ty valStr ∨ Portless ip valStr) := by
  rw [hfrom, scan_port_iff]
  constructor
  . rintro hwhole (htrailing | ⟨x, text, rest, hsplit, hx, hport⟩)
    . have hnot := not_whole_of_trailing htrailing
      obtain ⟨v, text, rest, rfl, -, htext⟩ := htrailing
      rw [hgrammar] at htext
      obtain ⟨x, text₁, text₂, rfl, hx, -⟩ := htext
      exact hnot (hwhole ⟨x, text₁, text₂ ++ rest, by simp, hx⟩)
    . obtain ⟨v, htext⟩ := hwhole ⟨x, text, rest, hsplit, hx⟩
      rw [hgrammar] at htext
      obtain ⟨x', text₁, text₂, rfl, hx', port, text₃, text₄, rfl, htext₃, -⟩ := htext
      rw [List.append_nil] at hx'
      obtain ⟨-, hrest⟩ := deterministic_endpointText ip _ _ _ _ _ _ hsplit hx' hx
      exact hport ⟨port, text₃, text₄, hrest.symm, by rwa [List.append_nil] at htext₃⟩
  . rintro hunread ⟨x, text, rest, hsplit, hx⟩
    rw [not_or] at hunread
    obtain ⟨htrailing, hportless⟩ := hunread
    by_cases hport : ∃ port text' rest', rest = text' ++ rest' ∧ portText port text' rest'
    . obtain ⟨port, text', rest', rfl, hport⟩ := hport
      have htext : DataItemValue.grammar ip4 ip6 ty (mk x.1 x.2 port) (text ++ text') rest' := by
        rw [hgrammar]
        exact Grammar.bind_intro hx (Grammar.bind_pure_intro hport)
      by_cases hnil : rest' = []
      . subst hnil
        rw [List.append_nil] at hsplit
        rw [hsplit]
        exact ⟨_, htext⟩
      . exact absurd ⟨_, text ++ text', rest', by rw [hsplit, List.append_assoc], hnil, htext⟩ htrailing
    . exact absurd ⟨x, text, rest, hsplit, hx, hport⟩ hportless

theorem whole_iff (garbage : UInt16) (ty : DataItemValueType) (valStr : Bytes)
    : ((∃ v, DataItemValue.fromString ip4 ip6 garbage valStr ty = .ok v) → Whole ip4 ip6 ty valStr)
        ↔ ¬ Unread ip4 ip6 valStr ty := by
  cases ty with
  | div_dlepmac => exact whole_iff_of_mac valStr
  | div_u8_ipv4_u16 => exact whole_iff_of_port _ (fromString_ipv4_u16 ip4 ip6 garbage valStr) rfl
  | div_u8_ipv6_u16 => exact whole_iff_of_port _ (fromString_ipv6_u16 ip4 ip6 garbage valStr) rfl
  | _ =>
    refine whole_iff_of_plain ?_ valStr
    trivial

theorem fromString_eq_ok_iff {di di' : DataItem}
    : di.fromString ip4 ip6 garbage valStr = .ok di'
        ↔ ∃ v, DataItemValue.fromString ip4 ip6 garbage valStr di.value.getType = .ok v
            ∧ di' = { di with value := v } := by
  unfold DataItem.fromString
  cases DataItemValue.fromString ip4 ip6 garbage valStr di.value.getType with
  | error e => simp [bind, Except.bind]
  | ok v => simp [bind, Except.bind, pure, Except.pure, eq_comm]

end

theorem DataItem.value_text_iff (ip4 : AddressText AddressV4) (ip6 : AddressText AddressV6)
    (garbage : UInt16)
    (h4 : ip4.RoundTrips) (h6 : ip6.RoundTrips)
    : (∀ (di : DataItem) (v : DataItemValue), v.getType = di.value.getType →
        (di.fromString ip4 ip6 garbage (v.valueToString ip4 ip6) = .ok { di with value := v }
          ↔ ¬ v.Spaced))
      ∧ ∀ (di : DataItem) (valStr : Bytes),
        ((∃ di', di.fromString ip4 ip6 garbage valStr = .ok di') → Whole ip4 ip6 di.value.getType valStr)
          ↔ ¬ Unread ip4 ip6 valStr di.value.getType := by
  constructor
  . intro di v hty
    have hvalue := fromString_valueToString_iff garbage h4 h6 v
    rw [← hvalue, fromString_eq_ok_iff, ← hty]
    constructor
    . rintro ⟨v', hok, hdi⟩
      obtain rfl : v = v' := congrArg DataItem.value hdi
      exact hok
    . intro hok
      exact ⟨v, hok, rfl⟩
  . intro di valStr
    rw [← whole_iff garbage]
    have hread : (∃ di', di.fromString ip4 ip6 garbage valStr = .ok di')
        ↔ ∃ v, DataItemValue.fromString ip4 ip6 garbage valStr di.value.getType = .ok v := by
      constructor
      . rintro ⟨di', hok⟩
        obtain ⟨v, hv, -⟩ := fromString_eq_ok_iff.mp hok
        exact ⟨v, hv⟩
      . rintro ⟨v, hv⟩
        exact ⟨_, fromString_eq_ok_iff.mpr ⟨v, hv, rfl⟩⟩
    rw [hread]

def dotted (ns : List Nat) : Bytes :=
  [46].intercalate (ns.map decimal)

def undotted (text : Bytes) : List Nat :=
  (text.splitOn 46).map (Numeral.value 10)

def dottedV4 : AddressText AddressV4 where
  toString a := dotted (a.val.map UInt8.toNat)
  fromString text :=
    if h : (undotted text).length = 4 then
      some ⟨(undotted text).map UInt8.ofNat, by rw [List.length_map, h]⟩
    else
      none

def dottedV6 : AddressText AddressV6 where
  toString a := dotted (a.scopeId :: a.bytes.val.map UInt8.toNat)
  fromString text :=
    if h : (undotted text).tail.length = 16 then
      some ⟨⟨(undotted text).tail.map UInt8.ofNat, by rw [List.length_map, h]⟩, (undotted text).headD 0⟩
    else
      none

theorem undotted_dotted {ns : List Nat} (hne : ns ≠ [])
    : undotted (dotted ns) = ns := by
  have hdot : ∀ digits ∈ ns.map decimal, (46 : UInt8) ∉ digits := by
    intro digits hdigits hmem
    obtain ⟨n, -, rfl⟩ := List.mem_map.mp hdigits
    cases Numeral.isDigit_of_mem_numeral (by decide) (by decide) hmem
  have hvalue : ∀ n ∈ ns, (Numeral.value 10 ∘ decimal) n = id n :=
    fun n _ => Numeral.value_numeral (by decide) (by decide)
  unfold undotted dotted
  rw [List.splitOn_intercalate _ hdot (by simpa using hne), List.map_map,
    List.map_congr_left hvalue, List.map_id]

theorem mem_intercalate {a c : UInt8} {texts : List Bytes} (h : c ∈ [a].intercalate texts)
    : c = a ∨ ∃ text ∈ texts, c ∈ text := by
  induction texts with
  | nil => cases h
  | cons text texts ih =>
    cases texts with
    | nil => exact Or.inr ⟨text, by simp, by simpa [List.intercalate] using h⟩
    | cons text' texts =>
      have hsplit : [a].intercalate (text :: text' :: texts) = text
          ++ (a :: [a].intercalate (text' :: texts)) := by
        simp [List.intercalate]
      rw [hsplit, List.mem_append, List.mem_cons] at h
      rcases h with h | rfl | h
      . exact Or.inr ⟨text, by simp, h⟩
      . exact Or.inl rfl
      . obtain rfl | ⟨text₂, htext₂, hc⟩ := ih h
        . exact Or.inl rfl
        . exact Or.inr ⟨text₂, List.mem_cons_of_mem text htext₂, hc⟩

theorem no_separator_dotted {ns : List Nat} {c : UInt8} (h : c ∈ dotted ns)
    : isFieldSeparator c = false := by
  rw [Bool.eq_false_iff]
  intro hsep
  have hc : c = semicolon ∨ c = slash := by
    simpa [isFieldSeparator] using hsep
  rcases mem_intercalate h with rfl | ⟨digits, hdigits, hmem⟩
  . rcases hc with hc | hc <;> cases hc
  . obtain ⟨n, -, rfl⟩ := List.mem_map.mp hdigits
    have hdigit := Numeral.isDigit_of_mem_numeral (by decide) (by decide) hmem
    rcases hc with rfl | rfl
    . cases hdigit
    . cases hdigit

theorem map_ofNat_toNat (bytes : Bytes)
    : (bytes.map UInt8.toNat).map UInt8.ofNat = bytes := by
  have hinv : ∀ b ∈ bytes, (UInt8.ofNat ∘ UInt8.toNat) b = id b := fun b _ => UInt8.ofNat_toNat
  rw [List.map_map, List.map_congr_left hinv, List.map_id]

theorem roundTrips_dottedV4
    : dottedV4.RoundTrips := by
  constructor
  . rintro ⟨bytes, hbytes⟩
    have hne : bytes.map UInt8.toNat ≠ [] := by
      rintro hnil
      rw [List.map_eq_nil_iff] at hnil
      rw [hnil] at hbytes
      cases hbytes
    simp only [dottedV4, undotted_dotted hne, List.length_map, hbytes, map_ofNat_toNat]
    rfl
  . intro a c hc
    exact no_separator_dotted hc

theorem roundTrips_dottedV6
    : dottedV6.RoundTrips := by
  constructor
  . rintro ⟨⟨bytes, hbytes⟩, scopeId⟩
    simp only [dottedV6, undotted_dotted (List.cons_ne_nil _ _), List.tail_cons, List.headD_cons,
      List.length_map, hbytes,
      map_ofNat_toNat]
    rfl
  . intro a c hc
    exact no_separator_dotted hc

theorem DataItem.value_text_iff_address
    : DataItem.fromString dottedV4 dottedV6 0 ⟨10, .div_u8_ipv4 0 ⟨[0, 0, 0, 0], rfl⟩⟩
          ((DataItemValue.div_u8_ipv4 1 ⟨[10, 0, 0, 7], rfl⟩).valueToString dottedV4 dottedV6)
        = .ok ⟨10, .div_u8_ipv4 1 ⟨[10, 0, 0, 7], rfl⟩⟩ := by
  exact ((DataItem.value_text_iff dottedV4 dottedV6 0 roundTrips_dottedV4 roundTrips_dottedV6).1
    ⟨10, .div_u8_ipv4 0 ⟨[0, 0, 0, 0], rfl⟩⟩ (.div_u8_ipv4 1 ⟨[10, 0, 0, 7], rfl⟩) rfl).mpr (fun h => h)

theorem DataItem.not_value_text
    : (∃ (di : DataItem) (v : DataItemValue), v.getType = di.value.getType
        ∧ di.fromString dottedV4 dottedV6 0 (v.valueToString dottedV4 dottedV6) ≠ .ok
          { di with value := v })
      ∧ ∃ (di : DataItem) (valStr : Bytes), (∃ di', di.fromString dottedV4 dottedV6 0 valStr = .ok di')
        ∧ ¬ Whole dottedV4 dottedV6 di.value.getType valStr := by
  constructor
  . refine ⟨⟨1, .div_u8_string 0 []⟩, .div_u8_string 0 (ascii "link down"), rfl, ?_⟩
    intro hok
    have hread : DataItem.fromString dottedV4 dottedV6 0 ⟨1, .div_u8_string 0 []⟩
        ((DataItemValue.div_u8_string 0 (ascii "link down")).valueToString dottedV4 dottedV6)
        = .ok ⟨1, .div_u8_string 0 (ascii "link")⟩ := by
      rfl
    cases hok
  . refine ⟨⟨2, .div_u8 0⟩, ascii "5x", ⟨⟨2, .div_u8 5⟩, rfl⟩, ?_⟩
    apply not_whole_of_trailing
    have hdigits : uintText 8 UInt8.ofNat 5 (decimal 5) (ascii "x") :=
      uintText_decimal (by decide) (by decide) rfl _
        (by intro c hc; obtain rfl := Option.some.inj hc; decide)
    exact ⟨.div_u8 5, ascii "5", ascii "x", rfl, List.cons_ne_nil _ _, Grammar.bind_pure_intro hdigits⟩

end Dlep
end Emane

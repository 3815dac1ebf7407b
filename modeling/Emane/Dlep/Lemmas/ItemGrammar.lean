import Emane.Dlep.Impl.ItemText
import Emane.Lib.Recognise

/-!
This module contains the grammar of the text of each type of value: the fields of the value and what
is between them.
-/

namespace Emane
namespace Dlep

open Scan
open InputStream (number number_ne_nil wordText Settled unsigned Unfinished)

def separator : Grammar UInt8 Unit :=
  fun _ text _ => ∃ c, text = [c] ∧ isFieldSeparator c = true

def uintText {β : Type} (bits : Nat) (ofNat : Nat → β) : Grammar UInt8 β := do
  let n ← (number 10 64).filter (fun n => n < 2^bits)
  return ofNat n

def uint8Text : Grammar UInt8 UInt8 := do
  let n ← (number 10 32).filter (fun n => n < 2^8)
  return UInt8.ofNat n

def vectorText {β : Type} (bits : Nat) (ofNat : Nat → β) : Grammar UInt8 (List β) :=
  ((uintText bits ofNat).item comma).many.toEnd

def elementText {β : Type} (width : Nat) (ofNat : Nat → β) : Grammar UInt8 β := do
  let n ← number 10 width
  Grammar.optional comma
  return ofNat n

def byteText : Grammar UInt8 UInt8 := do
  let n ← (number 16 32).filter (fun n => n < 2^8)
  return UInt8.ofNat n

def macText : Grammar UInt8 Bytes :=
  (byteText.item colon).many

def addressText {α : Type} (ip : AddressText α) : Grammar UInt8 α :=
  fun a text rest =>
    (∀ c ∈ text, isFieldSeparator c = false)
      ∧ (∀ c ∈ rest.head?, isFieldSeparator c = true)
      ∧ ip.fromString text = some a

def portText : Grammar UInt8 UInt16 := do
  return UInt16.ofNat (← number 10 16)

def endpointText {α : Type} (ip : AddressText α) : Grammar UInt8 (UInt8 × α) := do
  let field1 ← uint8Text
  separator
  let field2 ← addressText ip
  separator
  return (field1, field2)

section

variable (ip4 : AddressText AddressV4) (ip6 : AddressText AddressV6)

def DataItemValue.grammar : DataItemValueType → Grammar UInt8 DataItemValue
  | .blank => return blank
  | .div_u8 => do return div_u8 (← uintText 8 UInt8.ofNat)
  | .div_u16 => do return div_u16 (← uintText 16 UInt16.ofNat)
  | .div_u32 => do return div_u32 (← uintText 32 UInt32.ofNat)
  | .div_u64 => do return div_u64 (← uintText 64 UInt64.ofNat)
  | .div_v_u8 => do return div_v_u8 (← vectorText 8 UInt8.ofNat)
  | .div_a2_u16 => do
    let value0 ← elementText 16 UInt16.ofNat
    let value1 ← elementText 16 UInt16.ofNat
    return div_a2_u16 value0 value1
  | .div_a2_u64 => do
    let value0 ← elementText 64 UInt64.ofNat
    let value1 ← elementText 64 UInt64.ofNat
    return div_a2_u64 value0 value1
  | .div_string => fun v text rest => v = div_string text ∧ rest = []
  | .div_dlepmac => do return div_dlepmac (← macText.toEnd)
  | .div_u8_string => do
    let field1 ← uint8Text
    separator
    let field2 ← wordText
    return div_u8_string field1 field2
  | .div_u8_ipv4 => do
    let field1 ← uint8Text
    separator
    let field2 ← addressText ip4
    return div_u8_ipv4 field1 field2
  | .div_ipv4_u8 => do
    let field1 ← addressText ip4
    separator
    let field2 ← uint8Text
    return div_ipv4_u8 field1 field2
  | .div_u8_ipv6 => do
    let field1 ← uint8Text
    separator
    let field2 ← addressText ip6
    return div_u8_ipv6 field1 field2
  | .div_ipv6_u8 => do
    let field1 ← addressText ip6
    separator
    let field2 ← uint8Text
    return div_ipv6_u8 field1 field2
  | .div_u64_u8 => do
    let field1 ← number 10 64
    separator
    let field2 ← uint8Text
    return div_u64_u8 (UInt64.ofNat field1) field2
  | .div_u16_vu8 => do
    let field1 ← number 10 16
    separator
    let field2 ← vectorText 8 UInt8.ofNat
    return div_u16_vu8 (UInt16.ofNat field1) field2
  | .div_v_extid => do return div_v_extid (← vectorText 32 UInt32.ofNat)
  | .div_u8_ipv4_u16 => do
    let (field1, field2) ← endpointText ip4
    return div_u8_ipv4_u16 field1 field2 (← portText)
  | .div_u8_ipv6_u16 => do
    let (field1, field2) ← endpointText ip6
    return div_u8_ipv6_u16 field1 field2 (← portText)
  | .div_u8_ipv4_u8 => do
    let field1 ← uint8Text
    separator
    let field2 ← addressText ip4
    separator
    let field3 ← uint8Text
    return div_u8_ipv4_u8 field1 field2 field3
  | .div_u8_ipv6_u8 => do
    let field1 ← uint8Text
    separator
    let field2 ← addressText ip6
    separator
    let field3 ← uint8Text
    return div_u8_ipv6_u8 field1 field2 field3

end

section

variable {β : Type} {valStr : Bytes}

theorem recognises_parseUint (bits : Nat) (ofNat : Nat → β)
    : Recognises (parseUint valStr bits ofNat) (uintText bits ofNat) := by
  have hfits : ∀ n, ¬ n % 2^bits ≠ n ↔ n < 2^bits := by
    intro n
    rw [not_ne_iff]
    exact Nat.mod_eq_iff_lt (Nat.two_pow_pos bits).ne'
  have hreject := (recognises_extract (⟨valStr⟩ : InvalidArgument) 10 (by decide) 64).reject
    (fun n => n % 2^bits ≠ n) ⟨valStr⟩ ofNat
  rw [Grammar.filter_congr hfits] at hreject
  exact hreject

theorem recognises_parseUint8
    : Recognises (parseUint8 valStr) uint8Text := by
  have hfits : ∀ n, ¬ n > 255 ↔ n < 2^8 := by
    intro n
    omega
  have hreject := (recognises_extract (⟨valStr⟩ : InvalidArgument) 10 (by decide) 32).reject
    (fun n => n > 255) ⟨valStr⟩ UInt8.ofNat
  rw [Grammar.filter_congr hfits] at hreject
  exact hreject

theorem uintText_ne_nil {bits : Nat} {ofNat : Nat → β} {b : β} {text rest : Bytes}
    (h : uintText bits ofNat b text rest)
    : text ≠ [] := by
  obtain ⟨n, text₁, text₂, rfl, ⟨hnumber, -⟩, -⟩ := h
  simp [number_ne_nil hnumber]

theorem item_ne_nil {g : Grammar UInt8 β} {delim : UInt8}
    (hne : ∀ {b text rest}, g b text rest → text ≠ [])
    {b : β} {rest : Bytes}
    : ¬ g.item delim b [] rest := by
  rintro ⟨b', text₁, text₂, htext, hg, -⟩
  obtain ⟨rfl, -⟩ := List.append_eq_nil_iff.mp htext.symm
  exact hne hg rfl

theorem recognises_parseVector (bits : Nat) (ofNat : Nat → β)
    : Recognises (parseVector valStr bits ofNat) (vectorText bits ofNat) := by
  exact recognises_whileAvail ((recognises_parseUint bits ofNat).item comma) (item_ne_nil uintText_ne_nil)

theorem elementText_ne_nil {width : Nat} {ofNat : Nat → β} {b : β} {text rest : Bytes}
    (h : elementText width ofNat b text rest)
    : text ≠ [] := by
  obtain ⟨n, text₁, text₂, rfl, hnumber, -⟩ := h
  simp [number_ne_nil hnumber]

theorem recognises_parseElement (width : Nat) (ofNat : Nat → β)
    : Recognises (parseElement valStr width ofNat) (elementText width ofNat) := by
  have hextract := recognises_extract (⟨valStr⟩ : InvalidArgument) 10 (by decide) width
  have hrest := hextract.bind (fun n => (recognises_skip comma).bind (fun _ => Recognises.pure (ofNat n)))
  exact hrest.unlessFail elementText_ne_nil ⟨valStr⟩

theorem recognises_checkFieldSeparator
    : Recognises (checkFieldSeparator valStr) separator := by
  have hrun : ∀ st, (checkFieldSeparator valStr).run st
      = if (InputStream.get st).1.any isFieldSeparator = false ∨ (InputStream.get st).2.fail = true
        then throw ⟨valStr⟩
        else pure ((), (InputStream.get st).2) := by
    intro st
    change StateT.run (if (InputStream.get st).1.any isFieldSeparator = false
      ∨ (InputStream.get st).2.fail = true then _
      else _) (InputStream.get st).2 = _
    split <;> rfl
  constructor
  . intro st u st' hst hok
    rw [hrun] at hok
    rcases get_of_settled hst with ⟨hnil, hget⟩ | ⟨c, cs, rfl, hget⟩
    . rw [hget, if_pos (by left; rfl)] at hok
      cases hok
    . rw [hget] at hok
      cases hsep : isFieldSeparator c with
      | false =>
        rw [if_pos (Or.inl (by simpa using hsep))] at hok
        cases hok
      | true =>
        rw [if_neg (by simp [hsep, InputStream.ofText])] at hok
        cases hok
        exact ⟨Settled.ofText cs, [c], rfl, c, rfl, hsep⟩
  . rintro st u text rest hst hrest ⟨c, rfl, hsep⟩
    rcases get_of_settled hst with ⟨hnil, -⟩ | ⟨c', cs, rfl, hget⟩
    . rw [hnil] at hrest
      cases hrest
    . obtain ⟨rfl, rfl⟩ := List.cons.inj hrest
      refine ⟨InputStream.ofText cs, ?_, rfl⟩
      rw [hrun, hget, if_neg (by simp [hsep, InputStream.ofText])]
      rfl

theorem collectIp_of_fail {st : InputStream} (hfail : st.fail = true) (fuel : Nat) (ipStr : Bytes)
    : (collectIp fuel ipStr).run st = .ok (ipStr, st) := by
  cases fuel with
  | zero => rfl
  | succ fuel =>
    change StateT.run (if st.fail = true then _ else _) st = _
    rw [if_pos hfail]
    rfl

theorem collectIp_succ {st : InputStream} (hfail : st.fail = false) (fuel : Nat) (ipStr : Bytes)
    : (collectIp (fuel + 1) ipStr).run st
        = if (InputStream.peek st).1.any isFieldSeparator = true then
            .ok (ipStr, (InputStream.peek st).2)
          else
            let x := InputStream.get (InputStream.peek st).2
            if x.2.eof = true then (collectIp fuel ipStr).run x.2
                else (collectIp fuel (ipStr ++ x.1.toList)).run x.2 := by
  change StateT.run (if st.fail = true then _ else _) st = _
  rw [if_neg (by simp [hfail]), StateT.run_bind]
  change StateT.run (if (InputStream.peek st).1.any isFieldSeparator = true then _ else _)
    (InputStream.peek st).2 = _
  split
  . rfl
  . change StateT.run (if (InputStream.get (InputStream.peek st).2).2.eof = true then _ else _)
      (InputStream.get (InputStream.peek st).2).2 = _
    dsimp only
    split <;> rfl

theorem run_collectIp {st : InputStream} (hst : st.Settled) {fuel : Nat}
    (hfuel : st.rest.length < fuel) (ipStr : Bytes)
    : ∃ st', (collectIp fuel ipStr).run st = .ok
        (ipStr ++ st.rest.takeWhile (fun c => !isFieldSeparator c), st')
        ∧ st'.Settled
        ∧ st'.rest = st.rest.dropWhile (fun c => !isFieldSeparator c) := by
  induction fuel generalizing st ipStr with
  | zero => omega
  | succ fuel ih =>
    cases hfail : st.fail with
    | true =>
      have hnil := stop_iff hst |>.mp (Or.inl hfail)
      refine ⟨st, ?_, hst, ?_⟩
      . rw [collectIp_of_fail hfail, hnil]
        simp
      . rw [hnil]
        rfl
    | false =>
      rw [collectIp_succ hfail]
      rcases peek_of_settled hst with ⟨hnil, hpeek, hnil', heof⟩ | ⟨c, cs, rfl, hpeek⟩
      . have hget : InputStream.get (InputStream.peek st).2
            = (none, { (InputStream.peek st).2 with fail := true }) := by
          simp [InputStream.get, InputStream.good, heof]
        rw [if_neg (by simp [hpeek])]
        rw [hget, if_pos heof, collectIp_of_fail rfl]
        refine ⟨{ (InputStream.peek st).2 with fail := true }, ?_, Or.inr ⟨hnil', heof⟩, ?_⟩
        . simp [hnil]
        . simp [hnil, hnil']
      . rw [hpeek]
        cases hsep : isFieldSeparator c with
        | true =>
          refine ⟨InputStream.ofText (c :: cs), ?_, Settled.ofText _, ?_⟩
          . simp [InputStream.ofText, hsep]
          . simp [InputStream.ofText, hsep]
        | false =>
          rw [if_neg (by simp [hsep])]
          obtain ⟨st', hrun, hst', hrest⟩ := ih (Settled.ofText cs)
            (by simpa [InputStream.ofText] using hfuel) (ipStr ++ [c])
          refine ⟨st', ?_, hst', ?_⟩
          . change (collectIp fuel (ipStr ++ [c])).run (InputStream.ofText cs) = _
            rw [hrun]
            simp [InputStream.ofText, hsep]
          . simpa [InputStream.ofText, hsep] using hrest

theorem recognises_parseIpAddr {α : Type} (ip : AddressText α)
    : Recognises (parseIpAddr ip) (addressText ip) := by
  have hrun : ∀ st : InputStream, st.Settled → ∃ st', st'.Settled
      ∧ st'.rest = st.rest.dropWhile (fun c => !isFieldSeparator c)
      ∧ (parseIpAddr ip).run st
        = (ip.fromString (st.rest.takeWhile (fun c => !isFieldSeparator c))).elim
          (.error ⟨ascii "invalid IP address " ++ st.rest.takeWhile (fun c => !isFieldSeparator c)⟩)
          (fun ipaddr => .ok (ipaddr, st')) := by
    intro st hst
    obtain ⟨st', hcollect, hst', hrest⟩ := run_collectIp hst (Nat.lt_succ_self st.rest.length) []
    refine ⟨st', hst', hrest, ?_⟩
    have hget : (get : Scan InvalidArgument InputStream).run st = .ok (st, st) := rfl
    unfold parseIpAddr
    rw [run_bind_of_ok hget, run_bind_of_ok hcollect, List.nil_append]
    cases ip.fromString (st.rest.takeWhile (fun c => !isFieldSeparator c)) with
    | none => rfl
    | some a => rfl
  constructor
  . intro st a st' hst hok
    obtain ⟨st₂, hst₂, hrest, hrun⟩ := hrun st hst
    rw [hrun] at hok
    cases hip : ip.fromString (st.rest.takeWhile (fun c => !isFieldSeparator c)) with
    | none =>
      rw [hip] at hok
      cases hok
    | some ipaddr =>
      rw [hip] at hok
      cases hok
      refine ⟨hst₂, st.rest.takeWhile (fun c => !isFieldSeparator c), ?_, ?_, ?_, hip⟩
      . rw [hrest, List.takeWhile_append_dropWhile]
      . intro c hc
        have hall := List.all_eq_true.mp List.all_takeWhile c hc
        simpa using hall
      . intro c hc
        rw [hrest] at hc
        have hstop := InputStream.not_of_mem_head?_dropWhile hc
        simpa using hstop
  . rintro st a text rest hst hrest ⟨htext, hstop, hip⟩
    obtain ⟨st₂, hst₂, hrest₂, hrun⟩ := hrun st hst
    have htext' : ∀ c ∈ text, (!isFieldSeparator c) = true := fun c hc => by rw [htext c hc]; rfl
    have hstop' : ∀ c ∈ rest.head?, (!isFieldSeparator c) = false := fun c hc => by rw [hstop c hc]; rfl
    rw [hrest, InputStream.dropWhile_append_stop htext' hstop'] at hrest₂
    rw [hrest, InputStream.takeWhile_append_stop htext' hstop', hip] at hrun
    exact ⟨st₂, hrun, hrest₂⟩

end

section

variable {st st₂ : InputStream} {fuel : Nat} {valStr mac taken rest : Bytes}

theorem macBytes_succ (fuel : Nat) (st : InputStream)
    : (macBytes (fuel + 1)).run st
        = if (unsigned 16 32 0 st).2.fail = true then
            .ok ((true, []), (unsigned 16 32 0 st).2)
          else if (unsigned 16 32 0 st).1 > 255 then
            .ok ((false, []), (unsigned 16 32 0 st).2)
          else
            (skip colon >>= fun _ =>
              macBytes fuel >>= fun y => pure (y.1, UInt8.ofNat (unsigned 16 32 0 st).1 :: y.2)).run
                  (unsigned 16 32 0 st).2 := by
  change StateT.run (if (unsigned 16 32 0 st).2.fail = true then _ else
    if (unsigned 16 32 0 st).1 > 255 then _ else _) (unsigned 16 32 0 st).2 = _
  split
  . rfl
  . split <;> rfl

theorem macBytes_sound (hst : st.Settled) (hfuel : st.rest.length < fuel)
    (hrun : (macBytes fuel).run st = .ok ((true, mac), st₂)) (heof : st₂.eof = true)
    : ∃ taken rest, st.rest = taken ++ rest ∧ macText mac taken rest ∧ Unfinished 16 32 rest := by
  induction fuel generalizing st mac with
  | zero => omega
  | succ fuel ih =>
    rw [macBytes_succ] at hrun
    by_cases hfail : (unsigned 16 32 0 st).2.fail = true
    . rw [if_pos hfail] at hrun
      obtain ⟨hmac, rfl⟩ := Prod.mk.inj (Except.ok.inj hrun)
      cases hmac
      exact ⟨[], st.rest, rfl, rfl, InputStream.unfinished_of_unsigned hst hfail heof⟩
    . rw [if_neg hfail] at hrun
      obtain ⟨hst', text, hrest, hnumber⟩ := InputStream.number_of_unsigned hst
        (Bool.eq_false_iff.mpr hfail)
      by_cases hbig : (unsigned 16 32 0 st).1 > 255
      . rw [if_pos hbig] at hrun
        cases hrun
      . rw [if_neg hbig] at hrun
        generalize (unsigned 16 32 0 st).1 = ui at hrun hbig hnumber
        generalize (unsigned 16 32 0 st).2 = behind at hrun hst' hrest hnumber
        obtain ⟨u, st', hskip, hrun⟩ := run_bind_eq_ok hrun
        obtain ⟨⟨valid, bytes⟩, st₂', hbytes, hpure⟩ := run_bind_eq_ok hrun
        obtain ⟨hmac, rfl⟩ := Prod.mk.inj (Except.ok.inj hpure)
        cases hmac
        obtain ⟨hst'', text', hrest', hoptional⟩ := (recognises_skip colon).sound hst' hskip
        have hshorter : st'.rest.length < fuel := by
          have hpos := List.length_pos_iff.mpr (InputStream.number_ne_nil hnumber)
          rw [hrest, hrest', List.length_append, List.length_append] at hfuel
          omega
        obtain ⟨taken, rest, hsplit, hmany, hunfinished⟩ := ih hst'' hshorter hbytes
        have hbyte : byteText (UInt8.ofNat ui) text behind.rest := by
          exact Grammar.bind_pure_intro (g := Grammar.filter _ _) ⟨hnumber, by omega⟩
        rw [hrest', hsplit] at hbyte
        rw [hsplit] at hoptional
        refine ⟨(text ++ text') ++ taken, rest, ?_, ⟨text ++ text', taken, rfl, ?_, hmany⟩, hunfinished⟩
        . rw [hrest, hrest', hsplit]
          simp only [List.append_assoc]
        . exact Grammar.bind_intro hbyte (Grammar.bind_pure_intro (g := Grammar.optional colon) hoptional)

theorem macBytes_complete (hst : st.Settled) (hfuel : st.rest.length < fuel)
    (hrest : st.rest = taken ++ rest)
    (hmac : macText mac taken rest) (hunfinished : Unfinished 16 32 rest)
    : ∃ st₂, (macBytes fuel).run st = .ok ((true, mac), st₂) ∧ st₂.eof = true := by
  induction mac generalizing st fuel taken with
  | nil =>
    obtain rfl : taken = [] := hmac
    rw [List.nil_append] at hrest
    rw [← hrest] at hunfinished
    cases fuel with
    | zero => omega
    | succ fuel =>
      obtain ⟨hfail, heof⟩ := InputStream.unsigned_of_unfinished 0 (by decide) hst hunfinished
      refine ⟨(unsigned 16 32 0 st).2, ?_, heof⟩
      rw [macBytes_succ, if_pos hfail]
  | cons b bs ih =>
    obtain ⟨text, taken, rfl, hitem, hmany⟩ := hmac
    obtain ⟨b', text₁, text₂, rfl, hbyte, u, text₃, text₄, rfl, hoptional, rfl, rfl⟩ := hitem
    obtain ⟨n, text₅, text₆, rfl, ⟨hnumber, hlt⟩, rfl, rfl⟩ := hbyte
    simp only [List.append_nil, List.append_assoc, List.nil_append] at hrest hnumber hoptional
    have hunsigned := InputStream.unsigned_of_number 0 (by decide) hst hrest hnumber
    have hbehind := Settled.behind (text₃ ++ (taken ++ rest))
    have hcolon : Recognises (skip colon : Scan InvalidArgument Unit) (Grammar.optional colon) :=
      recognises_skip colon
    obtain ⟨st', hskip, hrest'⟩ := hcolon.complete hbehind rfl hoptional
    obtain ⟨hst', -⟩ := hcolon.sound hbehind hskip
    cases fuel with
    | zero => omega
    | succ fuel =>
      have hshorter : st'.rest.length < fuel := by
        have hpos := List.length_pos_iff.mpr (InputStream.number_ne_nil hnumber)
        rw [hrest, List.length_append, List.length_append] at hfuel
        rw [hrest']
        omega
      obtain ⟨st₂, hbytes, heof⟩ := ih hst' hshorter hrest' hmany
      refine ⟨st₂, ?_, heof⟩
      rw [macBytes_succ, hunsigned, if_neg Bool.false_ne_true, if_neg (by omega), run_bind_of_ok hskip,
        run_bind_of_ok hbytes]
      rfl

theorem run_parseMac (valStr : Bytes) (st : InputStream)
    : (parseMac valStr).run st
        = match (macBytes (st.rest.length + 1)).run st with
          | .ok ((valid, macAddr), st₂) =>
            if st₂.eof = false ∨ valid = false then .error ⟨valStr⟩ else .ok (macAddr, st₂)
          | .error e => .error e := by
  have hget : ∀ st : InputStream, (get : Scan InvalidArgument InputStream).run st = .ok (st, st) :=
    fun st => rfl
  unfold parseMac
  rw [run_bind_of_ok (hget st)]
  cases hbytes : (macBytes (st.rest.length + 1)).run st with
  | error e =>
    rw [StateT.run_bind, hbytes]
    rfl
  | ok x =>
    rw [run_bind_of_ok hbytes, run_bind_of_ok (hget _)]
    dsimp only
    split <;> rfl

theorem scan_parseMac_eq_ok_iff
    : scan (parseMac valStr) valStr = .ok mac
        ↔ ∃ taken rest, valStr = taken ++ rest ∧ macText mac taken rest ∧ Unfinished 16 32 rest := by
  have hst := Settled.ofText valStr
  have hfuel := Nat.lt_succ_self (InputStream.ofText valStr).rest.length
  have hscan : scan (parseMac valStr) valStr
      = ((parseMac valStr).run (InputStream.ofText valStr)).map Prod.fst := rfl
  rw [hscan, run_parseMac]
  constructor
  . intro h
    cases hbytes : (macBytes ((InputStream.ofText valStr).rest.length + 1)).run
        (InputStream.ofText valStr) with
    | error e =>
      rw [hbytes] at h
      cases h
    | ok x =>
      obtain ⟨⟨valid, macAddr⟩, st₂⟩ := x
      rw [hbytes] at h
      dsimp only at h
      split at h
      . cases h
      . next hgood =>
        cases h
        rw [not_or, Bool.not_eq_false, Bool.not_eq_false] at hgood
        obtain ⟨heof, rfl⟩ := hgood
        exact macBytes_sound hst hfuel hbytes heof
  . rintro ⟨taken, rest, hrest, hmac, hunfinished⟩
    obtain ⟨st₂, hbytes, heof⟩ := macBytes_complete hst hfuel hrest hmac hunfinished
    rw [hbytes]
    dsimp only
    rw [if_neg (by simp [heof])]
    rfl

end

end Dlep
end Emane

import Emane.Dlep.Lemmas.ItemGrammar

/-!
This module contains which values come back from their text and which texts are read as a value.
-/

namespace Emane
namespace Dlep

open Scan
open InputStream (number wordText Settled unsigned Unfinished)

section

variable (ip4 : AddressText AddressV4) (ip6 : AddressText AddressV6) (garbage : UInt16) (valStr : Bytes)

def readString : Scan InvalidArgument DataItemValue := do
  let ss ← get
  set (⟨[], true, true⟩ : InputStream)
  return .div_string ss.rest

theorem recognises_readString
    : Recognises readString (DataItemValue.grammar ip4 ip6 .div_string) := by
  constructor
  . intro st v st' hst hrun
    cases hrun
    exact ⟨Or.inr ⟨rfl, rfl⟩, st.rest, (List.append_nil _).symm, rfl, rfl⟩
  . rintro st v text rest hst hrest ⟨rfl, rfl⟩
    rw [List.append_nil] at hrest
    refine ⟨⟨[], true, true⟩, ?_, rfl⟩
    rw [← hrest]
    rfl

def endpoint {α : Type} (ip : AddressText α) : Scan InvalidArgument (UInt8 × α) := do
  let field1 ← parseUint8 valStr
  checkFieldSeparator valStr
  let field2 ← parseIpAddr ip
  checkFieldSeparator valStr
  return (field1, field2)

theorem recognises_endpoint {α : Type} (ip : AddressText α)
    : Recognises (endpoint valStr ip) (endpointText ip) := by
  exact recognises_parseUint8.bind (fun _ => recognises_checkFieldSeparator.bind (fun _ =>
    (recognises_parseIpAddr ip).bind
      (fun _ => recognises_checkFieldSeparator.bind (fun _ => Recognises.pure _))))

def DataItemValueType.Plain : DataItemValueType → Prop
  | .div_dlepmac | .div_u8_ipv4_u16 | .div_u8_ipv6_u16 => False
  | _ => True

theorem exists_reader {ty : DataItemValueType} (hplain : ty.Plain)
    : ∃ r, DataItemValue.fromString ip4 ip6 garbage valStr ty = scan r valStr
        ∧ Recognises r (DataItemValue.grammar ip4 ip6 ty) := by
  have h8 : Recognises (parseUint8 valStr) uint8Text := recognises_parseUint8
  have hsep : Recognises (checkFieldSeparator valStr) separator := recognises_checkFieldSeparator
  have h4 := recognises_parseIpAddr ip4
  have h6 := recognises_parseIpAddr ip6
  cases ty with
  | blank => exact ⟨pure .blank, rfl, Recognises.pure _⟩
  | div_u8 => exact ⟨_, rfl, (recognises_parseUint 8 UInt8.ofNat).bind (fun _ => Recognises.pure _)⟩
  | div_u16 => exact ⟨_, rfl, (recognises_parseUint 16 UInt16.ofNat).bind (fun _ => Recognises.pure _)⟩
  | div_u32 => exact ⟨_, rfl, (recognises_parseUint 32 UInt32.ofNat).bind (fun _ => Recognises.pure _)⟩
  | div_u64 => exact ⟨_, rfl, (recognises_parseUint 64 UInt64.ofNat).bind (fun _ => Recognises.pure _)⟩
  | div_v_u8 => exact ⟨_, rfl, (recognises_parseVector 8 UInt8.ofNat).bind (fun _ => Recognises.pure _)⟩
  | div_a2_u16 =>
    exact ⟨_, rfl, (recognises_parseElement 16 UInt16.ofNat).bind (fun _ =>
      (recognises_parseElement 16 UInt16.ofNat).bind (fun _ => Recognises.pure _))⟩
  | div_a2_u64 =>
    exact ⟨_, rfl, (recognises_parseElement 64 UInt64.ofNat).bind (fun _ =>
      (recognises_parseElement 64 UInt64.ofNat).bind (fun _ => Recognises.pure _))⟩
  | div_string => exact ⟨readString, rfl, recognises_readString ip4 ip6⟩
  | div_dlepmac => exact hplain.elim
  | div_u8_string =>
    exact ⟨_, rfl,
      h8.bind (fun _ => hsep.bind (fun _ => recognises_word.bind (fun _ => Recognises.pure _)))⟩
  | div_u8_ipv4 =>
    exact ⟨_, rfl, h8.bind (fun _ => hsep.bind (fun _ => h4.bind (fun _ => Recognises.pure _)))⟩
  | div_ipv4_u8 =>
    exact ⟨_, rfl, h4.bind (fun _ => hsep.bind (fun _ => h8.bind (fun _ => Recognises.pure _)))⟩
  | div_u8_ipv6 =>
    exact ⟨_, rfl, h8.bind (fun _ => hsep.bind (fun _ => h6.bind (fun _ => Recognises.pure _)))⟩
  | div_ipv6_u8 =>
    exact ⟨_, rfl, h6.bind (fun _ => hsep.bind (fun _ => h8.bind (fun _ => Recognises.pure _)))⟩
  | div_u64_u8 =>
    exact ⟨_, rfl, (recognises_extract _ 10 (by decide) 64).bind (fun _ => hsep.bind (fun _ =>
      h8.bind (fun _ => Recognises.pure _)))⟩
  | div_u16_vu8 =>
    exact ⟨_, rfl, (recognises_extract _ 10 (by decide) 16).bind (fun _ => hsep.bind (fun _ =>
      (recognises_parseVector 8 UInt8.ofNat).bind (fun _ => Recognises.pure _)))⟩
  | div_v_extid =>
    exact ⟨_, rfl, (recognises_parseVector 32 UInt32.ofNat).bind (fun _ => Recognises.pure _)⟩
  | div_u8_ipv4_u16 => exact hplain.elim
  | div_u8_ipv6_u16 => exact hplain.elim
  | div_u8_ipv4_u8 =>
    exact ⟨_, rfl, h8.bind (fun _ => hsep.bind (fun _ => h4.bind (fun _ => hsep.bind (fun _ =>
      h8.bind (fun _ => Recognises.pure _)))))⟩
  | div_u8_ipv6_u8 =>
    exact ⟨_, rfl, h8.bind (fun _ => hsep.bind (fun _ => h6.bind (fun _ => hsep.bind (fun _ =>
      h8.bind (fun _ => Recognises.pure _)))))⟩

theorem scan_bind_pure {α β ε : Type} (r : Scan ε α) (f : α → β) (text : List UInt8)
    : scan (r >>= fun a => pure (f a)) text = (scan r text).map f := by
  change Except.map Prod.fst ((r >>= fun a => pure (f a)).run (InputStream.ofText text))
    = Except.map f (Except.map Prod.fst (r.run (InputStream.ofText text)))
  rw [StateT.run_bind]
  cases r.run (InputStream.ofText text) with
  | error e => rfl
  | ok x => rfl

theorem fromString_mac
    : DataItemValue.fromString ip4 ip6 garbage valStr .div_dlepmac
        = (scan (parseMac valStr) valStr).map DataItemValue.div_dlepmac := by
  exact scan_bind_pure _ _ _

theorem fromString_ipv4_u16
    : DataItemValue.fromString ip4 ip6 garbage valStr .div_u8_ipv4_u16
        = scan (endpoint valStr ip4 >>= fun x => readPort garbage >>= fun port =>
            pure (.div_u8_ipv4_u16 x.1 x.2 port)) valStr := by
  simp only [DataItemValue.fromString, endpoint, bind_assoc, pure_bind]

theorem fromString_ipv6_u16
    : DataItemValue.fromString ip4 ip6 garbage valStr .div_u8_ipv6_u16
        = scan (endpoint valStr ip6 >>= fun x => readPort garbage >>= fun port =>
            pure (.div_u8_ipv6_u16 x.1 x.2 port)) valStr := by
  simp only [DataItemValue.fromString, endpoint, bind_assoc, pure_bind]

theorem scan_port_iff {α : Type} (ip : AddressText α) (mk : UInt8 → α → UInt16 → DataItemValue)
    : (∃ v, scan (endpoint valStr ip >>= fun x => readPort garbage >>= fun port => pure
        (mk x.1 x.2 port)) valStr = .ok v)
        ↔ ∃ x taken rest, valStr = taken ++ rest ∧ endpointText ip x taken rest := by
  have hendpoint := recognises_endpoint valStr ip
  unfold scan StateT.run'
  constructor
  . rintro ⟨v, hok⟩
    cases hx : (endpoint valStr ip).run (InputStream.ofText valStr) with
    | error e =>
      have hrun : (endpoint valStr ip >>= fun x => readPort garbage >>= fun port => pure
        (mk x.1 x.2 port)).run
          (InputStream.ofText valStr) = .error e := by
        rw [StateT.run_bind, hx]
        rfl
      rw [show (endpoint valStr ip >>= _) (InputStream.ofText valStr) = _ from hrun] at hok
      cases hok
    | ok x =>
      obtain ⟨-, taken, hrest, htext⟩ := hendpoint.sound (Settled.ofText valStr) hx
      exact ⟨x.1, taken, x.2.rest, hrest, htext⟩
  . rintro ⟨x, taken, rest, hrest, htext⟩
    obtain ⟨st, hx, -⟩ := hendpoint.complete (Settled.ofText valStr) hrest htext
    refine ⟨mk x.1 x.2 (UInt16.ofNat (unsigned 10 16 garbage.toNat st).1), ?_⟩
    rw [show (endpoint valStr ip >>= _) (InputStream.ofText valStr) = _ from run_bind_of_ok hx]
    rfl

theorem scan_port_of_text {α : Type} {ip : AddressText α} {x : UInt8 × α} {port : UInt16}
    {taken text rest : Bytes}
    (mk : UInt8 → α → UInt16 → DataItemValue) (hsplit : valStr = taken ++ (text ++ rest))
    (hx : endpointText ip x taken (text ++ rest)) (hport : portText port text rest)
    : scan (endpoint valStr ip >>= fun x => readPort garbage >>= fun port => pure (mk x.1 x.2 port))
        valStr
        = .ok (mk x.1 x.2 port) := by
  have hendpoint := recognises_endpoint valStr ip
  obtain ⟨st, hrun, hrest⟩ := hendpoint.complete (Settled.ofText valStr) hsplit hx
  obtain ⟨hst, -⟩ := hendpoint.sound (Settled.ofText valStr) hrun
  obtain ⟨n, text₁, text₂, rfl, hnumber, rfl, rfl⟩ := hport
  rw [List.append_nil] at hrest
  have hunsigned := InputStream.unsigned_of_number garbage.toNat (by decide) hst hrest hnumber
  unfold scan StateT.run'
  rw [show (endpoint valStr ip >>= _) (InputStream.ofText valStr) = _ from run_bind_of_ok hrun]
  have hread : (readPort garbage).run st = .ok (UInt16.ofNat n, ⟨rest, rest.isEmpty, false⟩) := by
    have hmodify : (modifyGet (unsigned 10 16 garbage.toNat) : Scan InvalidArgument Nat).run st
        = .ok (n, ⟨rest, rest.isEmpty, false⟩) := congrArg Except.ok hunsigned
    unfold readPort
    rw [run_bind_of_ok hmodify]
    rfl
  rw [run_bind_of_ok hread]
  rfl

end

section

variable {ip4 : AddressText AddressV4} {ip6 : AddressText AddressV6} {garbage : UInt16}
  {valStr text rest : Bytes}
variable {ty : DataItemValueType} {v : DataItemValue}

theorem fromString_of_grammar (h : DataItemValue.grammar ip4 ip6 ty v text rest)
    : DataItemValue.fromString ip4 ip6 garbage (text ++ rest) ty = .ok v := by
  by_cases hplain : ty.Plain
  . obtain ⟨r, hr, hrecognises⟩ := exists_reader ip4 ip6 garbage (text ++ rest) hplain
    rw [hr]
    exact hrecognises.scan_eq_ok_iff.mpr ⟨text, rest, rfl, h⟩
  . cases ty with
    | div_dlepmac =>
      obtain ⟨mac, text₁, text₂, rfl, ⟨hmac, hend⟩, rfl, rfl⟩ := h
      subst hend
      have hscan : scan (parseMac (text₁ ++ [] ++ [])) (text₁ ++ [] ++ []) = .ok mac :=
        scan_parseMac_eq_ok_iff.mpr ⟨text₁, [], by simp, hmac, Unfinished.nil⟩
      rw [fromString_mac, hscan]
      rfl
    | div_u8_ipv4_u16 =>
      obtain ⟨⟨field1, field2⟩, text₁, text₂, rfl, hx, port, text₃, text₄, rfl, hport, rfl, rfl⟩ := h
      rw [List.append_nil] at hx ⊢
      rw [fromString_ipv4_u16, List.append_assoc]
      exact scan_port_of_text garbage _ _ rfl hx hport
    | div_u8_ipv6_u16 =>
      obtain ⟨⟨field1, field2⟩, text₁, text₂, rfl, hx, port, text₃, text₄, rfl, hport, rfl, rfl⟩ := h
      rw [List.append_nil] at hx ⊢
      rw [fromString_ipv6_u16, List.append_assoc]
      exact scan_port_of_text garbage _ _ rfl hx hport
    | _ => exact absurd trivial hplain

theorem macText_unique (mac mac' text : Bytes) (h : macText mac text []) (h' : macText mac' text [])
    : mac = mac' := by
  have hscan : scan (parseMac text) text = .ok mac :=
    scan_parseMac_eq_ok_iff.mpr ⟨text, [], by simp, h, Unfinished.nil⟩
  have hscan' : scan (parseMac text) text = .ok mac' :=
    scan_parseMac_eq_ok_iff.mpr ⟨text, [], by simp, h', Unfinished.nil⟩
  rw [hscan] at hscan'
  exact Except.ok.inj hscan'

theorem deterministic_byteText
    : (byteText.item colon).Deterministic := by
  have hreject := (recognises_extract () 16 (by decide) 32).reject (fun n => ¬ n < 2^8) () UInt8.ofNat
  rw [Grammar.filter_congr (fun n => Decidable.not_not)] at hreject
  exact (hreject.item colon).deterministic

theorem deterministic_endpointText {α : Type} (ip : AddressText α)
    : (endpointText ip).Deterministic := by
  exact (recognises_endpoint [] ip).deterministic

theorem deterministic_portText
    : portText.Deterministic := by
  have hextract := recognises_extract () 10 (by decide) 16
  exact (hextract.bind (fun n => Recognises.pure (UInt16.ofNat n))).deterministic

theorem deterministic_grammar (ip4 : AddressText AddressV4) (ip6 : AddressText AddressV6)
    (ty : DataItemValueType)
    : (DataItemValue.grammar ip4 ip6 ty).Deterministic := by
  by_cases hplain : ty.Plain
  . obtain ⟨r, -, hrecognises⟩ := exists_reader ip4 ip6 0 [] hplain
    exact hrecognises.deterministic
  . cases ty with
    | div_dlepmac =>
      exact (Grammar.Deterministic.toEnd macText_unique).bind (fun _ => Grammar.Deterministic.pure _)
    | div_u8_ipv4_u16 =>
      exact (deterministic_endpointText ip4).bind (fun _ => deterministic_portText.bind (fun _ =>
        Grammar.Deterministic.pure _))
    | div_u8_ipv6_u16 =>
      exact (deterministic_endpointText ip6).bind (fun _ => deterministic_portText.bind (fun _ =>
        Grammar.Deterministic.pure _))
    | _ => exact absurd trivial hplain

end

end Dlep
end Emane

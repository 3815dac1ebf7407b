import Emane.Dlep.Impl.DataItem
import Emane.Lib.InputStream

/-!
This module contains the text of the value of a data item: how the value is written, and how a
text is read back as a value of the type that the data item has.
-/

namespace Emane
namespace Dlep

open Scan

structure AddressText (α : Type) where
  toString : α → Bytes
  fromString : Bytes → Option α

structure InvalidArgument where
  what : Bytes
  deriving DecidableEq

def comma : UInt8 := 44

def slash : UInt8 := 47

def colon : UInt8 := 58

def semicolon : UInt8 := 59

def decimal (n : Nat) : Bytes :=
  Numeral.numeral 10 n

def commaSeparated (xs : List Nat) : Bytes :=
  [comma].intercalate (xs.map decimal)

def macToString (macAddr : Bytes) : Bytes :=
  [colon].intercalate (macAddr.map (fun b => Numeral.padded 2 16 b.toNat))

section

variable (ip4 : AddressText AddressV4) (ip6 : AddressText AddressV6)

def DataItemValue.valueToString : DataItemValue → Bytes
  | blank => []
  | div_u8 value => decimal value.toNat
  | div_u16 value => decimal value.toNat
  | div_u32 value => decimal value.toNat
  | div_u64 value => decimal value.toNat
  | div_v_u8 value => commaSeparated (value.map UInt8.toNat)
  | div_a2_u16 value0 value1 => commaSeparated [value0.toNat, value1.toNat]
  | div_a2_u64 value0 value1 => commaSeparated [value0.toNat, value1.toNat]
  | div_string value => value
  | div_dlepmac macAddr => macToString macAddr
  | div_u8_string field1 field2 => decimal field1.toNat ++ ([semicolon] ++ field2)
  | div_u8_ipv4 field1 field2 => decimal field1.toNat ++ ([semicolon] ++ ip4.toString field2)
  | div_ipv4_u8 field1 field2 => ip4.toString field1 ++ ([slash] ++ decimal field2.toNat)
  | div_u8_ipv6 field1 field2 => decimal field1.toNat ++ ([semicolon] ++ ip6.toString field2)
  | div_ipv6_u8 field1 field2 => ip6.toString field1 ++ ([slash] ++ decimal field2.toNat)
  | div_u64_u8 field1 field2 => decimal field1.toNat ++ ([semicolon] ++ decimal field2.toNat)
  | div_u16_vu8 field1 field2 =>
    decimal field1.toNat ++ ([semicolon] ++ commaSeparated (field2.map UInt8.toNat))
  | div_v_extid field1 => commaSeparated (field1.map UInt32.toNat)
  | div_u8_ipv4_u16 field1 field2 field3 =>
    decimal field1.toNat
      ++ ([semicolon] ++ (ip4.toString field2 ++ ([semicolon] ++ decimal field3.toNat)))
  | div_u8_ipv6_u16 field1 field2 field3 =>
    decimal field1.toNat
      ++ ([semicolon] ++ (ip6.toString field2 ++ ([semicolon] ++ decimal field3.toNat)))
  | div_u8_ipv4_u8 field1 field2 field3 =>
    decimal field1.toNat
      ++ ([semicolon] ++ (ip4.toString field2 ++ ([semicolon] ++ decimal field3.toNat)))
  | div_u8_ipv6_u8 field1 field2 field3 =>
    decimal field1.toNat
      ++ ([semicolon] ++ (ip6.toString field2 ++ ([semicolon] ++ decimal field3.toNat)))

end

def isFieldSeparator (c : UInt8) : Bool :=
  c = semicolon || c = slash

section

variable (valStr : Bytes)

def checkFieldSeparator : Scan InvalidArgument Unit := do
  let c ← modifyGet InputStream.get
  let ss ← get
  if c.any isFieldSeparator = false ∨ ss.fail then
    throw ⟨valStr⟩
  else
    return ()

def parseUint {β : Type} (bits : Nat) (ofNat : Nat → β) : Scan InvalidArgument β := do
  let u64 ← extract ⟨valStr⟩ 10 64
  if u64 % 2^bits ≠ u64 then
    throw ⟨valStr⟩
  else
    return ofNat u64

def parseVector {β : Type} (bits : Nat) (ofNat : Nat → β) : Scan InvalidArgument (List β) := do
  let ss ← get
  whileAvail
    (do
      let v ← parseUint valStr bits ofNat
      -- skip over the , between the numbers
      skip comma
      return v)
    ss.rest.length

def parseUint8 : Scan InvalidArgument UInt8 := do
  let ui ← extract ⟨valStr⟩ 10 32
  if ui > 255 then
    throw ⟨valStr⟩
  else
    return UInt8.ofNat ui

def parseElement {β : Type} (width : Nat) (ofNat : Nat → β) : Scan InvalidArgument β := do
  let ss ← get
  if ss.fail then
    throw ⟨valStr⟩
  else
    let n ← extract ⟨valStr⟩ 10 width
    skip comma
    return ofNat n

def macBytes : Nat → Scan InvalidArgument (Bool × Bytes)
  | 0 => return (true, [])
  | fuel + 1 => do
    let ui ← modifyGet (InputStream.unsigned 16 32 0)
    let ss ← get
    if ss.fail then
      return (true, [])
    else if ui > 255 then
      return (false, [])
    else
      -- skip over : between numbers
      skip colon
      let (valid, bytes) ← macBytes fuel
      return (valid, UInt8.ofNat ui :: bytes)

def parseMac : Scan InvalidArgument Bytes := do
  let ss ← get
  let (valid, macAddr) ← macBytes (ss.rest.length + 1)
  -- If we didn't parse all the way to the end of the string,
  -- there must have been non-numeric characters in the string.
  let ss ← get
  if ss.eof = false ∨ valid = false then
    throw ⟨valStr⟩
  else
    return macAddr

def collectIp : Nat → Bytes → Scan InvalidArgument Bytes
  | 0, ipStr => return ipStr
  | fuel + 1, ipStr => do
    let ss ← get
    if ss.fail then
      return ipStr
    else
      let next ← modifyGet InputStream.peek
      if next.any isFieldSeparator then
        return ipStr
      else
        let ch ← modifyGet InputStream.get
        let ss ← get
        if ss.eof then
          collectIp fuel ipStr
        else
          collectIp fuel (ipStr ++ ch.toList)

def parseIpAddr {α : Type} (ip : AddressText α) : Scan InvalidArgument α := do
  let ss ← get
  let ipStr ← collectIp (ss.rest.length + 1) []
  match ip.fromString ipStr with
  | some ipaddr => return ipaddr
  | none => throw ⟨ascii "invalid IP address " ++ ipStr⟩

def readPort (garbage : UInt16) : Scan InvalidArgument UInt16 := do
  let port ← modifyGet (InputStream.unsigned 10 16 garbage.toNat)
  return UInt16.ofNat port

end

section

variable (ip4 : AddressText AddressV4) (ip6 : AddressText AddressV6) (garbage : UInt16)

def DataItemValue.fromString (valStr : Bytes) : DataItemValueType → Except InvalidArgument DataItemValue
  | .blank => return blank
  | .div_u8 => scan (do return div_u8 (← parseUint valStr 8 UInt8.ofNat)) valStr
  | .div_u16 => scan (do return div_u16 (← parseUint valStr 16 UInt16.ofNat)) valStr
  | .div_u32 => scan (do return div_u32 (← parseUint valStr 32 UInt32.ofNat)) valStr
  | .div_u64 => scan (do return div_u64 (← parseUint valStr 64 UInt64.ofNat)) valStr
  | .div_v_u8 => scan (do return div_v_u8 (← parseVector valStr 8 UInt8.ofNat)) valStr
  | .div_a2_u16 =>
    scan (do
      let value0 ← parseElement valStr 16 UInt16.ofNat
      let value1 ← parseElement valStr 16 UInt16.ofNat
      return div_a2_u16 value0 value1) valStr
  | .div_a2_u64 =>
    scan (do
      let value0 ← parseElement valStr 64 UInt64.ofNat
      let value1 ← parseElement valStr 64 UInt64.ofNat
      return div_a2_u64 value0 value1) valStr
  | .div_string => return div_string valStr
  | .div_dlepmac => scan (do return div_dlepmac (← parseMac valStr)) valStr
  | .div_u8_string =>
    scan (do
      let field1 ← parseUint8 valStr
      checkFieldSeparator valStr
      -- Get the rest of the stream as one string
      let field2 ← modifyGet (InputStream.word [])
      return div_u8_string field1 field2) valStr
  | .div_u8_ipv4 =>
    scan (do
      let field1 ← parseUint8 valStr
      checkFieldSeparator valStr
      let field2 ← parseIpAddr ip4
      return div_u8_ipv4 field1 field2) valStr
  | .div_ipv4_u8 =>
    scan (do
      let field1 ← parseIpAddr ip4
      checkFieldSeparator valStr
      let field2 ← parseUint8 valStr
      return div_ipv4_u8 field1 field2) valStr
  | .div_u8_ipv6 =>
    scan (do
      let field1 ← parseUint8 valStr
      checkFieldSeparator valStr
      let field2 ← parseIpAddr ip6
      return div_u8_ipv6 field1 field2) valStr
  | .div_ipv6_u8 =>
    scan (do
      let field1 ← parseIpAddr ip6
      checkFieldSeparator valStr
      let field2 ← parseUint8 valStr
      return div_ipv6_u8 field1 field2) valStr
  | .div_u64_u8 =>
    scan (do
      let field1 ← extract ⟨valStr⟩ 10 64
      checkFieldSeparator valStr
      let field2 ← parseUint8 valStr
      return div_u64_u8 (UInt64.ofNat field1) field2) valStr
  | .div_u16_vu8 =>
    scan (do
      let field1 ← extract ⟨valStr⟩ 10 16
      checkFieldSeparator valStr
      let field2 ← parseVector valStr 8 UInt8.ofNat
      return div_u16_vu8 (UInt16.ofNat field1) field2) valStr
  | .div_v_extid => scan (do return div_v_extid (← parseVector valStr 32 UInt32.ofNat)) valStr
  | .div_u8_ipv4_u16 =>
    scan (do
      let field1 ← parseUint8 valStr
      checkFieldSeparator valStr
      let field2 ← parseIpAddr ip4
      checkFieldSeparator valStr
      let field3 ← readPort garbage
      return div_u8_ipv4_u16 field1 field2 field3) valStr
  | .div_u8_ipv6_u16 =>
    scan (do
      let field1 ← parseUint8 valStr
      checkFieldSeparator valStr
      let field2 ← parseIpAddr ip6
      checkFieldSeparator valStr
      let field3 ← readPort garbage
      return div_u8_ipv6_u16 field1 field2 field3) valStr
  | .div_u8_ipv4_u8 =>
    scan (do
      let field1 ← parseUint8 valStr
      checkFieldSeparator valStr
      let field2 ← parseIpAddr ip4
      checkFieldSeparator valStr
      let field3 ← parseUint8 valStr
      return div_u8_ipv4_u8 field1 field2 field3) valStr
  | .div_u8_ipv6_u8 =>
    scan (do
      let field1 ← parseUint8 valStr
      checkFieldSeparator valStr
      let field2 ← parseIpAddr ip6
      checkFieldSeparator valStr
      let field3 ← parseUint8 valStr
      return div_u8_ipv6_u8 field1 field2 field3) valStr

def DataItem.valueToString (di : DataItem) : Bytes :=
  di.value.valueToString ip4 ip6

def DataItem.fromString (di : DataItem) (valStr : Bytes) : Except InvalidArgument DataItem := do
  let value ← DataItemValue.fromString ip4 ip6 garbage valStr di.value.getType
  return { di with value := value }

end

end Dlep
end Emane

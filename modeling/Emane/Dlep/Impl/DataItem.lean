import Emane.Lib.Digits
import Emane.Lib.Reader

/-!
This module contains data items and their wire format: an id, the length of the value and the
value, in fields whose sizes are part of the protocol configuration. An integer type is given by
the number of its bytes.
-/

namespace Emane
namespace Dlep

abbrev Bytes := List UInt8

/--
How a call can fail: by an exception, or because it does something that has no defined meaning.
-/
inductive Error where
  | lengthError (what : String)
  | invalidArgument (what : String)
  | badDataItemId (what : String)
  | undefinedBehaviour
  deriving DecidableEq

def promotedBits (sizeof : Nat) : Nat :=
  max 32 (8 * sizeof)

def checkFits (sizeof fieldSize val : Nat) : Except Error Unit :=
  -- The mask starts as an `int` with all bits set. It is shifted in 32 bits and then widened with
  -- its sign.
  if sizeof > fieldSize then
    if 32 ≤ fieldSize * 8 then
      throw .undefinedBehaviour
    else
      let mask := 2^(8 * sizeof) - 2^(fieldSize * 8)
      if val &&& mask ≠ 0 then
        throw (.invalidArgument (toString val ++ " cannot fit in " ++ toString fieldSize ++ " bytes"))
      else
        return ()
  else
    return ()

def serializeSized (sizeof fieldSize val : Nat) : Except Error Bytes := do
  checkFits sizeof fieldSize val
  if promotedBits sizeof ≤ (fieldSize - 1) * 8 then
    throw .undefinedBehaviour
  else
    return BigEndian.digits fieldSize val

def serialize (sizeof value : Nat) : Bytes :=
  BigEndian.digits sizeof value

def endOfInput : Error :=
  .lengthError "reached end of input buffer"

def deserialize (sizeof : Nat) : Reader UInt8 Error Nat :=
  Reader.fold (BigEndian.shiftIn (8 * sizeof)) endOfInput sizeof 0

def deserializeSized (sizeof fieldSize : Nat) : Reader UInt8 Error Nat := do
  let val64 ← Reader.fold (BigEndian.shiftIn 64) endOfInput fieldSize 0
  let mask := 2^(8 * sizeof) - 1
  if val64 &&& mask ≠ val64 then
    throw (.invalidArgument (toString val64 ++ " cannot fit in " ++ toString sizeof ++ " bytes"))
  else
    return val64

abbrev DataItemIdType := UInt32
abbrev ExtensionIdType := UInt32

inductive DataItemValueType where
  | blank
  | div_u8
  | div_u16
  | div_u32
  | div_u64
  | div_v_u8
  | div_a2_u16
  | div_a2_u64
  | div_string
  | div_dlepmac
  | div_u8_string
  | div_u8_ipv4
  | div_ipv4_u8
  | div_u8_ipv6
  | div_ipv6_u8
  | div_u64_u8
  | div_u16_vu8
  | div_v_extid
  | div_u8_ipv4_u16
  | div_u8_ipv6_u16
  | div_u8_ipv4_u8
  | div_u8_ipv6_u8
  deriving DecidableEq

abbrev FieldSizeInBytes := {n : Nat // 1 ≤ n ∧ n ≤ 8}

def FieldSizeInBytes.two : FieldSizeInBytes :=
  ⟨2, by decide⟩

structure ProtocolConfig where
  dataItemLengthSize : FieldSizeInBytes
  dataItemIdSize : FieldSizeInBytes
  extensionIdSize : FieldSizeInBytes
  dataItemInfoMap : List (DataItemIdType × DataItemValueType)
  deriving DecidableEq

def ProtocolConfig.getDataItemValueType (cfg : ProtocolConfig) (id : DataItemIdType)
    : Except Error DataItemValueType :=
  match cfg.dataItemInfoMap.lookup id with
  | some valueType => return valueType
  | none => throw (.badDataItemId (toString id.toNat))

abbrev AddressV4 := {bytes : Bytes // bytes.length = 4}

structure AddressV6 where
  bytes : {bytes : Bytes // bytes.length = 16}
  scopeId : Nat
  deriving DecidableEq

inductive DataItemValue where
  | blank
  | div_u8 (value : UInt8)
  | div_u16 (value : UInt16)
  | div_u32 (value : UInt32)
  | div_u64 (value : UInt64)
  | div_v_u8 (value : List UInt8)
  | div_a2_u16 (value0 value1 : UInt16)
  | div_a2_u64 (value0 value1 : UInt64)
  | div_string (value : Bytes)
  | div_dlepmac (macAddr : Bytes)
  | div_u8_string (field1 : UInt8) (field2 : Bytes)
  | div_u8_ipv4 (field1 : UInt8) (field2 : AddressV4)
  | div_ipv4_u8 (field1 : AddressV4) (field2 : UInt8)
  | div_u8_ipv6 (field1 : UInt8) (field2 : AddressV6)
  | div_ipv6_u8 (field1 : AddressV6) (field2 : UInt8)
  | div_u64_u8 (field1 : UInt64) (field2 : UInt8)
  | div_u16_vu8 (field1 : UInt16) (field2 : List UInt8)
  | div_v_extid (field1 : List ExtensionIdType)
  | div_u8_ipv4_u16 (field1 : UInt8) (field2 : AddressV4) (field3 : UInt16)
  | div_u8_ipv6_u16 (field1 : UInt8) (field2 : AddressV6) (field3 : UInt16)
  | div_u8_ipv4_u8 (field1 : UInt8) (field2 : AddressV4) (field3 : UInt8)
  | div_u8_ipv6_u8 (field1 : UInt8) (field2 : AddressV6) (field3 : UInt8)
  deriving DecidableEq

def DataItemValue.getType : DataItemValue → DataItemValueType
  | blank => .blank
  | div_u8 _ => .div_u8
  | div_u16 _ => .div_u16
  | div_u32 _ => .div_u32
  | div_u64 _ => .div_u64
  | div_v_u8 _ => .div_v_u8
  | div_a2_u16 _ _ => .div_a2_u16
  | div_a2_u64 _ _ => .div_a2_u64
  | div_string _ => .div_string
  | div_dlepmac _ => .div_dlepmac
  | div_u8_string _ _ => .div_u8_string
  | div_u8_ipv4 _ _ => .div_u8_ipv4
  | div_ipv4_u8 _ _ => .div_ipv4_u8
  | div_u8_ipv6 _ _ => .div_u8_ipv6
  | div_ipv6_u8 _ _ => .div_ipv6_u8
  | div_u64_u8 _ _ => .div_u64_u8
  | div_u16_vu8 _ _ => .div_u16_vu8
  | div_v_extid _ => .div_v_extid
  | div_u8_ipv4_u16 _ _ _ => .div_u8_ipv4_u16
  | div_u8_ipv6_u16 _ _ _ => .div_u8_ipv6_u16
  | div_u8_ipv4_u8 _ _ _ => .div_u8_ipv4_u8
  | div_u8_ipv6_u8 _ _ _ => .div_u8_ipv6_u8

def serializeU8 (value : UInt8) : Bytes :=
  serialize 1 value.toNat

def serializeU16 (value : UInt16) : Bytes :=
  serialize 2 value.toNat

def serializeU32 (value : UInt32) : Bytes :=
  serialize 4 value.toNat

def serializeU64 (value : UInt64) : Bytes :=
  serialize 8 value.toNat

def serializePort (port : UInt16) : Bytes :=
  if port ≠ 0 then serializeU16 port else []

def DataItemValue.serialize (cfg : ProtocolConfig) : DataItemValue → Except Error Bytes
  | blank => return []
  | div_u8 value => return serializeU8 value
  | div_u16 value => return serializeU16 value
  | div_u32 value => return serializeU32 value
  | div_u64 value => return serializeU64 value
  | div_v_u8 value => return value.flatMap serializeU8
  | div_a2_u16 value0 value1 => return serializeU16 value0 ++ serializeU16 value1
  | div_a2_u64 value0 value1 => return serializeU64 value0 ++ serializeU64 value1
  | div_string value => return value
  | div_dlepmac macAddr => return macAddr
  | div_u8_string field1 field2 => return serializeU8 field1 ++ field2
  | div_u8_ipv4 field1 field2 => return [field1] ++ field2.val
  | div_ipv4_u8 field1 field2 => return field1.val ++ [field2]
  | div_u8_ipv6 field1 field2 => return [field1] ++ field2.bytes.val
  | div_ipv6_u8 field1 field2 => return field1.bytes.val ++ [field2]
  | div_u64_u8 field1 field2 => return serializeU64 field1 ++ serializeU8 field2
  | div_u16_vu8 field1 field2 => return serializeU16 field1 ++ field2
  | div_v_extid field1 => do
    let bufs ← field1.mapM (fun x => serializeSized 4 cfg.extensionIdSize x.toNat)
    return bufs.flatten
  | div_u8_ipv4_u16 field1 field2 field3 => return [field1] ++ field2.val ++ serializePort field3
  | div_u8_ipv6_u16 field1 field2 field3 => return [field1] ++ field2.bytes.val ++ serializePort field3
  | div_u8_ipv4_u8 field1 field2 field3 => return [field1] ++ field2.val ++ [field3]
  | div_u8_ipv6_u8 field1 field2 field3 => return [field1] ++ field2.bytes.val ++ [field3]

def deserializeU8 : Reader UInt8 Error UInt8 := do
  return UInt8.ofNat (← deserialize 1)

def deserializeU16 : Reader UInt8 Error UInt16 := do
  return UInt16.ofNat (← deserialize 2)

def deserializeU32 : Reader UInt8 Error UInt32 := do
  return UInt32.ofNat (← deserialize 4)

def deserializeU64 : Reader UInt8 Error UInt64 := do
  return UInt64.ofNat (← deserialize 8)

def deserializeIpv4 : Reader UInt8 Error AddressV4 :=
  Reader.take (.lengthError "data item has too few bytes for an IPv4 address") 4

def deserializeIpv6 : Reader UInt8 Error AddressV6 := do
  return ⟨← Reader.take (.lengthError "data item has too few bytes for an IPv6 address") 16, 0⟩

def deserializePort : Reader UInt8 Error UInt16 := do
  if (← get).isEmpty then
    return 0
  else
    deserializeU16

def deserializeWhile {α : Type} (r : Reader UInt8 Error α) : Reader UInt8 Error (List α) := do
  Reader.many r (← get).length

def DataItemValue.deserialize (cfg : ProtocolConfig)
    : DataItemValueType → Reader UInt8 Error DataItemValue
  | .blank => return blank
  | .div_u8 => return div_u8 (← deserializeU8)
  | .div_u16 => return div_u16 (← deserializeU16)
  | .div_u32 => return div_u32 (← deserializeU32)
  | .div_u64 => return div_u64 (← deserializeU64)
  | .div_v_u8 => return div_v_u8 (← deserializeWhile deserializeU8)
  | .div_a2_u16 => return div_a2_u16 (← deserializeU16) (← deserializeU16)
  | .div_a2_u64 => return div_a2_u64 (← deserializeU64) (← deserializeU64)
  | .div_string => return div_string (← Reader.rest)
  | .div_dlepmac => return div_dlepmac (← Reader.rest)
  | .div_u8_string => return div_u8_string (← deserializeU8) (← Reader.rest)
  | .div_u8_ipv4 => return div_u8_ipv4 (← deserializeU8) (← deserializeIpv4)
  | .div_ipv4_u8 => return div_ipv4_u8 (← deserializeIpv4) (← deserializeU8)
  | .div_u8_ipv6 => return div_u8_ipv6 (← deserializeU8) (← deserializeIpv6)
  | .div_ipv6_u8 => return div_ipv6_u8 (← deserializeIpv6) (← deserializeU8)
  | .div_u64_u8 => return div_u64_u8 (← deserializeU64) (← deserializeU8)
  -- the bytes are inserted but the iterator stays where it is
  | .div_u16_vu8 => return div_u16_vu8 (← deserializeU16) (← get)
  | .div_v_extid => do
    let ids ← deserializeWhile (deserializeSized 4 cfg.extensionIdSize)
    return div_v_extid (ids.map UInt32.ofNat)
  | .div_u8_ipv4_u16 => return div_u8_ipv4_u16 (← deserializeU8) (← deserializeIpv4) (← deserializePort)
  | .div_u8_ipv6_u16 => return div_u8_ipv6_u16 (← deserializeU8) (← deserializeIpv6) (← deserializePort)
  | .div_u8_ipv4_u8 => return div_u8_ipv4_u8 (← deserializeU8) (← deserializeIpv4) (← deserializeU8)
  | .div_u8_ipv6_u8 => return div_u8_ipv6_u8 (← deserializeU8) (← deserializeIpv6) (← deserializeU8)

structure DataItem where
  id : DataItemIdType
  value : DataItemValue
  deriving DecidableEq

def DataItem.serialize (cfg : ProtocolConfig) (di : DataItem) : Except Error Bytes := do
  let valbuf ← di.value.serialize cfg
  let idbuf ← serializeSized 4 cfg.dataItemIdSize di.id.toNat
  let lengthbuf ← serializeSized 8 cfg.dataItemLengthSize valbuf.length
  return idbuf ++ lengthbuf ++ valbuf

def DataItem.deserializeValue (cfg : ProtocolConfig) (id diLength : Nat) (bytes : Bytes)
    : Except Error (DataItem × Bytes) :=
  if diLength > bytes.length then
    throw (.lengthError
      ("data item=" ++ toString id ++ " length=" ++ toString diLength
        ++ " extends beyond the end of the message"))
  else do
    let diType ← cfg.getDataItemValueType (UInt32.ofNat id)
    let (value, unread) ← (DataItemValue.deserialize cfg diType).run (bytes.take diLength)
    -- deserialization should have consumed all of the bytes belonging to this data item
    if unread ≠ [] then
      throw (.lengthError
        ("data item=" ++ toString id ++ " length=" ++ toString diLength
          ++ " deserialized length was only " ++ toString unread.length))
    else
      return (⟨UInt32.ofNat id, value⟩, bytes.drop diLength)

def DataItem.deserialize (cfg : ProtocolConfig) : Reader UInt8 Error DataItem := do
  let id ← deserializeSized 4 cfg.dataItemIdSize
  let diLength ← deserializeSized 8 cfg.dataItemLengthSize
  fun bytes => deserializeValue cfg id diLength bytes

abbrev UnsignedType := {sizeof : Nat // sizeof = 1 ∨ sizeof = 2 ∨ sizeof = 4 ∨ sizeof = 8}

abbrev UnsignedType.Value (T : UnsignedType) := BitVec (8 * T.val)

namespace Target

variable {T : UnsignedType}

def mask (T : UnsignedType) (fieldSize : Nat) : T.Value :=
  (BitVec.allOnes 32 <<< (fieldSize * 8 % 32)).signExtend (8 * T.val)

def onebyte (val : T.Value) (i : Nat) : UInt8 :=
  UInt8.ofNat (val.setWidth (promotedBits T.val) >>> ((i - 1) * 8 % promotedBits T.val)).toNat

def serializeAt.go (val : T.Value) (appendBytes : Bool) : Nat → Bytes → Nat → Except Error Bytes
  | 0, buf, _ => .ok buf
  | i + 1, buf, it =>
    if appendBytes then
      go val appendBytes i (buf ++ [onebyte val (i + 1)]) it
    else if it = buf.length then
      .error (.lengthError "reached end of output buffer")
    else
      go val appendBytes i (buf.set it (onebyte val (i + 1))) (it + 1)

def serializeAt (val : T.Value) (fieldSize : Nat) (buf : Bytes) (it : Nat) : Except Error (Nat × Bytes) :=
  if T.val > fieldSize ∧ val &&& mask T fieldSize ≠ 0 then
    .error (.invalidArgument (toString val.toNat ++ " cannot fit in " ++ toString fieldSize ++ " bytes"))
  else
    (serializeAt.go val (it = buf.length) fieldSize buf it).map (fun buf => (fieldSize, buf))

def serialize (val : T.Value) (fieldSize : Nat) (buf : Bytes) : Except Error (Nat × Bytes) :=
  serializeAt val fieldSize buf buf.length

end Target
end Dlep
end Emane

import Emane.Dlep.Impl.ProtocolConfigImpl

/-!
This module contains the validation of a message that has been parsed: who may send it, how often
each data item occurs, and what the values of the data items are. An empty text stands for
success.
-/

namespace Emane
namespace Dlep

open ProtocolConfigImpl

def DataItemValueType.text : DataItemValueType → String
  | blank => "blank"
  | div_u8 => "u8"
  | div_u16 => "u16"
  | div_u32 => "u32"
  | div_u64 => "u64"
  | div_v_u8 => "v_u8"
  | div_a2_u16 => "a2_u16"
  | div_a2_u64 => "a2_u64"
  | div_string => "string"
  | div_dlepmac => "dlepmac"
  | div_u8_string => "u8_string"
  | div_u8_ipv4 => "u8_ipv4"
  | div_ipv4_u8 => "ipv4_u8"
  | div_u8_ipv6 => "u8_ipv6"
  | div_ipv6_u8 => "ipv6_u8"
  | div_u64_u8 => "u64_u8"
  | div_u16_vu8 => "u16_vu8"
  | div_v_extid => "v_extid"
  | div_u8_ipv4_u16 => "u8_ipv4_u16"
  | div_u8_ipv6_u16 => "u8_ipv6_u16"
  | div_u8_ipv4_u8 => "u8_ipv4_u8"
  | div_u8_ipv6_u8 => "u8_ipv6_u8"

namespace DataItemValue

def validateAddDrop (field : UInt8) : String :=
  if field > 1 then "add/drop is " ++ toString field.toNat ++ ", must be 0 or 1" else ""

def validateSubnetMask (field max : UInt8) : String :=
  if field > max
    then "subnet mask is " ++ toString field.toNat ++ ", must be <= " ++ toString max.toNat else ""

def validateStatus (cfg : ProtocolConfigImpl) (statusId : StatusCodeIdType) : String :=
  match cfg.getStatusCodeName statusId with
  | .ok _ => ""
  | .error _ => toString statusId.toNat ++ " is invalid"

def validate (cfg : ProtocolConfigImpl) (diInfo : ProtocolConfigImpl.DataItemInfo)
    : DataItemValue → String
  | div_u8_ipv4 field1 _ => validateAddDrop field1
  | div_u8_ipv6 field1 _ => validateAddDrop field1
  | div_u8 operand =>
    if diInfo.units = some .percentage then
      if operand > 100 then "is " ++ toString operand.toNat ++ ", must be <= 100" else ""
    else if diInfo.name = "Status" then
      validateStatus cfg (UInt32.ofNat operand.toNat)
    else
      ""
  | div_u8_string field1 _ =>
    if diInfo.name = "Status" then validateStatus cfg (UInt32.ofNat field1.toNat) else ""
  | div_ipv4_u8 _ field2 => validateSubnetMask field2 32
  | div_ipv6_u8 _ field2 => validateSubnetMask field2 128
  | div_u8_ipv4_u8 field1 _ field3 =>
    if validateAddDrop field1 ≠ "" then validateAddDrop field1 else validateSubnetMask field3 32
  | div_u8_ipv6_u8 field1 _ field3 =>
    if validateAddDrop field1 ≠ "" then validateAddDrop field1 else validateSubnetMask field3 128
  -- default method does no checking
  | _ => ""

end DataItemValue

def DataItem.validate (cfg : ProtocolConfigImpl) (di : DataItem) : Except ConfigError String := do
  let diName ← cfg.getDataItemName di.id
  let diInfo ← cfg.getDataItemInfo diName
  if diInfo.valueType ≠ di.value.getType then
    return diName ++ " type is " ++ di.value.getType.text ++ ", must be " ++ diInfo.valueType.text
  else
    let err := di.value.validate cfg diInfo
    return if err ≠ "" then diName ++ " " ++ err else err

namespace Wire
namespace ProtocolMessage

variable (cfg : ProtocolConfigImpl) (pm : ProtocolMessage)

def signalName : Except ConfigError String :=
  if pm.signalIdInitialized then
    if pm.isSignal then cfg.getSignalName pm.signalId else cfg.getMessageName pm.signalId
  else
    .error (.signalIdNotInitialized (toString pm.signalId.toNat))

def countOccurrences (dataItems : List DataItem) : SortedMap DataItemIdType UInt32 :=
  dataItems.foldl (fun diOccurrences di => diOccurrences.upsert di.id 1 (fun n => n + 1)) .empty

def occursError (occurs : Occurs) (diName : String) (actual : UInt32) : String :=
  match occurs with
  | .one => if actual ≠ 1
    then "exactly one of " ++ diName ++ " required, but got " ++ toString actual.toNat else ""
  | .oneOrMore => if actual < 1 then "at least one of " ++ diName ++ " required, but got none" else ""
  | .zeroOrOne =>
    if actual > 1 then
      "no more than one of " ++ diName ++ " required, but got " ++ toString actual.toNat
    else
      ""
  | .zeroOrMore => ""

def checkOccurrences : List DataItemForSignal → SortedMap DataItemIdType UInt32
    → Except ConfigError (String × SortedMap DataItemIdType UInt32)
  | [], diOccurrences => return ("", diOccurrences)
  | difs :: dataItems, diOccurrences => do
    let diName ← cfg.getDataItemName difs.id
    let err := occursError difs.occurs diName ((diOccurrences.find? difs.id).getD 0)
    if err ≠ "" then
      return (err, diOccurrences.erase difs.id)
    else
      checkOccurrences dataItems (diOccurrences.erase difs.id)

def unexpectedDataItems (diOccurrences : SortedMap DataItemIdType UInt32) : Except ConfigError String :=
  diOccurrences.toList.foldlM
    (fun err kvpair => do
      let diName ← cfg.getDataItemName kvpair.1
      return err ++ diName ++ "(" ++ toString kvpair.2.toNat ++ ") ")
    "unexpected data items: "

def validateOccurrences (siginfo : ProtocolConfigImpl.SignalInfo) : Except ConfigError String := do
  let (err, diOccurrences) ← checkOccurrences cfg siginfo.dataItems (countOccurrences pm.dataItems)
  if err = "" ∧ diOccurrences.toList ≠ [] then
    unexpectedDataItems cfg diOccurrences
  else
    return err

def validateSender (siginfo : ProtocolConfigImpl.SignalInfo) (modemSender : Bool) : String :=
  if (if modemSender then siginfo.flags.modemSends else siginfo.flags.routerSends) then
    ""
  else
    "cannot be sent by " ++ (if modemSender then "modem" else "router")

def validateDataItems : List DataItem → Except ConfigError String
  | [] => return ""
  | di :: dataItems => do
    let err ← di.validate cfg
    if err ≠ "" then return err else validateDataItems dataItems

def validate (modemSender : Bool) : Except ConfigError String := do
  let signalName ← pm.signalName cfg
  let siginfo ← cfg.getSignalInfo signalName
  let err := validateSender siginfo modemSender
  let err ← if err = "" then pm.validateOccurrences cfg siginfo else pure err
  let err ← if err = "" then validateDataItems cfg pm.dataItems else pure err
  return if err ≠ "" then signalName ++ " " ++ err else err

end ProtocolMessage
end Wire
end Dlep
end Emane

import Mathlib.Data.List.Lex
import Emane.Lib.SortedMap
import Emane.Dlep.Impl.Message

/-!
This module contains the information base: what is known about a peer and about its destinations.
-/

namespace Emane
namespace Dlep

instance instLinearOrderUInt8 : LinearOrder UInt8 :=
  SortedMap.linearOrderUInt8

instance instLinearOrderUInt32 : LinearOrder UInt32 where
  le_refl _ := UInt32.le_refl _
  le_trans _ _ _ := UInt32.le_trans
  lt_iff_le_not_ge _ _ := UInt32.lt_iff_le_and_ne.trans (by
    rw [and_congr_right_iff]
    intro hle
    exact ⟨fun hne hge => hne (UInt32.le_antisymm hle hge), fun hge heq => hge (heq ▸ UInt32.le_refl _)⟩)
  le_antisymm _ _ := UInt32.le_antisymm
  le_total _ _ := UInt32.le_total _ _
  toDecidableLE := inferInstance

namespace DataItem

def ipEqual (di other : DataItem) : Bool :=
  match di.value, other.value with
  | .div_u8_ipv4 _ field2, .div_u8_ipv4 _ field2' => field2 = field2'
  | .div_ipv4_u8 field1 _, .div_ipv4_u8 field1' _ => field1 = field1'
  | .div_u8_ipv6 _ field2, .div_u8_ipv6 _ field2' => field2 = field2'
  | .div_ipv6_u8 field1 _, .div_ipv6_u8 field1' _ => field1 = field1'
  | .div_u8_ipv4_u8 _ field2 field3, .div_u8_ipv4_u8 _ field2' field3' => field2 = field2'
    ∧ field3 = field3'
  | .div_u8_ipv6_u8 _ field2 field3, .div_u8_ipv6_u8 _ field2' field3' => field2 = field2'
    ∧ field3 = field3'
  | _, _ => false

def ipFlags (di : DataItem) : UInt8 :=
  match di.value with
  | .div_u8_ipv4 field1 _ => field1
  -- there is no explicit field for the flags, so it is always an add
  | .div_ipv4_u8 _ _ => 1
  | .div_u8_ipv6 field1 _ => field1
  | .div_ipv6_u8 _ _ => 1
  | .div_u8_ipv4_u8 field1 _ _ => field1
  | .div_u8_ipv6_u8 field1 _ _ => field1
  | _ => 0

def isAdd (di : DataItem) : Bool :=
  di.ipFlags &&& 1 ≠ 0

def findIpDataItem (di : DataItem) (searchDataItems : List DataItem) : Bool :=
  searchDataItems.any (fun other => di.ipEqual other)

end DataItem

def updateIpDataItems (ipDataItems : List DataItem) (newIpDataItem : DataItem) : List DataItem :=
  if ipDataItems.any (fun di => di.ipEqual newIpDataItem) then
    if newIpDataItem.isAdd then
      ipDataItems
    else
      ipDataItems.eraseP (fun di => di.ipEqual newIpDataItem)
  else if newIpDataItem.isAdd then
    ipDataItems ++ [newIpDataItem]
  else
    ipDataItems

structure Items where
  metricDataItems : SortedMap DataItemIdType DataItem
  ipDataItems : List DataItem

namespace Items

def empty : Items where
  metricDataItems := .empty
  ipDataItems := []

def updateOne (cfg : SessionConfig) (items : Items) (di : DataItem) : Items :=
  if cfg.isMetric di.id then
    { items with metricDataItems := items.metricDataItems.set di.id di }
  else if cfg.isIpaddr di.id then
    { items with ipDataItems := updateIpDataItems items.ipDataItems di }
  else
    items

def update (cfg : SessionConfig) (items : Items) (updates : List DataItem) : Items :=
  updates.foldl (fun items di => items.updateOne cfg di) items

def getAllDataItems (items : Items) : List DataItem :=
  items.metricDataItems.toList.map (fun e => e.2) ++ items.ipDataItems

end Items

structure DestinationData where
  items : Items
  usingCreditWindowing : Bool
  needsResponse : Option MessageName

namespace DestinationData

def create (cfg : SessionConfig) (initialDataItems : List DataItem) : DestinationData where
  items := Items.empty.update cfg initialDataItems
  usingCreditWindowing :=
    match cfg.dataItemId .creditGrant with
    | some creditId => initialDataItems.any (fun di => di.id = creditId)
    | none => false
  needsResponse := none

def update (cfg : SessionConfig) (ddp : DestinationData) (updates : List DataItem) : DestinationData :=
  { ddp with items := ddp.items.update cfg updates }

end DestinationData

abbrev PeerId := Nat

inductive IpOwner where
  | peer (peerId : Option PeerId)
  | destination (mac : DlepMac)
  deriving DecidableEq

structure PeerData where
  peerId : Option PeerId
  destinationData : SortedMap DlepMac DestinationData
  items : Items

namespace PeerData

def create (cfg : SessionConfig) (peerId : Option PeerId) (initialDataItems : List DataItem)
    : PeerData where
  peerId := peerId
  destinationData := .empty
  items := Items.empty.update cfg initialDataItems

def validDestination (pdp : PeerData) (mac : DlepMac) : Bool :=
  (pdp.destinationData.find? mac).isSome

def addDestination (cfg : SessionConfig) (pdp : PeerData) (mac : DlepMac)
    (initialDataItems : List DataItem)
    : Option PeerData :=
  match pdp.destinationData.find? mac with
  | some _ => none
  | none => some
    { pdp with destinationData := pdp.destinationData.set mac (.create cfg initialDataItems) }

def updateDestination (cfg : SessionConfig) (pdp : PeerData) (mac : DlepMac)
    (updates : List DataItem) : Option PeerData :=
  match pdp.destinationData.find? mac with
  | some ddp => some { pdp with destinationData := pdp.destinationData.set mac (ddp.update cfg updates) }
  | none => none

def removeDestination (pdp : PeerData) (mac : DlepMac) : Option PeerData :=
  match pdp.destinationData.find? mac with
  | some _ => some { pdp with destinationData := pdp.destinationData.erase mac }
  | none => none

def setNeedsResponse (pdp : PeerData) (mac : DlepMac) (responseName : Option MessageName) : PeerData :=
  match pdp.destinationData.find? mac with
  | some ddp => { pdp with destinationData :=
    pdp.destinationData.set mac { ddp with needsResponse := responseName } }
  | none => pdp

def needsResponse (pdp : PeerData) (mac : DlepMac) : Option MessageName :=
  (pdp.destinationData.find? mac).bind (fun ddp => ddp.needsResponse)

def getDestinations (pdp : PeerData) : List DlepMac :=
  pdp.destinationData.toList.map (fun e => e.1)

def updateAllDestinations (cfg : SessionConfig) (pdp : PeerData) (updates : List DataItem) : PeerData :=
  pdp.getDestinations.foldl (fun pdp mac => (pdp.updateDestination cfg mac updates).getD pdp) pdp

def updateDataItems (cfg : SessionConfig) (pdp : PeerData) (updates : List DataItem)
    : StatusName × PeerData :=
  if updates.any (fun di => cfg.isMetric di.id && (pdp.items.metricDataItems.find? di.id).isNone) then
    (.invalidMessage, pdp)
  else
    let destinationUpdates := updates.filter (fun di => cfg.isMetric di.id)
    let pdp := { pdp with items := pdp.items.update cfg updates }
    if destinationUpdates.isEmpty then
      (.success, pdp)
    else
      (.success, pdp.updateAllDestinations cfg destinationUpdates)

def findIpDataItem (pdp : PeerData) (di : DataItem) : Option IpOwner :=
  if di.findIpDataItem pdp.items.ipDataItems then
    some (.peer pdp.peerId)
  else
    (pdp.destinationData.toList.find? (fun e => di.findIpDataItem e.2.items.ipDataItems)).map
      (fun e => .destination e.1)

end PeerData
end Dlep
end Emane

import Emane.Dlep.Impl.Service

/-!
This module contains the destination advertisement: the table of other radios, the destinations
that come from it, and what the node puts into its own advertisement.
-/

namespace Emane
namespace Dlep

inductive IpKind where
  | ipv4Address
  | ipv4AttachedSubnet
  | ipv6Address
  | ipv6AttachedSubnet
  deriving DecidableEq

def IpKind.all : List IpKind :=
  [.ipv4Address, .ipv4AttachedSubnet, .ipv6Address, .ipv6AttachedSubnet]

structure AdvertConfig extends SessionConfig where
  ipDataItemId : IpKind → Option DataItemIdType
  enabled : destAdvertEnabled = true
  responds : ∀ name, name = .destinationUp ∨ name = .destinationDown
    ∨ (name = .destinationAnnounce ∧ (signalInfo name).isSome) →
    ((signalInfo name).bind (fun info => info.response)).isSome

structure DestinationAdvertisement where
  reportInterval : UInt32
  sequenceNumber : UInt32
  uptimeInSeconds : UInt64
  localId : Bytes
  destinations : List Bytes
  ipDataItems : IpKind → List Bytes

abbrev DlepMacAddrs := SortedMap DlepMac Unit

namespace DlepMacAddrs

def ofList (macs : List DlepMac) : DlepMacAddrs :=
  macs.foldl (fun addrs mac => addrs.insert mac ()) .empty

def toMacs (addrs : DlepMacAddrs) : List DlepMac :=
  addrs.toList.map (fun e => e.1)

def getDifference (a b : DlepMacAddrs) : List DlepMac :=
  a.toMacs.filter (fun mac => !b.contains mac)

end DlepMacAddrs

/--
The uptime is signed here.
-/
structure DestAdvertInfo where
  reportInterval : UInt32
  uptime : Int64
  sequenceNumber : UInt32
  rfId : DlepMac
  destinations : DlepMacAddrs
  ipDataItems : IpKind → List DataItem

def DestAdvertInfo.empty : DestAdvertInfo where
  reportInterval := 0
  uptime := 0
  sequenceNumber := 0
  rfId := []
  destinations := .empty
  ipDataItems := fun _ => []

inductive EntryState where
  | down
  | up
  deriving DecidableEq

structure DestAdvertDBEntry where
  timestamp : Int
  estate : EntryState
  placeholder : Bool
  info : DestAdvertInfo
  dataItems : List DataItem

inductive AdvertFault where
  | dataItem (e : Error)
  | badDataItemName (kind : IpKind)
  | session (fault : Fault)

structure DestAdvert where
  dlep : Node
  destAdvertDb : SortedMap DlepMac DestAdvertDBEntry

namespace DestAdvert

def init (localPdp : PeerData) : DestAdvert where
  dlep := .init localPdp
  destAdvertDb := .empty

section

variable (cfg : AdvertConfig) (env : Env)

def doCopyStrToIpdi (kind : IpKind) (str : Bytes) : Except AdvertFault DataItem :=
  match cfg.ipDataItemId kind with
  | none => .error (.badDataItemName kind)
  | some _ =>
    match (DataItem.deserialize cfg.toProtocolConfig).run str with
    | .ok (di, _) => .ok di
    | .error e => .error (.dataItem e)

def unbuildDestinationAdvert (da : DestinationAdvertisement) : Except AdvertFault DestAdvertInfo := do
  let ipv4 ← (da.ipDataItems .ipv4Address).mapM (doCopyStrToIpdi cfg .ipv4Address)
  let ipv4Sn ← (da.ipDataItems .ipv4AttachedSubnet).mapM (doCopyStrToIpdi cfg .ipv4AttachedSubnet)
  let ipv6 ← (da.ipDataItems .ipv6Address).mapM (doCopyStrToIpdi cfg .ipv6Address)
  let ipv6Sn ← (da.ipDataItems .ipv6AttachedSubnet).mapM (doCopyStrToIpdi cfg .ipv6AttachedSubnet)
  return {
    reportInterval := da.reportInterval
    uptime := da.uptimeInSeconds.toInt64
    sequenceNumber := da.sequenceNumber
    rfId := da.localId
    destinations := .ofList da.destinations
    ipDataItems := fun kind =>
      match kind with
      | .ipv4Address => ipv4
      | .ipv4AttachedSubnet => ipv4Sn
      | .ipv6Address => ipv6
      | .ipv6AttachedSubnet => ipv6Sn
  }

def addDestinations (macs : List DlepMac) (dataItems : List DataItem) (dlep : Node) : Except Fault Node :=
  macs.foldlM (fun dlep mac => (dlep.addDestination cfg.toSessionConfig env mac dataItems).map
    (fun res => res.2)) dlep

def removeDestinations (macs : List DlepMac) (dlep : Node) : Except Fault Node :=
  macs.foldlM (fun dlep mac => (dlep.removeDestination cfg.toSessionConfig env mac).map
    (fun res => res.2)) dlep

def updateIpParameters (dataItems ipdis : List DataItem) : List DataItem :=
  let ipdisAdd := ipdis.filter (fun ipdi => decide (ipdi.ipFlags = 1) && !dataItems.contains ipdi)
  let ipdisRemove := ipdis.flatMap (fun ipdi =>
    if ipdi.ipFlags = 1 then [] else dataItems.filter (fun di => ipdi.ipEqual di))
  ipdisRemove.foldl (fun dataItems ipdir => dataItems.filter (fun di => di ≠ ipdir))
    (dataItems ++ ipdisAdd)

def updateEntry (info : DestAdvertInfo) (entry : DestAdvertDBEntry) : DestAdvertDBEntry :=
  { entry with
    timestamp := env.now
    info := info
    dataItems := IpKind.all.foldl
      (fun dataItems kind => updateIpParameters dataItems (info.ipDataItems kind)) entry.dataItems }

def newEntry (info : DestAdvertInfo) : DestAdvertDBEntry where
  timestamp := env.now
  estate := .down
  placeholder := false
  info := info
  dataItems := IpKind.all.flatMap info.ipDataItems

def handleAdvert (info : DestAdvertInfo) (d : DestAdvert) : Except Fault DestAdvert :=
  match d.destAdvertDb.find? info.rfId with
  | none => .ok { d with destAdvertDb := d.destAdvertDb.set info.rfId (newEntry env info) }
  | some entry => do
    let dlep ←
      if entry.estate = .up then do
        let dlep ← addDestinations cfg env (info.destinations.getDifference entry.info.destinations)
          entry.dataItems d.dlep
        removeDestinations cfg env (entry.info.destinations.getDifference info.destinations) dlep
      else
        pure d.dlep
    return { dlep := dlep, destAdvertDb := d.destAdvertDb.set info.rfId (updateEntry env info entry) }

def handleMessage (parse : Bytes → Option DestinationAdvertisement) (msg : Bytes) (d : DestAdvert)
    : Except AdvertFault DestAdvert :=
  if msg.length = 0 then
    .ok d
  else
    match parse msg with
    | none => .ok d
    | some da => do
      let info ← unbuildDestinationAdvert cfg da
      (handleAdvert cfg env info d).mapError .session

def findAdvert (mac : DlepMac) (d : DestAdvert) : Advert :=
  match d.destAdvertDb.find? mac with
  | none => .notFound
  | some entry =>
    match entry.estate with
    | .up => .up entry.info.destinations.toMacs entry.dataItems
    | .down => .down entry.info.destinations.toMacs

def modifyEntry (mac : DlepMac) (f : DestAdvertDBEntry → DestAdvertDBEntry) (d : DestAdvert)
    : DestAdvert :=
  match d.destAdvertDb.find? mac with
  | none => d
  | some entry => { d with destAdvertDb := d.destAdvertDb.set mac (f entry) }

def isIpDataItem (di : DataItem) : Bool :=
  IpKind.all.any (fun kind => cfg.ipDataItemId kind = some di.id)

def updateAdvertEntryDataItems (mac : DlepMac) (dataItems : List DataItem) (d : DestAdvert)
    : DestAdvert :=
  d.modifyEntry mac (fun entry =>
    { entry with
      dataItems := dataItems.filter (fun di => !isIpDataItem cfg di) ++ entry.dataItems.filter
        (fun di => isIpDataItem cfg di) })

def updateAdvertEntryState (mac : DlepMac) (newstate : EntryState) (d : DestAdvert) : DestAdvert :=
  d.modifyEntry mac (fun entry => { entry with estate := newstate })

def placeholderEntry (dataItems : List DataItem) : DestAdvertDBEntry where
  timestamp := env.now
  estate := .up
  placeholder := true
  info := .empty
  dataItems := dataItems

def destinationUp (mac : DlepMac) (dataItems : List DataItem) (d : DestAdvert)
    : Except Fault (ReturnStatus × DestAdvert) := do
  let d := d.updateAdvertEntryDataItems cfg mac dataItems
  let (rs, dlep) ← d.dlep.destinationUp cfg.toSessionConfig env mac dataItems (d.findAdvert mac)
  match d.destAdvertDb.find? mac with
  | some _ => return (rs, updateAdvertEntryState mac .up { d with dlep := dlep })
  | none => return (rs,
    { dlep := dlep, destAdvertDb := d.destAdvertDb.set mac (placeholderEntry env dataItems) })

def destinationUpdate (mac : DlepMac) (dataItems : List DataItem) (d : DestAdvert)
    : Except Fault (ReturnStatus × DestAdvert) := do
  let d := d.updateAdvertEntryDataItems cfg mac dataItems
  let (rs, dlep) ← d.dlep.destinationUpdate cfg.toSessionConfig env mac dataItems (d.findAdvert mac)
  return (rs, { d with dlep := dlep })

def destinationDown (mac : DlepMac) (d : DestAdvert) : Except Fault (ReturnStatus × DestAdvert) := do
  let (rs, dlep) ← d.dlep.destinationDown cfg.toSessionConfig env mac (d.findAdvert mac)
  return (rs, updateAdvertEntryState mac .down { d with dlep := dlep })

inductive Fate where
  | removedAsPlaceholder
  | expired
  | kept
  deriving DecidableEq

def fate (holdInterval expireCount : UInt32) (entry : DestAdvertDBEntry) : Fate :=
  -- the product has 32 bits, the age has 64 and a sign
  let entryAge : Int := env.now - entry.timestamp
  if holdInterval > 0 ∧ entry.placeholder = true ∧ entry.estate = .up ∧ entryAge ≥ holdInterval.toNat then
    .removedAsPlaceholder
  else if expireCount > 0 ∧ entryAge ≥ (expireCount * entry.info.reportInterval).toNat then
    .expired
  else
    .kept

def purgeEntry (holdInterval expireCount : UInt32) (d : DestAdvert) (e : DlepMac × DestAdvertDBEntry)
    : Except Fault DestAdvert :=
  match fate env holdInterval expireCount e.2 with
  | .removedAsPlaceholder => .ok { d with destAdvertDb := d.destAdvertDb.erase e.1 }
  | .expired => do
    let dlep ← if e.2.estate = .up
      then removeDestinations cfg env e.2.info.destinations.toMacs d.dlep else pure d.dlep
    return { dlep := dlep, destAdvertDb := d.destAdvertDb.erase e.1 }
  | .kept => .ok d

def handlePurgeAdvertTimeout (aborted : Bool) (holdInterval
    expireCount : UInt32) (d : DestAdvert) : Except Fault DestAdvert :=
  if aborted then
    .ok d
  else
    d.destAdvertDb.toList.foldlM (purgeEntry cfg env holdInterval expireCount) d

end

inductive Event where
  | message (msg : Bytes)
  | destinationUp (mac : DlepMac) (dataItems : List DataItem)
  | destinationUpdate (mac : DlepMac) (dataItems : List DataItem)
  | destinationDown (mac : DlepMac)
  | purgeAdvertTimeout (aborted : Bool) (holdInterval expireCount : UInt32)
  | node (event : Node.Event)

def Event.ofNode : Node.Event → Bool
  | .destinationUp _ _ _ | .destinationUpdate _ _ _ | .destinationDown _ _ => false
  | _ => true

def step (cfg : AdvertConfig) (parse : Bytes → Option DestinationAdvertisement) (d : DestAdvert)
    (e : Env × Event)
    : Option DestAdvert :=
  match e.2 with
  | .message msg => (d.handleMessage cfg e.1 parse msg).toOption
  | .destinationUp mac dataItems => (d.destinationUp cfg e.1 mac dataItems).toOption.map
    (fun res => res.2)
  | .destinationUpdate mac dataItems => (d.destinationUpdate cfg e.1 mac
    dataItems).toOption.map (fun res => res.2)
  | .destinationDown mac => (d.destinationDown cfg e.1 mac).toOption.map (fun res => res.2)
  | .purgeAdvertTimeout aborted holdInterval expireCount =>
    (d.handlePurgeAdvertTimeout cfg e.1 aborted holdInterval expireCount).toOption
  | .node event =>
    if Event.ofNode event then
      (d.dlep.step cfg.toSessionConfig (e.1, event)).map (fun dlep => { d with dlep := dlep })
    else
      none

end DestAdvert

structure OwnAdvert where
  destinations : DlepMacAddrs
  localPeerDataItems : IpKind → List DataItem

namespace OwnAdvert

def init : OwnAdvert where
  destinations := .empty
  localPeerDataItems := fun _ => []

def addDestination (mac : DlepMac) (own : OwnAdvert) : OwnAdvert :=
  { own with destinations := own.destinations.insert mac () }

def clearDestinations (own : OwnAdvert) : OwnAdvert :=
  { own with destinations := .empty }

def selfDataItems (cfg : AdvertConfig) (di : DataItem) : Option IpKind :=
  IpKind.all.find? (fun kind => cfg.ipDataItemId kind = some di.id)

def replaceDataitem (di : DataItem) (dataItems : List DataItem) : List DataItem :=
  let ipdisRemove := dataItems.filter (fun diRemove => diRemove.ipEqual di)
  ipdisRemove.foldl (fun dataItems diRemove => dataItems.filter (fun di => di ≠ diRemove))
    dataItems ++ [di]

def addDataitem (cfg : AdvertConfig) (di : DataItem) (own : OwnAdvert) : Option OwnAdvert :=
  -- a data item with another name has no list, the pointer that is used is null
  (selfDataItems cfg di).map (fun kind =>
    { own with
      localPeerDataItems :=
        fun kind' => if kind' = kind then replaceDataitem di (own.localPeerDataItems kind)
          else own.localPeerDataItems kind' })

def perform (cfg : AdvertConfig) (own : OwnAdvert) : Call → Option OwnAdvert
  | .advertAddDestination mac => some (own.addDestination mac)
  | .advertAddDataitem di => own.addDataitem cfg di
  | .advertClearDestinations => some own.clearDestinations
  | _ => some own

end OwnAdvert

inductive OwnAdvertFault where
  | session (fault : Fault)
  | nullDataItems

namespace Node

def ownAdvert (cfg : AdvertConfig) (d : Node) : Option OwnAdvert :=
  -- What the calls up to now have made of the advertisement. There is no result if one of them
  -- used the null pointer.
  d.calls.foldlM (OwnAdvert.perform cfg) .init

def handleAdvertising (cfg : AdvertConfig) (d : Node) (env : Env) (event : Event)
    : Except OwnAdvertFault Node :=
  match handle cfg.toSessionConfig d env event with
  | .error fault => .error (.session fault)
  | .ok d' => if (d'.ownAdvert cfg).isSome then .ok d' else .error .nullDataItems

def stepAdvertising (cfg : AdvertConfig) (d : Node) (e : Env × Event) : Option Node :=
  (handleAdvertising cfg d e.1 e.2).toOption

end Node
end Dlep
end Emane

import Mathlib.Algebra.Order.Ring.Unbundled.Rat
import Emane.Lib.SortedMap
import Emane.Packet.Impl.Packet

/-!
This module contains the neighbor manager: which nodes are heard, which ones are known from the
answers of a neighbor, and what the neighbors did to the channel in the last interval.
-/

namespace Emane
namespace Ieee80211abg

abbrev TimePoint := Int
abbrev Microseconds := Int

class FloatingPoint (F : Type u) extends Zero F, One F, Add F, Sub F, Mul F, Div F, NatCast F,
    IntCast F, LT F, LE F where
  decidableLT : DecidableLT F
  decidableLE : DecidableLE F
  round : F → F
  -- towards zero
  truncate : F → Int

attribute [reducible, instance] FloatingPoint.decidableLT FloatingPoint.decidableLE

def MSG_TYPE_BROADCAST_DATA : UInt8 := 0x01
def MSG_TYPE_UNICAST_DATA : UInt8 := 0x02
def MSG_TYPE_UNICAST_RTS_CTS_DATA : UInt8 := 0x04
def MSG_TYPE_UNICAST_CTS_CTRL : UInt8 := 0x08

def MSG_TYPE_MASK_BROADCAST : UInt8 := 0x01
def MSG_TYPE_MASK_UNICAST : UInt8 := 0x02
def MSG_TYPE_MASK_ALL_DATA : UInt8 := 0x07

abbrev NbrSet := SortedMap NEMId Unit

structure Utilization (F : Type u) where
  totalUtilizationMicroseconds : Microseconds
  totalNumPackets : Nat
  totalRxPowerMilliWatts : F
  counted : totalNumPackets = 0 → totalUtilizationMicroseconds = 0

namespace Utilization

variable {F : Type u} [Zero F] [Add F]

def zero : Utilization F where
  totalUtilizationMicroseconds := 0
  totalNumPackets := 0
  totalRxPowerMilliWatts := 0
  counted := by simp

def update (u : Utilization F) (utilizationMicroseconds : Microseconds) (rxPowerMilliWatts : F)
    : Utilization F where
  totalUtilizationMicroseconds := u.totalUtilizationMicroseconds + utilizationMicroseconds
  totalNumPackets := u.totalNumPackets + 1
  totalRxPowerMilliWatts := u.totalRxPowerMilliWatts + rxPowerMilliWatts
  counted := by simp

end Utilization

scoped instance instLinearOrderUInt8 : LinearOrder UInt8 :=
  SortedMap.linearOrderUInt8

abbrev UtilizationTypeMap (F : Type u) := SortedMap UInt8 (Utilization F)

def UtilizationTypeMap.initial {F : Type u} [Zero F] : UtilizationTypeMap F :=
  ((((SortedMap.empty.insert MSG_TYPE_BROADCAST_DATA .zero).insert MSG_TYPE_UNICAST_DATA .zero).insert
    MSG_TYPE_UNICAST_RTS_CTS_DATA .zero).insert MSG_TYPE_UNICAST_CTS_CTRL .zero)

structure NeighborEntry (F : Type u) where
  prevUtilizationTypeMap : UtilizationTypeMap F
  currUtilizationTypeMap : UtilizationTypeMap F
  lastActivityTime : TimePoint
  oneHopNbrSet : NbrSet
  commonNbrSet : NbrSet
  hiddenNbrSet : NbrSet
  estimatedNumCommonNeighbors : F
  hiddenChannelActivity : F
  averageHiddenRxPowerMilliWatts : F
  averageCommonRxPowerMilliWatts : F

namespace NeighborEntry

variable {F : Type u} [FloatingPoint F]

def create : NeighborEntry F where
  prevUtilizationTypeMap := .initial
  currUtilizationTypeMap := .initial
  lastActivityTime := 0
  oneHopNbrSet := .empty
  commonNbrSet := .empty
  hiddenNbrSet := .empty
  estimatedNumCommonNeighbors := 0
  hiddenChannelActivity := 0
  averageHiddenRxPowerMilliWatts := 0
  averageCommonRxPowerMilliWatts := 0

def masked (n : NeighborEntry F) (msgTypeMask : UInt8) : List (Utilization F) :=
  (n.prevUtilizationTypeMap.toList.filter (fun iter => iter.1 &&& msgTypeMask ≠ 0)).map
    (fun iter => iter.2)

def getUtilizationMicroseconds (n : NeighborEntry F) (msgTypeMask : UInt8) : Microseconds :=
  (n.masked msgTypeMask).foldl (fun result u => result + u.totalUtilizationMicroseconds) 0

def getNumberOfPackets (n : NeighborEntry F) (msgTypeMask : UInt8) : Nat :=
  (n.masked msgTypeMask).foldl (fun result u => result + u.totalNumPackets) 0

def getRxPowerMilliWatts (n : NeighborEntry F) (msgTypeMask : UInt8) : F :=
  (n.masked msgTypeMask).foldl (fun result u => result + u.totalRxPowerMilliWatts) 0

def storeUtilization (n : NeighborEntry F) : NeighborEntry F :=
  { n with
    prevUtilizationTypeMap := n.currUtilizationTypeMap
    currUtilizationTypeMap :=
      n.currUtilizationTypeMap.toList.foldl
        (fun map iter => map.set iter.1 .zero) n.currUtilizationTypeMap }

def updateChannelActivity (n : NeighborEntry F) (bandWidthMicroseconds : Microseconds)
    (type : UInt8) (activityTime : TimePoint)
    (rxPowerMilliWatts : F)
    : NeighborEntry F :=
  { n with
    currUtilizationTypeMap :=
      n.currUtilizationTypeMap.upsert type
        (Utilization.zero.update bandWidthMicroseconds rxPowerMilliWatts)
        (fun u => u.update bandWidthMicroseconds rxPowerMilliWatts)
    lastActivityTime := activityTime }

def setOneHopNeighbors (n : NeighborEntry F) (nbrs : NbrSet) : NeighborEntry F :=
  { n with oneHopNbrSet := nbrs }

end NeighborEntry

structure Neighbor2HopEntry where
  lastActivityTime : TimePoint
  totalUtilizationMicroseconds : Microseconds
  totalNumPackets : Nat
  deriving DecidableEq

namespace Neighbor2HopEntry

def create : Neighbor2HopEntry where
  lastActivityTime := 0
  totalUtilizationMicroseconds := 0
  totalNumPackets := 0

def resetUtilization (n : Neighbor2HopEntry) : Neighbor2HopEntry :=
  { n with totalUtilizationMicroseconds := 0, totalNumPackets := 0 }

def updateChannelActivity (n : Neighbor2HopEntry) (duration : Microseconds)
    (activityTime : TimePoint) : Neighbor2HopEntry where
  lastActivityTime := activityTime
  totalUtilizationMicroseconds := n.totalUtilizationMicroseconds + duration
  totalNumPackets := n.totalNumPackets + 1

end Neighbor2HopEntry

scoped instance FloatingPoint.instRat : FloatingPoint ℚ where
  decidableLT := inferInstance
  decidableLE := inferInstance
  round x := if x < 0 then -((-x + 1 / 2).floor : ℚ) else ((x + 1 / 2).floor : ℚ)
  truncate x := x.num.tdiv x.den

structure OneHopNeighborsMessage where
  eventSource : UInt32
  neighbors : List UInt32
  deriving DecidableEq

structure OneHopNeighborsEvent where
  eventSource : NEMId
  nbrSet : NbrSet
  deriving DecidableEq

def OneHopNeighborsEvent.ofMessage (msg : OneHopNeighborsMessage) : OneHopNeighborsEvent where
  eventSource := msg.eventSource.toUInt16
  nbrSet := msg.neighbors.foldl (fun neighbors iter => neighbors.insert iter.toUInt16 ()) .empty

abbrev StatisticTable := SortedMap NEMId NEMId

def StatisticTable.addRow (t : StatisticTable) (key : NEMId) : Option StatisticTable :=
  if t.contains key then none else some (t.insert key key)

abbrev NbrUtilizationMap := SortedMap NEMId Microseconds
abbrev ProbabilityPairMap (F : Type) := SortedMap NEMId (F × F)
abbrev ProbabilityPairMapMap (F : Type) := SortedMap NEMId (ProbabilityPairMap F)
abbrev RxPowerMap (F : Type) := SortedMap NEMId F

structure Counters (F : Type) where
  localNodeTx : F
  totalOneHopNumPackets : Nat
  totalTwoHopNumPackets : Nat
  sumCommonPackets : Nat
  sumHiddenPackets : Nat
  numTotalActiveOneHopNeighbors : Nat
  totalRxPowerMilliWatts : F
  estimatedNumOneHopNeighbors : F
  estimatedNumTwoHopNeighbors : F
  averageRxPowerPerMessageMilliWatts : F
  hiddenRxPowerMilliWatts : F
  commonRxPowerMilliWatts : F
  averageMessageDurationMicroseconds : Microseconds
  totalOneHopUtilizationMicroseconds : Microseconds
  totalTwoHopUtilizationMicroseconds : Microseconds
  averageUtilizationPerOneHopNbrMicroseconds : Microseconds
  averageUtilizationPerTwoHopNbrMicroseconds : Microseconds
  utilizationThisNEMMicroseconds : Microseconds
  oneHopUtilizationMap : NbrUtilizationMap
  twoHopUtilizationMap : NbrUtilizationMap

structure NeighborManager (F : Type) where
  id : NEMId
  nbrTimeOutMicroseconds : Microseconds
  lastResetTime : TimePoint
  oneHopNbrMap : SortedMap NEMId (NeighborEntry F)
  twoHopNbrMap : SortedMap NEMId Neighbor2HopEntry
  cachedOneHopNbrSetMap : SortedMap NEMId NbrSet
  statisticOneHopNbrTable : StatisticTable
  statisticTwoHopNbrTable : StatisticTable
  counters : Counters F
  commonProbabilityMapMap : ProbabilityPairMapMap F
  hiddenProbabilityMapMap : ProbabilityPairMapMap F
  commonNbrAvgRxPowerMwMap : RxPowerMap F
  hiddenNbrAvgRxPowerMwMap : RxPowerMap F
  sentEvents : List OneHopNeighborsEvent

section

variable {F : Type} [FloatingPoint F]

def Counters.reset : Counters F where
  localNodeTx := 0
  totalOneHopNumPackets := 0
  totalTwoHopNumPackets := 0
  sumCommonPackets := 0
  sumHiddenPackets := 0
  numTotalActiveOneHopNeighbors := 0
  totalRxPowerMilliWatts := 0
  estimatedNumOneHopNeighbors := 0
  estimatedNumTwoHopNeighbors := 0
  averageRxPowerPerMessageMilliWatts := 0
  hiddenRxPowerMilliWatts := 0
  commonRxPowerMilliWatts := 0
  averageMessageDurationMicroseconds := 0
  totalOneHopUtilizationMicroseconds := 0
  totalTwoHopUtilizationMicroseconds := 0
  averageUtilizationPerOneHopNbrMicroseconds := 0
  averageUtilizationPerTwoHopNbrMicroseconds := 0
  utilizationThisNEMMicroseconds := 0
  oneHopUtilizationMap := .empty
  twoHopUtilizationMap := .empty

def USEC_PER_SEC : F := ((1000000 : Nat) : F)

def toSeconds (d : Microseconds) : F :=
  (d : F) / USEC_PER_SEC

def ofSeconds (s : F) : Microseconds :=
  FloatingPoint.truncate (s * USEC_PER_SEC)

def getRatio (d1 d2 : Microseconds) : F :=
  (toSeconds d1 : F) / toSeconds d2

def average (d : Microseconds) (n : Nat) : Microseconds :=
  ofSeconds ((d : F) * (1 / (n : F)) / USEC_PER_SEC)

def getChannelActivity (utilizationMicroseconds deltaTMicroseconds : Microseconds) : F :=
  if deltaTMicroseconds = 0 then 0 else getRatio utilizationMicroseconds deltaTMicroseconds

def getA (utilizationMicroseconds avgUtilizationMicroseconds : Microseconds) : F :=
  let A : F := getChannelActivity utilizationMicroseconds avgUtilizationMicroseconds
  if A > 1 then 1 else A

def getH (utilizationMicroseconds deltaTMicroseconds : Microseconds) : F :=
  let H : F := getChannelActivity utilizationMicroseconds deltaTMicroseconds
  if H > 1 then 1 else H

structure Overlap (F : Type) where
  B2 : F
  hiddenUtilizationMicroseconds : Microseconds
  commonRxPowerMilliWatts : F
  hiddenRxPowerMilliWatts : F
  numCommonPackets : Nat
  numHiddenPackets : Nat
  commonNbrs : NbrSet
  hiddenNbrs : NbrSet
  commonNbrAvgRxPowerMwMap : RxPowerMap F
  hiddenNbrAvgRxPowerMwMap : RxPowerMap F

namespace Overlap

def start (commonNbrAvgRxPowerMwMap hiddenNbrAvgRxPowerMwMap : RxPowerMap F) : Overlap F where
  B2 := 0
  hiddenUtilizationMicroseconds := 0
  commonRxPowerMilliWatts := 0
  hiddenRxPowerMilliWatts := 0
  numCommonPackets := 0
  numHiddenPackets := 0
  commonNbrs := .empty
  hiddenNbrs := .empty
  commonNbrAvgRxPowerMwMap := commonNbrAvgRxPowerMwMap
  hiddenNbrAvgRxPowerMwMap := hiddenNbrAvgRxPowerMwMap

def perPacket (rxPowerMilliWatts : F) (numPackets : Nat) : F :=
  if numPackets > 0 then rxPowerMilliWatts / (numPackets : F) else 0

def visit (avgUtilizationMicroseconds : Microseconds) (nbrOneHopNbrSet : NbrSet) (o : Overlap F)
    (nbrEntry2 : NEMId × NeighborEntry F)
    : Overlap F :=
  if nbrOneHopNbrSet.contains nbrEntry2.1 then
    let typeMask := MSG_TYPE_MASK_ALL_DATA
    let A2 : F := getA (nbrEntry2.2.getUtilizationMicroseconds typeMask) avgUtilizationMicroseconds
    let rxPowermW := nbrEntry2.2.getRxPowerMilliWatts typeMask
    let numPackets := nbrEntry2.2.getNumberOfPackets typeMask
    { o with
      B2 := o.B2 + A2 * A2
      commonNbrs := o.commonNbrs.insert nbrEntry2.1 ()
      commonNbrAvgRxPowerMwMap := o.commonNbrAvgRxPowerMwMap.set nbrEntry2.1
        (perPacket rxPowermW numPackets)
      commonRxPowerMilliWatts := o.commonRxPowerMilliWatts + rxPowermW
      numCommonPackets := o.numCommonPackets + numPackets }
  else
    let typeMask := MSG_TYPE_MASK_UNICAST ||| MSG_TYPE_MASK_BROADCAST
    let rxPowermW := nbrEntry2.2.getRxPowerMilliWatts typeMask
    let numPackets := nbrEntry2.2.getNumberOfPackets typeMask
    { o with
      hiddenUtilizationMicroseconds := o.hiddenUtilizationMicroseconds
        + nbrEntry2.2.getUtilizationMicroseconds typeMask
      hiddenNbrs := o.hiddenNbrs.insert nbrEntry2.1 ()
      hiddenNbrAvgRxPowerMwMap := o.hiddenNbrAvgRxPowerMwMap.set nbrEntry2.1
        (perPacket rxPowermW numPackets)
      hiddenRxPowerMilliWatts := o.hiddenRxPowerMilliWatts + rxPowermW
      numHiddenPackets := o.numHiddenPackets + numPackets }

end Overlap

namespace NeighborManager

def create (id : NEMId) (nbrTimeOutMicroseconds : Microseconds) (startTime : TimePoint)
    : NeighborManager F where
  id := id
  nbrTimeOutMicroseconds := nbrTimeOutMicroseconds
  lastResetTime := startTime
  oneHopNbrMap := .empty
  twoHopNbrMap := .empty
  cachedOneHopNbrSetMap := .empty
  statisticOneHopNbrTable := .empty
  statisticTwoHopNbrTable := .empty
  counters := .reset
  commonProbabilityMapMap := .empty
  hiddenProbabilityMapMap := .empty
  commonNbrAvgRxPowerMwMap := .empty
  hiddenNbrAvgRxPowerMwMap := .empty
  sentEvents := []

def sendOneHopNbrListEvent (m : NeighborManager F) : NeighborManager F :=
  let nbrSet := m.oneHopNbrMap.toList.foldl (fun nbrSet nbrEntry => nbrSet.insert nbrEntry.1 ()) .empty
  { m with sentEvents := m.sentEvents ++ [⟨m.id, nbrSet⟩] }

def newEntry (m : NeighborManager F) (src : NEMId) : NeighborEntry F :=
  match m.cachedOneHopNbrSetMap.find? src with
  | some nbrs => NeighborEntry.create.setOneHopNeighbors nbrs
  | none => .create

def addOneHopNeighbor (m : NeighborManager F) (src : NEMId) : Option (Bool × NeighborManager F) :=
  if m.oneHopNbrMap.contains src then
    some (false, m)
  else do
    let table ← m.statisticOneHopNbrTable.addRow src
    return (true, { m with oneHopNbrMap :=
      m.oneHopNbrMap.insert src (m.newEntry src), statisticOneHopNbrTable := table })

def addTwoHopNeighbor (m : NeighborManager F) (src : NEMId) : Option (NeighborManager F) :=
  if m.twoHopNbrMap.contains src then
    some m
  else do
    let table ← m.statisticTwoHopNbrTable.addRow src
    return { m with twoHopNbrMap := m.twoHopNbrMap.insert src .create, statisticTwoHopNbrTable := table }

def updateOneHop (m : NeighborManager F) (src : NEMId) (type : UInt8) (rxPowerMilliWatts : F)
    (timePoint : TimePoint)
    (durationMicroseconds : Microseconds)
    : Option (NeighborManager F) := do
  let (changed, m) ← m.addOneHopNeighbor src
  let m := { m with
    oneHopNbrMap := m.oneHopNbrMap.upsert src .create
      (fun n => n.updateChannelActivity durationMicroseconds type timePoint rxPowerMilliWatts) }
  return if changed then m.sendOneHopNbrListEvent else m

def updateDataChannelActivity (m : NeighborManager F) (src : NEMId) (type : UInt8)
    (rxPowerMilliWatts : F) (timePoint : TimePoint)
    (durationMicroseconds : Microseconds)
    : Option (NeighborManager F) :=
  m.updateOneHop src type rxPowerMilliWatts timePoint durationMicroseconds

def updateCtrlChannelActivity (m : NeighborManager F) (src origin : NEMId) (type : UInt8)
    (rxPowerMilliWatts : F)
    (timePoint : TimePoint) (durationMicroseconds : Microseconds)
    : Option (NeighborManager F) := do
  let m ←
    if origin ≠ m.id ∧ !m.oneHopNbrMap.contains origin then do
      let m ← m.addTwoHopNeighbor origin
      pure { m with
        twoHopNbrMap := m.twoHopNbrMap.upsert origin .create
          (fun n => n.updateChannelActivity durationMicroseconds timePoint) }
    else
      pure m
  m.updateOneHop src type rxPowerMilliWatts timePoint 0

def handleOneHopNeighborsEvent (m : NeighborManager F) (msg : Option OneHopNeighborsMessage)
    : NeighborManager F :=
  match msg with
  | none => m
  | some msg =>
    let event := OneHopNeighborsEvent.ofMessage msg
    let oneHopNbrMap :=
      match m.oneHopNbrMap.find? event.eventSource with
      | some n => m.oneHopNbrMap.set event.eventSource (n.setOneHopNeighbors event.nbrSet)
      | none => m.oneHopNbrMap
    { m with
      oneHopNbrMap := oneHopNbrMap
      cachedOneHopNbrSetMap := m.cachedOneHopNbrSetMap.set event.eventSource event.nbrSet }

def expired (currentTime lastActivityTime : TimePoint) (timeOutMicroseconds : Microseconds) : Bool :=
  (currentTime - lastActivityTime).tdiv 1000 > timeOutMicroseconds

def flushOneHopNeighbors (m : NeighborManager F) (currentTime : TimePoint) : Bool × NeighborManager F :=
  let old := m.oneHopNbrMap.toList.filter
    (fun iter => expired currentTime iter.2.lastActivityTime m.nbrTimeOutMicroseconds)
  (!old.isEmpty,
    { m with
      oneHopNbrMap := old.foldl (fun map iter => map.erase iter.1) m.oneHopNbrMap
      statisticOneHopNbrTable := old.foldl
        (fun table iter => table.erase iter.1) m.statisticOneHopNbrTable })

def flushTwoHopNeighbors (m : NeighborManager F) (currentTime : TimePoint) : NeighborManager F :=
  let old := m.twoHopNbrMap.toList.filter
    (fun iter => expired currentTime iter.2.lastActivityTime m.nbrTimeOutMicroseconds)
  { m with
    twoHopNbrMap := old.foldl (fun map iter => map.erase iter.1) m.twoHopNbrMap
    statisticTwoHopNbrTable := old.foldl
      (fun table iter => table.erase iter.1) m.statisticTwoHopNbrTable }

def countOneHop (id : NEMId) (c : Counters F) (nbrEntry : NEMId × NeighborEntry F) : Counters F :=
  let utilizationMicroseconds := nbrEntry.2.getUtilizationMicroseconds MSG_TYPE_MASK_ALL_DATA
  if utilizationMicroseconds > 0 then
    let c := { c with
      totalOneHopUtilizationMicroseconds := c.totalOneHopUtilizationMicroseconds + utilizationMicroseconds
      oneHopUtilizationMap := c.oneHopUtilizationMap.set nbrEntry.1 utilizationMicroseconds }
    if nbrEntry.1 = id then
      { c with utilizationThisNEMMicroseconds := utilizationMicroseconds }
    else
      { c with
        totalOneHopNumPackets := c.totalOneHopNumPackets
          + nbrEntry.2.getNumberOfPackets MSG_TYPE_MASK_ALL_DATA
        totalRxPowerMilliWatts := c.totalRxPowerMilliWatts
          + nbrEntry.2.getRxPowerMilliWatts MSG_TYPE_MASK_ALL_DATA }
  else
    c

def countTwoHop (c : Counters F) (nbr2Entry : NEMId × Neighbor2HopEntry) : Counters F :=
  let utilizationMicroseconds := nbr2Entry.2.totalUtilizationMicroseconds
  if utilizationMicroseconds > 0 then
    { c with
      twoHopUtilizationMap := c.twoHopUtilizationMap.set nbr2Entry.1 utilizationMicroseconds
      totalTwoHopUtilizationMicroseconds := c.totalTwoHopUtilizationMicroseconds + utilizationMicroseconds
      totalTwoHopNumPackets := c.totalTwoHopNumPackets + nbr2Entry.2.totalNumPackets }
  else
    c

def estimateTwoHop (c : Counters F) : Counters F :=
  if c.totalTwoHopNumPackets > 0 then
    let averageUtilization := average (F := F) c.totalTwoHopUtilizationMicroseconds
      c.twoHopUtilizationMap.size
    let B : F := c.twoHopUtilizationMap.toList.foldl (fun B twoHopUtilization =>
      let A : F := getA twoHopUtilization.2 averageUtilization
      B + A * A) 0
    { c with
      averageUtilizationPerTwoHopNbrMicroseconds := averageUtilization
      estimatedNumTwoHopNeighbors := FloatingPoint.round B }
  else
    c

def averages (c : Counters F) : Counters F :=
  { c with
    numTotalActiveOneHopNeighbors := c.oneHopUtilizationMap.size
    averageUtilizationPerOneHopNbrMicroseconds :=
      average (F := F) c.totalOneHopUtilizationMicroseconds c.oneHopUtilizationMap.size
    averageRxPowerPerMessageMilliWatts := c.totalRxPowerMilliWatts / (c.totalOneHopNumPackets : F)
    averageMessageDurationMicroseconds :=
      average (F := F) (c.totalOneHopUtilizationMicroseconds - c.utilizationThisNEMMicroseconds)
        c.totalOneHopNumPackets }

def estimateNeighbor (deltaTMicroseconds : Microseconds) (s : F × NeighborManager F)
    (nbrEntry1 : NEMId × NeighborEntry F)
    : F × NeighborManager F :=
  let m := s.2
  if nbrEntry1.2.getNumberOfPackets MSG_TYPE_MASK_ALL_DATA > 0 then
    let averageUtilization := m.counters.averageUtilizationPerOneHopNbrMicroseconds
    let A1 : F := getA (nbrEntry1.2.getUtilizationMicroseconds MSG_TYPE_MASK_ALL_DATA) averageUtilization
    let B1 := s.1 + A1 * A1
    if nbrEntry1.1 ≠ m.id then
      let o := m.oneHopNbrMap.toList.foldl (Overlap.visit averageUtilization nbrEntry1.2.oneHopNbrSet)
        (.start m.commonNbrAvgRxPowerMwMap m.hiddenNbrAvgRxPowerMwMap)
      let entry := { nbrEntry1.2 with
        commonNbrSet := o.commonNbrs
        hiddenNbrSet := o.hiddenNbrs
        estimatedNumCommonNeighbors := FloatingPoint.round o.B2
        averageCommonRxPowerMilliWatts := Overlap.perPacket o.commonRxPowerMilliWatts o.numCommonPackets
        hiddenChannelActivity := getH o.hiddenUtilizationMicroseconds deltaTMicroseconds
        averageHiddenRxPowerMilliWatts := Overlap.perPacket o.hiddenRxPowerMilliWatts o.numHiddenPackets }
      (B1,
        { m with
          oneHopNbrMap := m.oneHopNbrMap.set nbrEntry1.1 entry
          commonNbrAvgRxPowerMwMap := o.commonNbrAvgRxPowerMwMap
          hiddenNbrAvgRxPowerMwMap := o.hiddenNbrAvgRxPowerMwMap
          counters := { m.counters with
            sumCommonPackets := m.counters.sumCommonPackets + o.numCommonPackets
            sumHiddenPackets := m.counters.sumHiddenPackets + o.numHiddenPackets
            commonRxPowerMilliWatts := m.counters.commonRxPowerMilliWatts + o.commonRxPowerMilliWatts
            hiddenRxPowerMilliWatts := m.counters.hiddenRxPowerMilliWatts + o.hiddenRxPowerMilliWatts } })
    else
      (B1, m)
  else
    s

def select (nbrSet : NbrSet) (s : NbrUtilizationMap × Microseconds) (utilization : NEMId × Microseconds)
    : NbrUtilizationMap × Microseconds :=
  if nbrSet.contains utilization.1 then
    (s.1.set utilization.1 utilization.2, s.2)
  else
    (s.1, s.2 - utilization.2)

def ranges (utilizationMicroseconds : Microseconds)
    : List (NEMId × Microseconds) → F → ProbabilityPairMap F → ProbabilityPairMap F
  | [], _, probabilityMap => probabilityMap
  | e :: es, p1, probabilityMap =>
    let p2 := if (e :: es).length ≠ 1 then p1 + getRatio e.2 utilizationMicroseconds else 1
    ranges utilizationMicroseconds es p2 (probabilityMap.set e.1 (p1, p2))

def setProbability (map : NbrUtilizationMap) (utilizationMicroseconds : Microseconds)
    (nbrSet : NbrSet) : ProbabilityPairMap F :=
  let (adjustedUtilizationMap, utilizationMicroseconds) := map.toList.foldl (select nbrSet)
    (.empty, utilizationMicroseconds)
  if utilizationMicroseconds > 0 then
    ranges utilizationMicroseconds adjustedUtilizationMap.toList 0 .empty
  else
    .empty

def setSourceProbability (m : NeighborManager F) (oneHopUtilization : NEMId × Microseconds)
    : NeighborManager F :=
  if oneHopUtilization.1 ≠ m.id then
    let adjustedUtilization :=
      m.counters.totalOneHopUtilizationMicroseconds - m.counters.utilizationThisNEMMicroseconds
        - oneHopUtilization.2
    if adjustedUtilization > 0 then
      match m.oneHopNbrMap.find? oneHopUtilization.1 with
      | some n =>
        let adjustedUtilizationMap := (m.counters.oneHopUtilizationMap.erase m.id).erase
          oneHopUtilization.1
        { m with
          commonProbabilityMapMap := m.commonProbabilityMapMap.set oneHopUtilization.1
            (setProbability adjustedUtilizationMap adjustedUtilization n.commonNbrSet)
          hiddenProbabilityMapMap := m.hiddenProbabilityMapMap.set oneHopUtilization.1
            (setProbability adjustedUtilizationMap adjustedUtilization n.hiddenNbrSet) }
      | none => m
    else
      m
  else
    m

def setCommonAndHiddenProbability (m : NeighborManager F) : NeighborManager F :=
  m.counters.oneHopUtilizationMap.toList.foldl setSourceProbability m

def count (m : NeighborManager F) : Counters F :=
  let c := m.oneHopNbrMap.toList.foldl (countOneHop m.id) .reset
  let c := { c with
    localNodeTx :=
      if c.totalOneHopUtilizationMicroseconds ≠ 0 then
        getRatio c.utilizationThisNEMMicroseconds c.totalOneHopUtilizationMicroseconds
      else
        0 }
  estimateTwoHop (m.twoHopNbrMap.toList.foldl countTwoHop c)

def calculateBwUtilization (m : NeighborManager F) (deltaTMicroseconds : Microseconds)
    : NeighborManager F :=
  let m := { m with counters := m.count }
  if m.counters.totalOneHopNumPackets > 0 then
    let m := { m with counters := averages m.counters }
    let (B1, m) := m.oneHopNbrMap.toList.foldl (estimateNeighbor deltaTMicroseconds) (0, m)
    let m := m.setCommonAndHiddenProbability
    { m with counters := { m.counters with estimatedNumOneHopNeighbors := FloatingPoint.round B1 } }
  else
    m

def mapOneHop (f : NeighborEntry F → NeighborEntry F) (m : NeighborManager F) : NeighborManager F :=
  { m with oneHopNbrMap :=
    m.oneHopNbrMap.toList.foldl (fun map iter => map.set iter.1 (f iter.2)) m.oneHopNbrMap }

def mapTwoHop (f : Neighbor2HopEntry → Neighbor2HopEntry) (m : NeighborManager F) : NeighborManager F :=
  { m with twoHopNbrMap :=
    m.twoHopNbrMap.toList.foldl (fun map iter => map.set iter.1 (f iter.2)) m.twoHopNbrMap }

def flush (m : NeighborManager F) (currentTime : TimePoint) : NeighborManager F :=
  if m.nbrTimeOutMicroseconds ≠ 0 then
    let (changed, m) := m.flushOneHopNeighbors currentTime
    let m := if changed then m.sendOneHopNbrListEvent else m
    m.flushTwoHopNeighbors currentTime
  else
    m

def resetStatistics (m : NeighborManager F) (currentTime : TimePoint) : NeighborManager F :=
  let deltaTMicroseconds := (currentTime - m.lastResetTime).tdiv 1000
  let m := ((m.flush currentTime).mapOneHop NeighborEntry.storeUtilization).calculateBwUtilization
    deltaTMicroseconds
  { m.mapTwoHop Neighbor2HopEntry.resetUtilization with lastResetTime := currentTime }

def getRandomRxPowerMilliWatts (src : NEMId) (random : F) (pmap : ProbabilityPairMapMap F)
    (rmap : RxPowerMap F) : F :=
  match pmap.find? src with
  | none => 0
  | some ranges =>
    match ranges.toList.find? (fun piter => random ≥ piter.2.1 ∧ random ≤ piter.2.2) with
    | none => 0
    | some piter => (rmap.find? piter.1).getD 0

def getRandomRxPowerCommonNodesMilliWatts (m : NeighborManager F) (src : NEMId) (random : F) : F :=
  getRandomRxPowerMilliWatts src random m.commonProbabilityMapMap m.commonNbrAvgRxPowerMwMap

def getRandomRxPowerHiddenNodesMilliWatts (m : NeighborManager F) (src : NEMId) (random : F) : F :=
  getRandomRxPowerMilliWatts src random m.hiddenProbabilityMapMap m.hiddenNbrAvgRxPowerMwMap

inductive Event (F : Type) where
  | dataActivity (src : NEMId) (type : UInt8) (rxPowerMilliWatts : F) (timePoint : TimePoint)
    (durationMicroseconds : Microseconds)
  | ctrlActivity (src origin : NEMId) (type : UInt8) (rxPowerMilliWatts : F) (timePoint : TimePoint)
      (durationMicroseconds : Microseconds)
  | oneHopNeighbors (msg : Option OneHopNeighborsMessage)
  | resetStatistics (currentTime : TimePoint)

def step (m : NeighborManager F) : Event F → Option (NeighborManager F)
  | .dataActivity src type rxPower timePoint duration =>
    m.updateDataChannelActivity src type rxPower timePoint duration
  | .ctrlActivity src origin type rxPower timePoint duration =>
    m.updateCtrlChannelActivity src origin type rxPower timePoint duration
  | .oneHopNeighbors msg => some (m.handleOneHopNeighborsEvent msg)
  | .resetStatistics currentTime => some (m.resetStatistics currentTime)

end NeighborManager
end
end Ieee80211abg
end Emane

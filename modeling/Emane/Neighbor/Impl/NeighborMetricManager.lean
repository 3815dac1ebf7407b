import Emane.Lib.SortedMap
import Emane.Packet.Impl.Packet

/-!
This module contains the neighbor metric manager. It counts the frames that go to and come from
each neighbor, for the reports to the radio to router interface and for the short and the long
term statistics.
-/

namespace Emane
namespace Neighbor

abbrev TimePoint := Int
abbrev Microseconds := Int

class FloatingPoint (F : Type u) extends Zero F, One F, Add F, Sub F, Mul F, Div F, NatCast F, LT F where
  decidableLT : DecidableLT F
  sqrt : F → F
  -- of a duration in nanoseconds
  seconds : Int → F

attribute [reducible, instance] FloatingPoint.decidableLT

scoped instance FloatingPoint.instInt : FloatingPoint Int where
  decidableLT := inferInstance
  sqrt x := x.toNat.sqrt
  seconds nanoseconds := nanoseconds / 1000000000

structure NeighborData (F : Type u) where
  nemId : NEMId
  lastRxSeqNum : UInt64
  haveEverHadRxActivity : Bool
  lastRxTime : TimePoint
  lastTxTime : TimePoint
  numRxFrames : UInt64
  numRxMissedFrames : UInt64
  numTxFrames : UInt64
  rxUtilizationMicroseconds : Microseconds
  SINRSum : F
  SINRSum2 : F
  noiseFloorSum : F
  noiseFloorSum2 : F
  rxDataRateMin : UInt64
  rxDataRateMax : UInt64
  rxDataRateAvg : UInt64
  txDataRateMin : UInt64
  txDataRateMax : UInt64
  txDataRateAvg : UInt64
  uuid : UUID

structure Channel (F : Type u) where
  SINR : F
  noiseFloor : F
  durationMicroseconds : Microseconds
  dataRatebps : UInt64

def updateRunningAverage (avg count val : UInt64) : UInt64 :=
  if count = 1 then val else (avg * count + val) / (count + 1)

def updateMin (min value : UInt64) : UInt64 :=
  if min > value ∨ min = 0 then value else min

def updateMax (max value : UInt64) : UInt64 :=
  if max < value ∨ max = 0 then value else max

section

variable {F : Type u} [FloatingPoint F]

def getAvg (sum : F) (numSamples : UInt64) : F :=
  if numSamples > 1 then
    sum / (numSamples.toNat : F)
  else if numSamples = 1 then
    sum
  else
    0

def getStd (sum sumSquared : F) (numSamples : UInt64) : F :=
  if numSamples > 1 then
    let delta := sumSquared - sum * sum
    if delta > 0 then
      FloatingPoint.sqrt (delta / (numSamples.toNat : F)) / ((numSamples.toNat : F) - 1)
    else
      0
  else
    0

end

namespace NeighborData

variable {F : Type u}

def updateTxActivityData (d : NeighborData F) (dataRatebps : UInt64) (txTime : TimePoint)
    : NeighborData F :=
  let numTxFrames := d.numTxFrames + 1
  { d with
    numTxFrames := numTxFrames
    lastTxTime := txTime
    txDataRateAvg := updateRunningAverage d.txDataRateAvg numTxFrames dataRatebps
    txDataRateMin := updateMin d.txDataRateMin dataRatebps
    txDataRateMax := updateMax d.txDataRateMax dataRatebps }

def updateRxSeqNum (d : NeighborData F) (seqNum : UInt64) (uuid : UUID) : NeighborData F :=
  if uuid = d.uuid then
    if seqNum > d.lastRxSeqNum then
      { d with
        numRxMissedFrames := d.numRxMissedFrames + (seqNum - d.lastRxSeqNum - 1)
        lastRxSeqNum := seqNum }
    else if d.numRxMissedFrames ≠ 0 then
      -- out of order, previously accounted for as missed
      { d with numRxMissedFrames := d.numRxMissedFrames - 1 }
    else
      d
  else
    -- first packet or emulator restart
    { d with
      uuid := uuid
      lastRxSeqNum := seqNum }

def updateRxActivityData (d : NeighborData F) (seqNum : UInt64) (uuid : UUID) (rxTime : TimePoint)
    : NeighborData F :=
  let d := d.updateRxSeqNum seqNum uuid
  { d with
    numRxFrames := d.numRxFrames + 1
    lastRxTime := rxTime
    haveEverHadRxActivity := true }

variable [FloatingPoint F]

def new (nemId : NEMId) : NeighborData F where
  nemId := nemId
  lastRxSeqNum := 0
  haveEverHadRxActivity := false
  lastRxTime := 0
  lastTxTime := 0
  numRxFrames := 0
  numRxMissedFrames := 0
  numTxFrames := 0
  rxUtilizationMicroseconds := 0
  SINRSum := 0
  SINRSum2 := 0
  noiseFloorSum := 0
  noiseFloorSum2 := 0
  rxDataRateMin := 0
  rxDataRateMax := 0
  rxDataRateAvg := 0
  txDataRateMin := 0
  txDataRateMax := 0
  txDataRateAvg := 0
  uuid := .ofByte 0

def updateRxActivityChannelData (d : NeighborData F) (channel : Channel F) : NeighborData F :=
  { d with
    rxUtilizationMicroseconds := d.rxUtilizationMicroseconds + channel.durationMicroseconds
    SINRSum := d.SINRSum + channel.SINR
    SINRSum2 := d.SINRSum2 + channel.SINR * channel.SINR
    noiseFloorSum := d.noiseFloorSum + channel.noiseFloor
    noiseFloorSum2 := d.noiseFloorSum2 + channel.noiseFloor * channel.noiseFloor
    rxDataRateMin := updateMin d.rxDataRateMin channel.dataRatebps
    rxDataRateMax := updateMax d.rxDataRateMax channel.dataRatebps
    rxDataRateAvg := updateRunningAverage d.rxDataRateAvg d.numRxFrames channel.dataRatebps }

def clearData (d : NeighborData F) : NeighborData F :=
  { d with
    numRxMissedFrames := 0
    numRxFrames := 0
    numTxFrames := 0
    rxUtilizationMicroseconds := 0
    SINRSum := 0
    SINRSum2 := 0
    noiseFloorSum := 0
    noiseFloorSum2 := 0
    rxDataRateMin := 0
    rxDataRateMax := 0
    rxDataRateAvg := 0
    txDataRateMin := 0
    txDataRateMax := 0
    txDataRateAvg := 0 }

end NeighborData

structure NeighborMetricRow (F : Type u) where
  rxFrames : UInt64
  txFrames : UInt64
  missedFrames : UInt64
  bandwidthConsumption : Microseconds
  lastRxTime : F
  lastTxTime : F
  SINRAvg : F
  SINRStdv : F
  noiseFloorAvg : F
  noiseFloorStdv : F
  rxDataRateAvg : UInt64
  txDataRateAvg : UInt64

structure NeighborStatusRow (F : Type u) where
  rxFrames : UInt64
  txFrames : UInt64
  missedFrames : UInt64
  bandwidthConsumption : F
  SINRAvg : F
  noiseFloorAvg : F
  rxAge : F

structure R2RINeighborMetric (F : Type u) where
  id : NEMId
  numRxFrames : UInt64
  numTxFrames : UInt64
  numMissedFrames : UInt64
  bandwidthConsumption : Microseconds
  SINRAvgdBm : F
  SINRStddev : F
  noiseFloorAvgdBm : F
  noiseFloorStddev : F
  rxAvgDataRatebps : UInt64
  txAvgDataRatebps : UInt64

structure NeighborMetricManager (F : Type u) where
  r2riMetricTable : SortedMap NEMId (NeighborData F)
  neighborDataTable : SortedMap NEMId (NeighborData F × NeighborData F)
  neighborDeleteAgeMicroseconds : Microseconds
  statisticNeighborStatusTable : SortedMap NEMId (NeighborStatusRow F)
  statisticNeighborMetricTable : SortedMap NEMId (NeighborMetricRow F)
  lastNeighborStatusUpdateTime : TimePoint

namespace NeighborMetricRow

variable {F : Type u} [FloatingPoint F]

def new : NeighborMetricRow F :=
  ⟨0, 0, 0, 0, 0, 0, 0, 0, 0, 0, 0, 0⟩

def updateTxActivityNeighborMetricStatistics (d : NeighborData F) (row : NeighborMetricRow F)
    : NeighborMetricRow F :=
  { row with
    txFrames := d.numTxFrames
    txDataRateAvg := d.txDataRateAvg
    lastTxTime := FloatingPoint.seconds d.lastTxTime }

def updateRxActivityNeighborMetricStatistics (d : NeighborData F) (row : NeighborMetricRow F)
    : NeighborMetricRow F :=
  { row with
    rxFrames := d.numRxFrames
    missedFrames := d.numRxMissedFrames }

def updateRxActivityChannelStatistics (d : NeighborData F) (row : NeighborMetricRow F)
    : NeighborMetricRow F :=
  { row with
    bandwidthConsumption := d.rxUtilizationMicroseconds
    lastRxTime := FloatingPoint.seconds d.lastRxTime
    SINRAvg := getAvg d.SINRSum d.numRxFrames
    SINRStdv := getStd d.SINRSum d.SINRSum2 d.numRxFrames
    noiseFloorAvg := getAvg d.noiseFloorSum d.numRxFrames
    noiseFloorStdv := getStd d.noiseFloorSum d.noiseFloorSum2 d.numRxFrames
    rxDataRateAvg := d.rxDataRateAvg }

end NeighborMetricRow

namespace NeighborMetricManager

variable {F : Type u} [FloatingPoint F]

def new (neighborDeleteAgeMicroseconds : Microseconds) : NeighborMetricManager F where
  r2riMetricTable := .empty
  neighborDataTable := .empty
  neighborDeleteAgeMicroseconds := neighborDeleteAgeMicroseconds
  statisticNeighborStatusTable := .empty
  statisticNeighborMetricTable := .empty
  lastNeighborStatusUpdateTime := 0

def lookupR2RIMetric (m : NeighborMetricManager F) (nemId : NEMId)
    (update : NeighborData F → NeighborData F)
    : NeighborMetricManager F :=
  -- the entry of a neighbor is looked up, or it is added, and then it is changed through the
  -- pointer
  { m with
    r2riMetricTable := m.r2riMetricTable.set nemId
      (update ((m.r2riMetricTable.find? nemId).getD (.new nemId))) }

def lookupNeighborData (m : NeighborMetricManager F) (nemId : NEMId)
    (update : NeighborData F → NeighborData F)
    (publish : NeighborData F → NeighborMetricRow F → NeighborMetricRow F)
    : NeighborMetricManager F :=
  let data := (m.neighborDataTable.find? nemId).getD (.new nemId, .new nemId)
  let longTerm := update data.2
  { m with
    neighborDataTable := m.neighborDataTable.set nemId (update data.1, longTerm)
    statisticNeighborStatusTable := m.statisticNeighborStatusTable.insert nemId ⟨0, 0, 0, 0, 0, 0, 0⟩
    statisticNeighborMetricTable :=
      m.statisticNeighborMetricTable.set nemId
        (publish longTerm ((m.statisticNeighborMetricTable.find? nemId).getD .new)) }

def handleR2RITxActivity (m : NeighborMetricManager F) (dst : NEMId) (dataRatebps : UInt64)
    (txTime : TimePoint)
    : NeighborMetricManager F :=
  m.lookupR2RIMetric dst (fun d => d.updateTxActivityData dataRatebps txTime)

def handleNeighborTxActivity (m : NeighborMetricManager F) (dst : NEMId) (dataRatebps : UInt64)
    (txTime : TimePoint)
    : NeighborMetricManager F :=
  m.lookupNeighborData dst (fun d => d.updateTxActivityData dataRatebps txTime)
    NeighborMetricRow.updateTxActivityNeighborMetricStatistics

def updateNeighborTxMetric (m : NeighborMetricManager F) (dst : NEMId) (dataRatebps : UInt64)
    (txTime : TimePoint)
    : NeighborMetricManager F :=
  if dst ≠ NEM_BROADCAST_MAC_ADDRESS then
    (m.handleR2RITxActivity dst dataRatebps txTime).handleNeighborTxActivity dst dataRatebps txTime
  else
    m.handleNeighborTxActivity dst dataRatebps txTime

def receive (seqNum : UInt64) (uuid : UUID) (rxTime : TimePoint) (channel : Option (Channel F))
    (d : NeighborData F)
    : NeighborData F :=
  match channel with
  | none => d.updateRxActivityData seqNum uuid rxTime
  | some channel => (d.updateRxActivityData seqNum uuid rxTime).updateRxActivityChannelData channel

def publishReceived (channel : Option (Channel F)) (d : NeighborData F) (row : NeighborMetricRow F)
    : NeighborMetricRow F :=
  match channel with
  | none => row.updateRxActivityNeighborMetricStatistics d
  | some _ => (row.updateRxActivityNeighborMetricStatistics d).updateRxActivityChannelStatistics d

def handleR2RIRxActivity (m : NeighborMetricManager F) (src : NEMId) (seqNum : UInt64) (uuid : UUID)
    (rxTime : TimePoint)
    (channel : Option (Channel F))
    : NeighborMetricManager F :=
  m.lookupR2RIMetric src (receive seqNum uuid rxTime channel)

def updateNeighborRxActivity (m : NeighborMetricManager F) (src : NEMId) (seqNum : UInt64)
    (uuid : UUID) (rxTime : TimePoint)
    (channel : Option (Channel F))
    : NeighborMetricManager F :=
  m.lookupNeighborData src (receive seqNum uuid rxTime channel) (publishReceived channel)

def updateNeighborRxMetric (m : NeighborMetricManager F) (src : NEMId) (seqNum : UInt64)
    (uuid : UUID) (rxTime : TimePoint)
    (channel : Option (Channel F))
    : NeighborMetricManager F :=
  (m.handleR2RIRxActivity src seqNum uuid rxTime channel).updateNeighborRxActivity src seqNum uuid
    rxTime channel

def statusRow (m : NeighborMetricManager F) (currentTime : TimePoint) (d : NeighborData F)
    : NeighborStatusRow F where
  rxFrames := d.numRxFrames
  txFrames := d.numTxFrames
  missedFrames := d.numRxMissedFrames
  bandwidthConsumption :=
    if m.lastNeighborStatusUpdateTime = 0 then
      0
    else
      FloatingPoint.seconds (d.rxUtilizationMicroseconds * 1000)
        / FloatingPoint.seconds (currentTime - m.lastNeighborStatusUpdateTime)
  SINRAvg := getAvg d.SINRSum d.numRxFrames
  noiseFloorAvg := getAvg d.noiseFloorSum d.numRxFrames
  rxAge := if d.haveEverHadRxActivity then FloatingPoint.seconds (currentTime - d.lastRxTime) else 0

def handleNeighborStatusUpdate (m : NeighborMetricManager F) (currentTime : TimePoint)
    : NeighborMetricManager F :=
  { m with
    statisticNeighborStatusTable :=
      m.neighborDataTable.toList.foldl
        (fun table entry => table.set entry.1 (m.statusRow currentTime entry.2.1))
        m.statisticNeighborStatusTable
    neighborDataTable :=
      m.neighborDataTable.toList.foldl
        (fun table entry => table.set entry.1 (entry.2.1.clearData, entry.2.2))
        m.neighborDataTable
    lastNeighborStatusUpdateTime := currentTime }

def r2riMetric (nemId : NEMId) (d : NeighborData F) : R2RINeighborMetric F where
  id := nemId
  numRxFrames := d.numRxFrames
  numTxFrames := d.numTxFrames
  numMissedFrames := d.numRxMissedFrames
  bandwidthConsumption := d.rxUtilizationMicroseconds
  SINRAvgdBm := getAvg d.SINRSum d.numRxFrames
  SINRStddev := getStd d.SINRSum d.SINRSum2 d.numRxFrames
  noiseFloorAvgdBm := getAvg d.noiseFloorSum d.numRxFrames
  noiseFloorStddev := getStd d.noiseFloorSum d.noiseFloorSum2 d.numRxFrames
  rxAvgDataRatebps := d.rxDataRateAvg
  txAvgDataRatebps := d.txDataRateAvg

def reportEntry (m : NeighborMetricManager F) (currentTime : TimePoint)
    (s : List (R2RINeighborMetric F) × SortedMap NEMId (NeighborData F)) (entry : NEMId × NeighborData F)
    : List (R2RINeighborMetric F) × SortedMap NEMId (NeighborData F) :=
  if (currentTime - entry.2.lastRxTime).tdiv 1000 > m.neighborDeleteAgeMicroseconds then
    (s.1, s.2.erase entry.1)
  else
    (s.1 ++ [r2riMetric entry.1 entry.2], s.2.set entry.1 entry.2.clearData)

def getNeighborMetrics (m : NeighborMetricManager F) (statusTime currentTime : TimePoint)
    : List (R2RINeighborMetric F) × NeighborMetricManager F :=
  let m := m.handleNeighborStatusUpdate statusTime
  let res := m.r2riMetricTable.toList.foldl (m.reportEntry currentTime) ([], m.r2riMetricTable)
  (res.1, { m with r2riMetricTable := res.2 })

def updateNeighborStatus (m : NeighborMetricManager F) (currentTime : TimePoint)
    : NeighborMetricManager F :=
  m.handleNeighborStatusUpdate currentTime

def setNeighborDeleteTimeMicroseconds (m : NeighborMetricManager F) (ageMicroseconds : Microseconds)
    : NeighborMetricManager F :=
  { m with neighborDeleteAgeMicroseconds := ageMicroseconds }

inductive Call (F : Type u) where
  | updateNeighborTxMetric (dst : NEMId) (dataRatebps : UInt64) (txTime : TimePoint)
  | updateNeighborRxMetric (src : NEMId) (seqNum : UInt64) (uuid : UUID) (rxTime : TimePoint)
    (channel : Option (Channel F))
  | setNeighborDeleteTimeMicroseconds (ageMicroseconds : Microseconds)
  | updateNeighborStatus (currentTime : TimePoint)
  | getNeighborMetrics (statusTime currentTime : TimePoint)

def call (m : NeighborMetricManager F) : Call F → NeighborMetricManager F
  | .updateNeighborTxMetric dst dataRatebps txTime => m.updateNeighborTxMetric dst dataRatebps txTime
  | .updateNeighborRxMetric src seqNum uuid rxTime channel =>
    m.updateNeighborRxMetric src seqNum uuid rxTime channel
  | .setNeighborDeleteTimeMicroseconds ageMicroseconds =>
    m.setNeighborDeleteTimeMicroseconds ageMicroseconds
  | .updateNeighborStatus currentTime => m.updateNeighborStatus currentTime
  | .getNeighborMetrics statusTime currentTime => (m.getNeighborMetrics statusTime currentTime).2

def Call.isReport : Call F → Bool
  | .updateNeighborStatus _ => true
  | .getNeighborMetrics _ _ => true
  | _ => false

end NeighborMetricManager
end Neighbor
end Emane

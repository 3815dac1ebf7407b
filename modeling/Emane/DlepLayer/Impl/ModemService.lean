import Emane.Lib.SortedMap
import Emane.Packet.Impl.Packet

/-!
This module contains the modem service of the DLEP layer: reports about neighbours come up from
the radio model, and the DLEP client is told which destinations are up.
-/

namespace Emane
namespace DlepLayer

structure NeighborMetric where
  id : NEMId
  rxAvgDataRate : Nat
  txAvgDataRate : Nat
  deriving DecidableEq

inductive Message where
  | neighborMetric (metrics : List NeighborMetric)
  | queueMetric (avgDelays : List Nat)
  | selfMetric (maxDataRate : Nat)
  | flowControl
  deriving DecidableEq

structure DataRateMetricInfo where
  maxDataRateRx : Nat := 0
  maxDataRateTx : Nat := 0
  currentDataRateRx : Nat := 0
  currentDataRateTx : Nat := 0
  deriving DecidableEq

structure DestinationMetricInfo where
  dataRateInfo : DataRateMetricInfo := {}
  latency : Nat := 0
  resources : Nat := 0
  deriving DecidableEq

structure NeighborInfo where
  lastTxDataRate : Nat := 0
  lastRxDataRate : Nat := 0
  metrics : DestinationMetricInfo := {}
  macAddress : Bytes
  deriving DecidableEq

inductive Call where
  | peerUpdate (metrics : DataRateMetricInfo)
  | destinationUp (nbr : NEMId) (macAddress : Bytes) (metrics : DestinationMetricInfo)
  | destinationUpdate (nbr : NEMId) (macAddress : Bytes) (metrics : DestinationMetricInfo)
  | destinationDown (nbr : NEMId) (macAddress : Bytes)
  deriving DecidableEq

inductive Outcome where
  | success
  | failure
  | exception
  deriving DecidableEq

structure Config where
  destinationAdvertisementEnable : Bool
  nemEtherAddrMap : SortedMap NEMId Bytes
  etherOUI : Bytes
  knowsMetrics : Bool

structure ModemService where
  selfMetrics : DataRateMetricInfo := {}
  avgQueueDelayMicroseconds : Nat := 0
  currentNeighbors : SortedMap NEMId NeighborInfo := .empty
  calls : List Call := []

namespace ModemService

variable (cfg : Config) (client : Nat → Outcome)

def getEthernetAddress (nbr : NEMId) : Bytes :=
  if cfg.destinationAdvertisementEnable then
    BigEndian.digits 2 nbr.toNat
  else
    (cfg.nemEtherAddrMap.find? nbr).getD (cfg.etherOUI.take 4 ++ BigEndian.digits 2 nbr.toNat)

def call (c : Call) (s : ModemService) : ModemService × Bool :=
  -- What the client does with a call can depend on all calls before it. Returns if an exception is
  -- thrown.
  ({ s with calls := s.calls ++ [c] }, client s.calls.length = .exception)

def sendPeerUpdate (s : ModemService) : ModemService × Bool :=
  if cfg.knowsMetrics then s.call client (.peerUpdate s.selfMetrics) else (s, true)

def sendDestinationUpdate (nbr : NEMId) (nbrInfo : NeighborInfo) (isNewNbr : Bool)
    (s : ModemService) : ModemService × Bool :=
  if cfg.knowsMetrics then
    if isNewNbr then
      s.call client (.destinationUp nbr nbrInfo.macAddress nbrInfo.metrics)
    else
      s.call client (.destinationUpdate nbr nbrInfo.macAddress nbrInfo.metrics)
  else
    (s, true)

def sendDestinationDown (nbr : NEMId) (nbrInfo : NeighborInfo) (s : ModemService) : ModemService × Bool :=
  s.call client (.destinationDown nbr nbrInfo.macAddress)

def newNeighbor (metric : NeighborMetric) (s : ModemService) : NeighborInfo where
  macAddress := getEthernetAddress cfg metric.id
  lastRxDataRate :=
    if metric.rxAvgDataRate ≠ 0 then metric.rxAvgDataRate else s.selfMetrics.currentDataRateRx
  lastTxDataRate :=
    if metric.rxAvgDataRate ≠ 0 then metric.rxAvgDataRate else s.selfMetrics.currentDataRateRx

def updateNeighbor (metric : NeighborMetric) (nbrInfo : NeighborInfo) : NeighborInfo :=
  { nbrInfo with
    lastRxDataRate := if metric.rxAvgDataRate > 0 then metric.rxAvgDataRate else nbrInfo.lastRxDataRate
    lastTxDataRate := if metric.txAvgDataRate > 0 then metric.txAvgDataRate else nbrInfo.lastTxDataRate
  }

def destinationMetrics (nbrInfo : NeighborInfo) (s : ModemService) : DestinationMetricInfo where
  dataRateInfo := {
    currentDataRateRx := nbrInfo.lastRxDataRate
    currentDataRateTx := nbrInfo.lastTxDataRate
    maxDataRateRx := s.selfMetrics.maxDataRateRx
    maxDataRateTx := s.selfMetrics.maxDataRateTx
  }
  latency := s.avgQueueDelayMicroseconds
  resources := 50

def handleMetric (metric : NeighborMetric) (s : ModemService) : ModemService × Bool :=
  let found := s.currentNeighbors.find? metric.id
  let nbrInfo :=
    match found with
    | none => s.newNeighbor cfg metric
    | some nbrInfo => updateNeighbor metric nbrInfo
  let nbrInfo := { nbrInfo with metrics := s.destinationMetrics nbrInfo }
  let s := { s with currentNeighbors := s.currentNeighbors.set metric.id nbrInfo }
  s.sendDestinationUpdate cfg client metric.id nbrInfo found.isNone

def handleMetrics (s : ModemService) (delNeighbors : SortedMap NEMId NeighborInfo)
    : List NeighborMetric → ModemService × SortedMap NEMId NeighborInfo × Bool
  -- An exception leaves the loop. A neighbour that is still active is not deleted, and a new one
  -- is not among those to delete.
  | [] => (s, delNeighbors, false)
  | metric :: metrics =>
    let (s, thrown) := s.handleMetric cfg client metric
    let delNeighbors := delNeighbors.erase metric.id
    if thrown then (s, delNeighbors, true) else handleMetrics s delNeighbors metrics

def removeNeighbors (s : ModemService) : List (NEMId × NeighborInfo) → ModemService × Bool
  | [] => (s, false)
  | (nbr, nbrInfo) :: delNeighbors =>
    let (s, thrown) := s.sendDestinationDown client nbr nbrInfo
    if thrown then
      (s, true)
    else
      removeNeighbors { s with currentNeighbors := s.currentNeighbors.erase nbr } delNeighbors

def handleNeighborMetric (metrics : List NeighborMetric) (s : ModemService) : ModemService × Bool :=
  let (s, delNeighbors, thrown) := s.handleMetrics cfg client s.currentNeighbors metrics
  if thrown then (s, true) else s.removeNeighbors client delNeighbors.toList

def handleQueueMetric (avgDelays : List Nat) (s : ModemService) : ModemService :=
  { s with avgQueueDelayMicroseconds := if avgDelays.length ≠ 0
    then avgDelays.sum % 2^64 / avgDelays.length else 0 }

def handleSelfMetric (maxDataRate : Nat) (s : ModemService) : ModemService × Bool :=
  let s := { s with selfMetrics := ⟨maxDataRate, maxDataRate, maxDataRate, maxDataRate⟩ }
  s.sendPeerUpdate cfg client

def handleMessage (s : ModemService) : Message → ModemService × Bool
  | .neighborMetric metrics => s.handleNeighborMetric cfg client metrics
  | .queueMetric avgDelays => (s.handleQueueMetric avgDelays, false)
  | .selfMetric maxDataRate => s.handleSelfMetric cfg client maxDataRate
  | .flowControl => (s, false)

def handleControlMessages (s : ModemService) : List Message → ModemService
  -- exceptions are caught outside the loop, the messages behind are not handled then
  | [] => s
  | msg :: msgs =>
    let (s, thrown) := s.handleMessage cfg client msg
    if thrown then s else handleControlMessages s msgs

end ModemService
end DlepLayer
end Emane

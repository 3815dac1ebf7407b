import Mathlib.Algebra.Order.Ring.NNRat
import Mathlib.Data.Rat.Floor
import Mathlib.Data.Prod.Lex
import Emane.Lib.SortedMap
import Emane.Packet.Impl.Packet

/-!
This module contains the shim that gives the packets of each source a latency, a loss and a bit
rate. Times are exact numbers of seconds since the epoch, and so are the results of casts between
them.
-/

namespace Emane
namespace CommEffect

def REGISTERED_EMANE_PHY_COMM_EFFECT : RegistrationId :=
  0x0005

inductive DropCode where
  | discard
  | groupId
  | registrationId
  | dstMac
  | badMsg
  | noProfileData
  | rxBuff
  deriving DecidableEq

structure Effect where
  latency : ℚ
  jitter : Nat
  probabilityLoss : ℚ
  probabilityDuplicate : ℚ
  unicastBitRate : Nat
  broadcastBitRate : Nat
  deriving DecidableEq

structure ShimHeader where
  txTime : NNRat
  groupId : UInt32
  deriving DecidableEq

structure ReceivedPacket where
  source : NEMId
  destination : NEMId
  registrationId : RegistrationId
  header : Option ShimHeader
  length : Nat
  deriving DecidableEq

structure Draws where
  loss : ℚ
  duplicate : ℚ
  jitter : Nat → Nat

structure Arrival where
  packet : ReceivedPacket
  beginTime : NNRat
  profileData : Option Effect
  draws : Draws

abbrev EORTimeMap := SortedMap NEMId NNRat

structure Shim where
  id : NEMId
  bDefaultConnectivity : Bool
  bEnablePromiscuousMode : Bool
  bEnableTightTimingMode : Bool
  groupId : UInt32
  receiveBufferPeriod : ℚ
  deriving DecidableEq

inductive Outcome where
  | dropped (code : DropCode)
  | sent
  | scheduled (timeouts : List ℚ)
  deriving DecidableEq

def getTaskCount (loss dups : ℚ) (draws : Draws) : Nat :=
  let count : Nat :=
    if loss < 100 then (if loss > 0 then (if draws.loss ≥ loss then 1 else 0) else 1) else 0
  if count ≠ 0 then
    let (count, dups) := if dups ≥ 100
      then (⌊(count : ℚ) + dups / 100⌋.toNat, dups - 100 * ⌊dups / 100⌋) else (count, dups)
    if dups > 0 ∧ dups < 100 ∧ draws.duplicate ≤ dups then count + 1 else count
  else
    0

def randomize (duration roll : Nat) : Int :=
  if duration ≠ 0 then (roll % (2 * duration) : Nat) - (duration : Int) else 0

def Arrival.rxInterval (a : Arrival) (effect : Effect) : NNRat :=
  let bitRate := if a.packet.destination = NEM_BROADCAST_MAC_ADDRESS then effect.broadcastBitRate
    else effect.unicastBitRate
  if bitRate = 0 then 0 else (a.packet.length * 8) / bitRate

namespace Shim

variable (shim : Shim)

def checkHeader (packet : ReceivedPacket) : Except DropCode ShimHeader :=
  if packet.registrationId ≠ REGISTERED_EMANE_PHY_COMM_EFFECT then
    .error .registrationId
  else
    match packet.header with
    | none => .error .badMsg
    | some header =>
      if ¬shim.bEnablePromiscuousMode ∧ packet.destination ≠ NEM_BROADCAST_MAC_ADDRESS
          ∧ shim.id ≠ packet.destination then
        .error .dstMac
      else if header.groupId ≠ shim.groupId then
        .error .groupId
      else
        .ok header

def timeouts (a : Arrival) (effect : Effect) (header : ShimHeader) (eorTime : NNRat) : List ℚ :=
  (List.range (getTaskCount effect.probabilityLoss effect.probabilityDuplicate a.draws)).map (fun n =>
    let tpTimeout := effect.latency + randomize effect.jitter (a.draws.jitter n) / 1000000 + eorTime
    if shim.bEnableTightTimingMode then tpTimeout - (a.beginTime - header.txTime) else tpTimeout)

def applyEffect (eorTimeMap : EORTimeMap) (a : Arrival) (effect : Effect) (header : ShimHeader)
    : EORTimeMap × Outcome :=
  let optionalEORTime := eorTimeMap.find? a.packet.source
  if shim.receiveBufferPeriod ≠ 0 ∧ ∃ eorTime ∈ optionalEORTime,
      (eorTime : ℚ) - a.beginTime > shim.receiveBufferPeriod then
    (eorTimeMap, .dropped .rxBuff)
  else
    -- without history the time is the epoch
    let previous := optionalEORTime.getD 0
    let eorTime := if previous > a.beginTime then previous + a.rxInterval effect else a.beginTime
      + a.rxInterval effect
    let timeouts := shim.timeouts a effect header eorTime
    (eorTimeMap.set a.packet.source eorTime,
      if timeouts.isEmpty then .dropped .discard else .scheduled timeouts)

def processUpstreamPacket (eorTimeMap : EORTimeMap) (a : Arrival) : EORTimeMap × Outcome :=
  match shim.checkHeader a.packet with
  | .error code => (eorTimeMap, .dropped code)
  | .ok header =>
    match a.profileData with
    | none => (eorTimeMap, if shim.bDefaultConnectivity then .sent else .dropped .noProfileData)
    | some effect => shim.applyEffect eorTimeMap a effect header

end Shim

structure Task where
  arrival : Arrival
  timeout : ℚ

structure ShimState where
  eorTimeMap : EORTimeMap
  log : List (Arrival × Outcome)
  pending : List Task
  released : List Task

namespace ShimState

def init : ShimState where
  eorTimeMap := .empty
  log := []
  pending := []
  released := []

def schedule (pending : List Task) (task : Task) : List Task :=
  pending.takeWhile (fun other => other.timeout ≤ task.timeout) ++ task :: pending.dropWhile
    (fun other => other.timeout ≤ task.timeout)

def tasks (a : Arrival) (outcome : Outcome) : List Task :=
  match outcome with
  | .scheduled timeouts => timeouts.map (fun timeout => ⟨a, timeout⟩)
  | _ => []

inductive Action where
  | receive (a : Arrival)
  | expire (now : ℚ)

def step (shim : Shim) (s : ShimState) : Action → Option ShimState
  | .receive a =>
    let (eorTimeMap, outcome) := shim.processUpstreamPacket s.eorTimeMap a
    some { s with eorTimeMap := eorTimeMap, log := s.log ++ [(a, outcome)], pending :=
      (tasks a outcome).foldl schedule s.pending }
  | .expire now =>
    match s.pending with
    | [] => none
    | task :: pending => if task.timeout ≤ now
      then some { s with pending := pending, released := s.released ++ [task] } else none

end ShimState
end CommEffect
end Emane

import Mathlib.Algebra.Group.Defs
import Mathlib.Algebra.Group.Int.Defs
import Mathlib.Algebra.GroupWithZero.Nat
import Mathlib.Order.Nat
import Emane.Lib.SortedMap

/-!
This module contains the noise recorder, which adds up the power of receptions in bins of time.
Positions on its wheel are converted to an unsigned type, a negative one is larger than any wheel.
-/

namespace Emane
namespace Spectrum

structure Wheel (α : Type u) where
  size : Nat
  store : List α
  length_store : store.length = size

namespace Wheel

variable {α : Type u}

def init [Zero α] (size : Nat) : Wheel α where
  size := size
  store := List.replicate size 0
  length_store := by simp

def modifyRange (f : α → α) (first last : Nat) (store : List α) : List α :=
  store.mapIdx (fun i x => if first ≤ i ∧ i < last then f x else x)

@[simp]
theorem length_modifyRange (f : α → α) (first last : Nat) (store : List α)
    : (modifyRange f first last store).length = store.length := by
  simp [modifyRange]

def modify (f : α → α) (w : Wheel α) (begin slots : Nat) : Wheel α :=
  let remainder := if begin + slots > w.size then (begin + slots) % w.size else 0
  {
    size := w.size
    store := modifyRange f 0 remainder (modifyRange f begin (begin + slots - remainder) w.store)
    length_store := by simp [w.length_store]
  }

def Valid (w : Wheel α) (begin slots : Int) : Prop :=
  (0 ≤ slots ∧ slots ≤ w.size) ∧ 0 ≤ begin ∧ begin < w.size

instance (w : Wheel α) (begin slots : Int) : Decidable (w.Valid begin slots) :=
  inferInstanceAs (Decidable (_ ∧ _))

def set (w : Wheel α) (begin slots : Int) (value : α) : Option (Wheel α) :=
  if w.Valid begin slots then some (w.modify (fun _ => value) begin.toNat slots.toNat) else none

def add [Add α] (w : Wheel α) (begin slots : Int) (value : α) : Option (Wheel α) :=
  if w.Valid begin slots then some (w.modify (fun x => x + value) begin.toNat slots.toNat) else none

def get (w : Wheel α) (begin slots : Int) : Option (List α) :=
  if w.Valid begin slots ∧ slots ≠ 0 then
    let begin := begin.toNat
    let slots := slots.toNat
    if slots - 1 ≤ begin then
      some ((w.store.drop (begin + 1 - slots)).take slots)
    else
      let remainder := slots - begin - 1
      some ((w.store.drop (w.size - remainder)).take remainder ++ w.store.take (begin + 1))
  else
    none

end Wheel

abbrev NEMId := Nat
abbrev Microseconds := Nat

abbrev TimePoint := Int

structure NoiseRecorderConfig where
  bin : Microseconds
  maxOffset : Microseconds
  maxPropagation : Microseconds
  maxDuration : Microseconds
  bin_pos : 0 < bin
  maxDuration_pos : 0 < maxDuration
  divisible : (maxOffset + maxPropagation + 2 * maxDuration) % bin = 0

namespace NoiseRecorderConfig

def totalWindowBins (cfg : NoiseRecorderConfig) : Nat :=
  cfg.maxDuration / cfg.bin

def totalWheelBins (cfg : NoiseRecorderConfig) : Nat :=
  (cfg.maxOffset + cfg.maxPropagation + 2 * cfg.maxDuration) / cfg.bin

def timepointToBin (cfg : NoiseRecorderConfig) (tp : TimePoint) (adjust : Bool) : Int :=
  let count := tp.tdiv 1000
  if count = 0 then
    0
  else
    count.tdiv cfg.bin - (if adjust && count.tmod cfg.bin = 0 then 1 else 0)

def binToTimepoint (cfg : NoiseRecorderConfig) (b : Int) : TimePoint :=
  b * cfg.bin * 1000

end NoiseRecorderConfig

structure Reception (P : Type u) where
  now : TimePoint
  txTime : TimePoint
  offset : Microseconds
  propagation : Microseconds
  duration : Microseconds
  rxPower : P
  transmitters : List NEMId

namespace Reception

variable {P : Type u}

def startOfReception (u : Reception P) : TimePoint :=
  u.txTime + u.offset * 1000 + u.propagation * 1000

def endOfReception (u : Reception P) : TimePoint :=
  u.startOfReception + u.duration * 1000

def reportedStartOfReceptionBin (cfg : NoiseRecorderConfig) (u : Reception P) : Int :=
  cfg.timepointToBin u.startOfReception false

def endOfReceptionBin (cfg : NoiseRecorderConfig) (u : Reception P) : Int :=
  cfg.timepointToBin u.endOfReception true

end Reception

structure NoiseRecorder (P : Type u) where
  cfg : NoiseRecorderConfig
  wheel : Wheel P
  maxEndOfReceptionBin : Int
  minStartOfReceptionBin : Int
  nemEoRBinMap : SortedMap NEMId Int

namespace NoiseRecorder

variable {P : Type u}

def init [Zero P] (cfg : NoiseRecorderConfig) : NoiseRecorder P where
  cfg := cfg
  wheel := .init cfg.totalWheelBins
  maxEndOfReceptionBin := 0
  minStartOfReceptionBin := 0
  nemEoRBinMap := .empty

def maxEoRBin (r : NoiseRecorder P) (transmitters : List NEMId) : Int :=
  transmitters.foldl
    (fun bin transmitter =>
      match r.nemEoRBinMap.find? transmitter with
      | some eorBin => max eorBin bin
      | none => bin)
    0

def startOfReceptionBin (r : NoiseRecorder P) (u : Reception P) : Int :=
  let reported := u.reportedStartOfReceptionBin r.cfg
  let maxEoRBin := r.maxEoRBin u.transmitters
  if maxEoRBin ≥ reported then maxEoRBin + 1 else reported

def resetIfIdle (r : NoiseRecorder P) (nowBin : Int) : NoiseRecorder P :=
  if nowBin - r.maxEndOfReceptionBin > r.cfg.totalWheelBins then
    { r with maxEndOfReceptionBin := 0, minStartOfReceptionBin := 0 }
  else
    r

def beforeDurationCount (r : NoiseRecorder P) (startBin endBin : Int) : Int :=
  if startBin < r.minStartOfReceptionBin then
    min (r.minStartOfReceptionBin - startBin) (endBin - startBin + 1)
  else
    0

def afterDurationCount (r : NoiseRecorder P) (startBin endBin : Int) : Int :=
  if endBin > r.maxEndOfReceptionBin then
    min (endBin - r.maxEndOfReceptionBin) (endBin - startBin + 1)
  else
    0

def remainderBinCount (r : NoiseRecorder P) (startBin endBin : Int) : Int :=
  endBin - startBin + 1 - (r.beforeDurationCount startBin endBin + r.afterDurationCount startBin endBin)

section

variable [Zero P] [Add P] (r : NoiseRecorder P) (startBin endBin : Int) (rxPower : P) (wheel : Wheel P)

def setBefore : Option (Wheel P) :=
  if startBin < r.minStartOfReceptionBin then
    wheel.set (startBin.tmod r.cfg.totalWheelBins) (r.beforeDurationCount startBin endBin) rxPower
  else
    some wheel

def setAfter : Option (Wheel P) :=
  if endBin > r.maxEndOfReceptionBin then
    let startIndex := startBin.tmod r.cfg.totalWheelBins
    let afterDurationCount := r.afterDurationCount startBin endBin
    wheel.set ((startIndex + (endBin - startBin + 1) - afterDurationCount).tmod
      r.cfg.totalWheelBins) afterDurationCount rxPower
  else
    some wheel

def addRemainder : Option (Wheel P) :=
  let startIndex := startBin.tmod r.cfg.totalWheelBins
  if r.remainderBinCount startBin endBin ≠ 0 then
    -- accumulate bins up to and including maxEndOfReceptionBin
    wheel.add ((startIndex + r.beforeDurationCount startBin endBin).tmod r.cfg.totalWheelBins)
      (r.remainderBinCount startBin endBin) rxPower
  else if r.beforeDurationCount startBin endBin ≠ 0 then
    -- clear any gaps
    wheel.set ((startIndex + (endBin - startBin + 1)).tmod r.cfg.totalWheelBins)
      (r.minStartOfReceptionBin - endBin - 1) 0
  else
    wheel.set ((r.maxEndOfReceptionBin + 1).tmod r.cfg.totalWheelBins)
      (startBin - r.maxEndOfReceptionBin - 1) 0

end

def fill [Zero P] [Add P] (r : NoiseRecorder P) (startBin endBin : Int) (rxPower : P)
    : Option (NoiseRecorder P) :=
  if r.maxEndOfReceptionBin = 0 ∧ r.minStartOfReceptionBin = 0 then do
    -- we can fill the entire duration
    let wheel ← r.wheel.set (startBin.tmod r.cfg.totalWheelBins) (endBin - startBin + 1) rxPower
    return { r with wheel := wheel, minStartOfReceptionBin := startBin, maxEndOfReceptionBin := endBin }
  else do
    let wheel ← r.setBefore startBin endBin rxPower r.wheel
    let wheel ← r.setAfter startBin endBin rxPower wheel
    let wheel ← r.addRemainder startBin endBin rxPower wheel
    return { r with
      wheel := wheel
      minStartOfReceptionBin :=
        if r.beforeDurationCount startBin endBin ≠ 0 then startBin else r.minStartOfReceptionBin
      maxEndOfReceptionBin :=
        if r.afterDurationCount startBin endBin ≠ 0 then endBin else r.maxEndOfReceptionBin }

def recordEoR (r : NoiseRecorder P) (transmitters : List NEMId) (endBin : Int) : NoiseRecorder P :=
  { r with nemEoRBinMap :=
    transmitters.foldl (fun m transmitter => m.set transmitter endBin) r.nemEoRBinMap }

def update [Zero P] [Add P] (r : NoiseRecorder P) (u : Reception P)
    : Option ((TimePoint × TimePoint) × NoiseRecorder P) :=
  let startBin := r.startOfReceptionBin u
  let endBin := u.endOfReceptionBin r.cfg
  let times := (u.startOfReception, u.endOfReception)
  -- sanity check after any possible adjustments
  if startBin ≤ endBin then do
    let r' ← (r.resetIfIdle (r.cfg.timepointToBin u.now false)).fill startBin endBin u.rxPower
    return (times, r'.recordEoR u.transmitters endBin)
  else
    return (times, r)

section

variable [Zero P] [Add P] (r : NoiseRecorder P)

def partlyFilled (startBin endBin : Int) (rxPower : P) : Wheel P :=
  -- what has been written when the wheel raises an exception
  if r.maxEndOfReceptionBin = 0 ∧ r.minStartOfReceptionBin = 0 then
    r.wheel
  else
    match r.setBefore startBin endBin rxPower r.wheel with
    | none => r.wheel
    | some wheel => (r.setAfter startBin endBin rxPower wheel).getD wheel

def interrupted (u : Reception P) : NoiseRecorder P :=
  let r' := r.resetIfIdle (r.cfg.timepointToBin u.now false)
  { r' with wheel := r'.partlyFilled (r.startOfReceptionBin u) (u.endOfReceptionBin r.cfg) u.rxPower }

end

structure Query where
  now : TimePoint
  duration : Microseconds
  startTime : Option TimePoint

namespace Query

def nowBin (cfg : NoiseRecorderConfig) (q : Query) : Int :=
  cfg.timepointToBin q.now true

def minStartOfWindowTime (cfg : NoiseRecorderConfig) (q : Query) : TimePoint :=
  cfg.binToTimepoint (q.nowBin cfg - cfg.totalWindowBins + 1)

def validStartTime (cfg : NoiseRecorderConfig) (q : Query) : TimePoint :=
  q.startTime.getD (q.minStartOfWindowTime cfg)

def startTimeBin (cfg : NoiseRecorderConfig) (q : Query) : Int :=
  cfg.timepointToBin (q.validStartTime cfg) false

def endTime (cfg : NoiseRecorderConfig) (q : Query) : TimePoint :=
  if q.duration ≠ 0 then q.validStartTime cfg + q.duration * 1000 else q.now

def endTimeBin (cfg : NoiseRecorderConfig) (q : Query) : Int :=
  cfg.timepointToBin (q.endTime cfg) true

def check (cfg : NoiseRecorderConfig) (q : Query) : Except String Unit :=
  if q.startTime.any (· < q.minStartOfWindowTime cfg) then
    throw "window start time too far in the past"
  else if q.startTime.any (· > q.now) then
    throw "window start time in the future"
  else if q.duration ≠ 0 ∧ q.endTime cfg > q.now then
    throw "window end time in the future"
  else if cfg.binToTimepoint (q.startTimeBin cfg) < q.minStartOfWindowTime cfg then
    throw "window start time invalid"
  else
    return ()

end Query

def readRemainder (r : NoiseRecorder P) (startTimeBin endTimeBin : Int) : Option (List P) :=
  if r.remainderBinCount startTimeBin endTimeBin ≠ 0 then
    r.wheel.get ((endTimeBin - r.afterDurationCount startTimeBin endTimeBin).tmod r.cfg.totalWheelBins)
      (r.remainderBinCount startTimeBin endTimeBin)
  else
    some []

def read [Zero P] (r : NoiseRecorder P) (startTimeBin endTimeBin : Int) : Option (List P) :=
  if r.maxEndOfReceptionBin ≠ 0 ∧ r.minStartOfReceptionBin ≠ 0 then do
    let afterDurationCount := r.afterDurationCount startTimeBin endTimeBin
    let beforeDurationCount := r.beforeDurationCount startTimeBin endTimeBin
    let window ← r.readRemainder startTimeBin endTimeBin
    return List.replicate beforeDurationCount.toNat 0 ++ window
      ++ List.replicate afterDurationCount.toNat 0
  else
    -- fill in window with 0
    some (List.replicate (endTimeBin - startTimeBin + 1).toNat 0)

def get [Zero P] (r : NoiseRecorder P) (q : Query) : Except String (List P × TimePoint) :=
  match q.check r.cfg with
  | .error what => .error what
  | .ok () =>
    match r.read (q.startTimeBin r.cfg) (q.endTimeBin r.cfg) with
    | some window => .ok (window, r.cfg.binToTimepoint (q.startTimeBin r.cfg))
    | none => .error "window internal access error"

end NoiseRecorder
end Spectrum
end Emane

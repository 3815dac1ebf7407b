import Mathlib.Algebra.Ring.Int.Defs
import Emane.Spectrum.Impl.NoiseRecorder
import Emane.Lib.Memory

/-!
This module contains the spectrum monitor as a whole: a noise recorder for every frequency of
interest, the cache of the overlaps of transmitters with receivers, and the way in which a message
is checked, recorded and reported. A monitor that never looks at its cache, and computes each
overlap when a segment arrives, is what the cache is there to save.
-/

namespace Emane
namespace Spectrum

structure SpectrumMonitorConfig extends NoiseRecorderConfig where
  timeSyncThreshold : Microseconds
  maxClamp : Bool

namespace SpectrumMonitorConfig

variable {P : Type u} (cfg : SpectrumMonitorConfig)

def Admitted (u : Reception P) : Prop :=
  (u.txTime ≤ u.now + cfg.timeSyncThreshold * 1000 ∧ u.now - u.txTime ≤ cfg.timeSyncThreshold * 1000)
    ∧ u.propagation ≤ cfg.maxPropagation
    ∧ u.offset ≤ cfg.maxOffset
    ∧ u.duration ≤ cfg.maxDuration

instance (u : Reception P) : Decidable (cfg.Admitted u) :=
  inferInstanceAs (Decidable (_ ∧ _))

end SpectrumMonitorConfig

namespace NoiseRecorder

variable {P : Type u}

inductive Call (P : Type u) where
  | update (u : Reception P)
  | get (q : Query)

def Call.now : Call P → TimePoint
  | .update u => u.now
  | .get q => q.now

def Call.Admitted (cfg : SpectrumMonitorConfig) : Call P → Prop
  | .update u => cfg.Admitted u
  | .get q => q.duration ≤ cfg.maxDuration

instance (cfg : SpectrumMonitorConfig) (c : Call P) : Decidable (c.Admitted cfg) :=
  match c with
  | .update u => inferInstanceAs (Decidable (cfg.Admitted u))
  | .get q => inferInstanceAs (Decidable (q.duration ≤ cfg.maxDuration))

def call [Zero P] [Add P] (r : NoiseRecorder P) : Call P → Option (NoiseRecorder P)
  | .update u => (r.update u).map (fun res => res.2)
  | .get q =>
    match q.check r.cfg with
    | .error _ => some r
    | .ok () => (r.read (q.startTimeBin r.cfg) (q.endTimeBin r.cfg)).map (fun _ => r)

end NoiseRecorder

class Double (P : Type u) extends Zero P, One P, Add P, Sub P, Mul P, Div P, NatCast P, LE P, LT P where
  decidableLE : DecidableLE P
  decidableLT : DecidableLT P
  MILLIWATT_TO_DB : P → P

attribute [reducible, instance] Double.decidableLE Double.decidableLT

def Double.log10 : Nat → Nat → Int
  | 0, _ => 0
  | k + 1, n => if n < 10 then 0 else log10 k (n / 10) + 1

scoped instance Double.instInt : Double Int where
  decidableLE := inferInstance
  decidableLT := inferInstance
  MILLIWATT_TO_DB milliWatt := 10 * log10 milliWatt.toNat milliWatt.toNat

section

variable {P : Type u} [Double P]

def frequencyOverlapRatio (frequencyHz₁ bandwidthHz₁ frequencyHz₂ bandwidthHz₂ : Nat) : P :=
  let upper₁ : P := (frequencyHz₁ : P) + (bandwidthHz₁ : P) / ((2 : Nat) : P)
  let lower₁ : P := (frequencyHz₁ : P) - (bandwidthHz₁ : P) / ((2 : Nat) : P)
  let upper₂ : P := (frequencyHz₂ : P) + (bandwidthHz₂ : P) / ((2 : Nat) : P)
  let lower₂ : P := (frequencyHz₂ : P) - (bandwidthHz₂ : P) / ((2 : Nat) : P)
  -- signal is somewhere in band
  if lower₂ < upper₁ ∧ upper₂ > lower₁ then
    if lower₂ ≥ lower₁ then
      if upper₂ ≤ upper₁ then
        1
      else
        (upper₁ - lower₂) / (bandwidthHz₂ : P)
    else
      if upper₂ ≤ upper₁ then
        (upper₂ - lower₁) / (bandwidthHz₂ : P)
      else
        (upper₁ - lower₁) / (bandwidthHz₂ : P)
  else
    0

end

inductive NoiseMode where
  | NONE
  | ALL
  | OUTOFBAND
  deriving DecidableEq

structure FrequencySegment (P : Type u) where
  frequencyHz : Nat
  powerdBm : P
  duration : Microseconds
  offset : Microseconds
  deriving DecidableEq

structure RecorderInfo (P : Type u) where
  recorder : Nat
  overlapRatio : P
  frequencyHz : Nat
  deriving DecidableEq

abbrev Cache (P : Type u) := SortedMap Nat (List (RecorderInfo P))

structure SpectrumMonitor (P : Type u) where
  binSize : Microseconds
  maxOffset : Microseconds
  maxPropagation : Microseconds
  maxDuration : Microseconds
  maxClamp : Bool
  timeSyncThreshold : Microseconds
  transmitterBandwidthCache : SortedMap Nat (Cache P)
  noiseRecorderMap : SortedMap Nat Nat
  receiverBandwidthHz : Nat
  mode : NoiseMode
  receiverSensitivityMilliWatt : P
  heap : Heap (NoiseRecorder P)

structure Message (P : Type u) where
  now : TimePoint
  txTime : TimePoint
  propagationDelay : Microseconds
  segments : List (FrequencySegment P)
  segmentBandwidthHz : Nat
  rxPowersMilliWatt : List P
  inBand : Bool
  transmitters : List NEMId

structure UpdateResult (P : Type u) where
  txTime : TimePoint
  propagationDelay : Microseconds
  span : Int
  segments : List (FrequencySegment P)
  reportAsInBand : Bool
  deriving DecidableEq

structure SpectrumWindow (P : Type u) where
  window : List P
  startTime : TimePoint
  binSize : Microseconds
  receiverSensitivityMilliWatt : P
  signalInNoise : Bool
  deriving DecidableEq

def TimePoint.max : TimePoint := 2^63 - 1

structure Initialization (P : Type u) where
  foi : List Nat
  bandwidthHz : Nat
  receiverSensitivityMilliWatt : P
  mode : NoiseMode
  cfg : SpectrumMonitorConfig

namespace SpectrumMonitor

variable {P : Type u} [Double P]

def new : SpectrumMonitor P where
  binSize := 0
  maxOffset := 0
  maxPropagation := 0
  maxDuration := 0
  maxClamp := false
  timeSyncThreshold := 0
  transmitterBandwidthCache := .empty
  noiseRecorderMap := .empty
  receiverBandwidthHz := 0
  mode := .NONE
  receiverSensitivityMilliWatt := 0
  heap := .empty

def init (m : SpectrumMonitor P) (args : Initialization P) : SpectrumMonitor P :=
  let cleared :=
    { m with
      binSize := args.cfg.bin
      maxOffset := args.cfg.maxOffset
      maxPropagation := args.cfg.maxPropagation
      maxDuration := args.cfg.maxDuration
      maxClamp := args.cfg.maxClamp
      timeSyncThreshold := args.cfg.timeSyncThreshold
      transmitterBandwidthCache := .empty
      noiseRecorderMap := .empty
      receiverBandwidthHz := args.bandwidthHz
      mode := args.mode
      receiverSensitivityMilliWatt := args.receiverSensitivityMilliWatt
      heap := m.noiseRecorderMap.toList.foldl (fun heap entry => heap.free entry.2) m.heap }
  args.foi.foldl
    (fun m frequency =>
      { m with
        noiseRecorderMap := m.noiseRecorderMap.insert frequency m.heap.next
        heap := m.heap.alloc (.init args.cfg.toNoiseRecorderConfig) })
    cleared

def getFrequencies (m : SpectrumMonitor P) : List Nat :=
  m.noiseRecorderMap.toList.map Prod.fst

def limit (m : SpectrumMonitor P) (name : String) (value maximum : Microseconds) (maxName : String)
    : Except String Microseconds :=
  if value > maximum then
    if m.maxClamp then
      return maximum
    else
      throw (name ++ " " ++ toString value ++ " usec > max " ++ maxName ++ " " ++ toString maximum
        ++ " usec and max clamp is off")
  else
    return value

def validTxTime (m : SpectrumMonitor P) (msg : Message P) : TimePoint :=
  if msg.txTime > msg.now + m.timeSyncThreshold * 1000
      ∨ msg.now - msg.txTime > m.timeSyncThreshold * 1000 then
    msg.now
  else
    msg.txTime

def validPropagation (m : SpectrumMonitor P) (msg : Message P) : Except String Microseconds :=
  m.limit "Message propagation" msg.propagationDelay m.maxPropagation "propagation"

def validSegment (m : SpectrumMonitor P) (segment : FrequencySegment P)
    : Except String (Microseconds × Microseconds) := do
  let offset ← m.limit "Segment offset" segment.offset m.maxOffset "offset"
  let duration ← m.limit "Segment duration" segment.duration m.maxDuration "duration"
  return (duration, offset)

structure Report (P : Type u) where
  maxEoR : TimePoint
  minSoR : TimePoint
  segments : List (FrequencySegment P)
  reportAsInBand : Bool

def Report.add (r : Report P) (startOfReception endOfReception : TimePoint)
    (segment : FrequencySegment P) : Report P :=
  { r with
    maxEoR := Max.max r.maxEoR endOfReception
    minSoR := Min.min r.minSoR startOfReception
    segments := r.segments ++ [segment] }

def checkSegments (m : SpectrumMonitor P) (msg : Message P) (txTime : TimePoint)
    (propagation : Microseconds)
    : List (FrequencySegment P) → Nat → Report P → Option (Except String (Report P))
  | [], _, r => some (.ok r)
  | segment :: segments, i, r =>
    if m.noiseRecorderMap.contains segment.frequencyHz then do
      let power ← msg.rxPowersMilliWatt[i]?
      if power ≥ m.receiverSensitivityMilliWatt then
        match m.validSegment segment with
        | .error what => some (.error what)
        | .ok (duration, offset) =>
          let startOfReception := txTime + offset * 1000 + propagation * 1000
          let segment' := ⟨segment.frequencyHz, Double.MILLIWATT_TO_DB power, duration, offset⟩
          checkSegments m msg txTime propagation segments (i + 1)
            (r.add startOfReception (startOfReception + duration * 1000) segment')
      else
        checkSegments m msg txTime propagation segments (i + 1) r
    else
      checkSegments m msg txTime propagation segments i { r with reportAsInBand := false }

def recorderInfo (m : SpectrumMonitor P) (segmentBandwidthHz frequencyHz : Nat) : List (RecorderInfo P) :=
  m.noiseRecorderMap.toList.map (fun entry =>
    ⟨entry.2, frequencyOverlapRatio entry.1 m.receiverBandwidthHz frequencyHz segmentBandwidthHz,
      entry.1⟩)

inductive Raised where
  | service (what : String)
  | indexError
  deriving DecidableEq

structure Marks where
  startOfReception : TimePoint
  endOfReception : TimePoint
  frequencyMatch : Bool
  aboveSensitivity : Bool

def Marks.none : Marks := ⟨0, 0, false, false⟩

/--
The recorders, and what is known of the segment unless a wheel has raised an exception.
-/
abbrev Visit (P : Type u) := Heap (NoiseRecorder P) × Option Marks

def recordPower (sensitivity : P) (u : Reception P) (heap : Heap (NoiseRecorder P)) (marks : Marks)
    (info : RecorderInfo P)
    : Option (Visit P) :=
  -- The power of a segment in the band of a recorder. It is not defined if the pointer is
  -- dangling.
  let overlapRxPower := u.rxPower * info.overlapRatio
  if overlapRxPower ≥ sensitivity then do
    let recorder ← heap.read info.recorder
    let u' := { u with rxPower := overlapRxPower }
    match recorder.update u' with
    | some (times, recorder') =>
      return (heap.write info.recorder recorder',
        some { marks with startOfReception := times.1, endOfReception := times.2, aboveSensitivity := true })
    | none => return (heap.write info.recorder (recorder.interrupted u'), none)
  else
    some (heap, some marks)

def updateRecorder (sensitivity : P) (u : Reception P) (frequencyHz : Nat) (s : Visit P)
    (info : RecorderInfo P)
    : Option (Visit P) :=
  match s with
  | (heap, none) => some (heap, none)
  | (heap, some marks) =>
    if info.overlapRatio > 0 then
      (recordPower sensitivity u heap marks info).map (fun s =>
        (s.1, s.2.map (fun marks =>
          { marks with frequencyMatch := marks.frequencyMatch || info.frequencyHz = frequencyHz })))
    else
      some (heap, some marks)

def updateRecorders (m : SpectrumMonitor P) (u : Reception P) (frequencyHz : Nat)
    (infos : List (RecorderInfo P))
    : Option (Visit P) :=
  infos.foldlM (updateRecorder m.receiverSensitivityMilliWatt u frequencyHz) (m.heap, some .none)

def reception (msg : Message P) (txTime : TimePoint) (propagation duration offset : Microseconds)
    (power : P) : Reception P where
  now := msg.now
  txTime := txTime
  offset := offset
  propagation := propagation
  duration := duration
  rxPower := power
  transmitters := msg.transmitters

def reportSegment (msg : Message P) (segment : FrequencySegment P) (power : P)
    (duration offset : Microseconds) (marks : Marks)
    (r : Report P)
    : Report P :=
  if marks.frequencyMatch then
    let r := if msg.inBand then { r with reportAsInBand := true } else r
    if marks.aboveSensitivity then
      r.add marks.startOfReception marks.endOfReception
        ⟨segment.frequencyHz, Double.MILLIWATT_TO_DB power, duration, offset⟩
    else
      r
  else
    r

abbrev Turn (P : Type u) := Except Raised (Report P) × SpectrumMonitor P

def recordWith (infos : List (RecorderInfo P)) (m : SpectrumMonitor P) (msg : Message P)
    (txTime : TimePoint)
    (propagation : Microseconds) (segment : FrequencySegment P) (power : P) (r : Report P)
    : Option (Turn P) :=
  match m.validSegment segment with
  | .error what => some (.error (.service what), m)
  | .ok (duration, offset) => do
    let (heap, visited) ←
      m.updateRecorders (reception msg txTime propagation duration offset power) segment.frequencyHz infos
    match visited with
    | some marks => return (.ok (reportSegment msg segment power duration offset marks r),
      { m with heap := heap })
    | none => return (.error .indexError, { m with heap := heap })

def cached? (m : SpectrumMonitor P) (segmentBandwidthHz frequencyHz : Nat)
    : Option (List (RecorderInfo P)) :=
  (m.transmitterBandwidthCache.find? segmentBandwidthHz).bind (fun cache => cache.find? frequencyHz)

def insertCache (m : SpectrumMonitor P) (segmentBandwidthHz frequencyHz : Nat)
    (infos : List (RecorderInfo P))
    : SpectrumMonitor P :=
  let cache := (m.transmitterBandwidthCache.find? segmentBandwidthHz).getD .empty
  { m with
    transmitterBandwidthCache :=
      m.transmitterBandwidthCache.set segmentBandwidthHz (cache.insert frequencyHz infos) }

def recordSegment (msg : Message P) (txTime : TimePoint) (propagation : Microseconds)
    (m : SpectrumMonitor P)
    (segment : FrequencySegment P) (power : P) (r : Report P)
    : Option (Turn P) :=
  -- One segment. The recorders come from the cache, or they go there after they have been updated.
  -- The source has the loop over the recorders twice, once for the entries of the cache and once
  -- for those of the map.
  match m.cached? msg.segmentBandwidthHz segment.frequencyHz with
  | some infos => recordWith infos m msg txTime propagation segment power r
  | none => do
    let infos := m.recorderInfo msg.segmentBandwidthHz segment.frequencyHz
    let (res, m') ← recordWith infos m msg txTime propagation segment power r
    match res with
    | .error e => some (.error e, m')
    | .ok r' => some (.ok r', m'.insertCache msg.segmentBandwidthHz segment.frequencyHz infos)

def forSegments (body : SpectrumMonitor P → FrequencySegment P → P → Report P → Option (Turn P))
    : SpectrumMonitor P → List (FrequencySegment P × P) → Report P → Option (Turn P)
  | m, [], r => some (.ok r, m)
  | m, (segment, power) :: rest, r => do
    let (res, m') ← body m segment power r
    match res with
    | .error e => some (.error e, m')
    | .ok r' => forSegments body m' rest r'

def findCache (m : SpectrumMonitor P) (segmentBandwidthHz : Nat) : SpectrumMonitor P :=
  { m with
    transmitterBandwidthCache := m.transmitterBandwidthCache.insert segmentBandwidthHz .empty }

def noise (m : SpectrumMonitor P) (msg : Message P) (txTime : TimePoint)
    (propagation : Microseconds) : Option (Turn P) :=
  forSegments (recordSegment msg txTime propagation) (m.findCache msg.segmentBandwidthHz)
    (msg.segments.zip msg.rxPowersMilliWatt) ⟨0, TimePoint.max, [], false⟩

def isQuiet (m : SpectrumMonitor P) (msg : Message P) : Bool :=
  m.mode = .NONE || (m.mode = .OUTOFBAND && msg.inBand)

def process (noise : TimePoint → Microseconds → Option (Turn P)) (m : SpectrumMonitor P)
    (msg : Message P) (txTime : TimePoint)
    (propagation : Microseconds)
    : Option (Turn P) :=
  if m.isQuiet msg then
    (m.checkSegments msg txTime propagation msg.segments 0 ⟨0, TimePoint.max, [], true⟩).map
      (fun res => (res.mapError .service, m))
  else
    noise txTime propagation

def finish (txTime : TimePoint) (propagation : Microseconds) (r : Report P) : UpdateResult P where
  txTime := txTime
  propagationDelay := propagation
  span := (r.maxEoR - r.minSoR).tdiv 1000
  segments := r.segments
  reportAsInBand := r.reportAsInBand

def updateWith (noise : TimePoint → Microseconds → Option (Turn P)) (m : SpectrumMonitor P)
    (msg : Message P)
    : Option (Except Raised (UpdateResult P) × SpectrumMonitor P) :=
  if msg.segments.length ≠ msg.rxPowersMilliWatt.length then
    some (.ok ⟨0, 0, 0, [], false⟩, m)
  else
    let txTime := m.validTxTime msg
    match m.validPropagation msg with
    | .error what => some (.error (.service what), m)
    | .ok propagation =>
      (process noise m msg txTime propagation).map (fun t => (t.1.map (finish txTime propagation), t.2))

def update (m : SpectrumMonitor P) (msg : Message P)
    : Option (Except Raised (UpdateResult P) × SpectrumMonitor P) :=
  updateWith (m.noise msg) m msg

def request (m : SpectrumMonitor P) (now : TimePoint) (frequencyHz : Nat) (duration : Microseconds)
    (timepoint : Option TimePoint)
    : Option (Except String (SpectrumWindow P)) :=
  -- A window of what has been recorded for a frequency. It is not defined if the pointer is
  -- dangling.
  match m.limit "Segment duration" duration m.maxDuration "duration" with
  | .error what => some (.error what)
  | .ok validDuration =>
    match m.noiseRecorderMap.find? frequencyHz with
    | some address => do
      let recorder ← m.heap.read address
      return (recorder.get ⟨now, validDuration, timepoint⟩).map (fun res =>
        ⟨res.1, res.2, m.binSize, m.receiverSensitivityMilliWatt, m.mode = .ALL⟩)
    | none => some (.ok ⟨[], 0, 0, 0, false⟩)

def recorder? (m : SpectrumMonitor P) (frequencyHz : Nat) : Option (NoiseRecorder P) :=
  (m.noiseRecorderMap.find? frequencyHz).bind m.heap.read

inductive Call (P : Type u) where
  | init (args : Initialization P)
  | update (msg : Message P)
  | request (now : TimePoint) (frequencyHz : Nat) (duration : Microseconds) (timepoint : Option TimePoint)

inductive Answer (P : Type u) where
  | initialized
  | updated (res : Except Raised (UpdateResult P))
  | requested (res : Except String (SpectrumWindow P))

structure Session (P : Type u) where
  monitor : SpectrumMonitor P
  answers : List (Answer P)

def Session.stepWith (update : SpectrumMonitor P → Message P
    → Option (Except Raised (UpdateResult P) × SpectrumMonitor P))
    (s : Session P)
    : Call P → Option (Session P)
  | .init args => some ⟨s.monitor.init args, s.answers ++ [.initialized]⟩
  | .update msg => (update s.monitor msg).map (fun res => ⟨res.2, s.answers ++ [.updated res.1]⟩)
  | .request now frequencyHz duration timepoint =>
    (s.monitor.request now frequencyHz duration timepoint).map
      (fun res => ⟨s.monitor, s.answers ++ [.requested res]⟩)

def Session.step (s : Session P) (call : Call P) : Option (Session P) :=
  s.stepWith SpectrumMonitor.update call

end SpectrumMonitor

namespace Recomputing

open SpectrumMonitor

variable {P : Type u} [Double P]

def recordSegment (msg : Message P) (txTime : TimePoint) (propagation : Microseconds)
    (m : SpectrumMonitor P)
    (segment : FrequencySegment P) (power : P) (r : Report P)
    : Option (Turn P) :=
  recordWith (m.recorderInfo msg.segmentBandwidthHz segment.frequencyHz) m msg txTime propagation
    segment power r

def noise (m : SpectrumMonitor P) (msg : Message P) (txTime : TimePoint)
    (propagation : Microseconds) : Option (Turn P) :=
  forSegments (recordSegment msg txTime propagation) m (msg.segments.zip msg.rxPowersMilliWatt)
    ⟨0, TimePoint.max, [], false⟩

def update (m : SpectrumMonitor P) (msg : Message P)
    : Option (Except Raised (UpdateResult P) × SpectrumMonitor P) :=
  updateWith (noise m msg) m msg

def step (s : Session P) (call : Call P) : Option (Session P) :=
  s.stepWith update call

def forget (m : SpectrumMonitor P) : SpectrumMonitor P :=
  { m with transmitterBandwidthCache := .empty }

def forgetSession (s : Session P) : Session P :=
  ⟨forget s.monitor, s.answers⟩

end Recomputing
end Spectrum
end Emane

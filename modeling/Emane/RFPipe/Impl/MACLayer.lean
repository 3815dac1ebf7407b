import Emane.FlowControl.Impl.Token
import Emane.Packet.Impl.Packet

/-!
This module contains the way of packets down through the RF pipe MAC layer: one packet is pending
until it may be sent, others wait in a queue behind it.
-/

namespace Emane
namespace RFPipe

structure DownstreamQueueEntry where
  pkt : DownstreamPacket
  acquireTime : Int
  durationMicroseconds : Int
  dataRatebps : UInt64
  deriving DecidableEq

namespace DownstreamQueue

def maxQueueSize : Nat := 255

def makeRoom : List DownstreamQueueEntry → List DownstreamQueueEntry × List DownstreamQueueEntry
  | [] => ([], [])
  | entry :: queue =>
    if (entry :: queue).length ≥ maxQueueSize then
      let (result, queue) := makeRoom queue
      (entry :: result, queue)
    else
      ([], entry :: queue)

def enqueue (queue : List DownstreamQueueEntry) (entry : DownstreamQueueEntry)
    : List DownstreamQueueEntry × List DownstreamQueueEntry :=
  let (result, queue) := makeRoom queue
  (result, queue ++ [entry])

end DownstreamQueue

structure Transmission where
  sequenceNumber : Nat
  entry : DownstreamQueueEntry
  pkt : DownstreamPacket
  sot : Int
  deriving DecidableEq

structure TimedEvent where
  sot : Int
  sequenceNumber : Nat
  deriving DecidableEq

structure MACLayer where
  flowControlEnable : Bool
  flowControl : FlowControlManager
  queue : List DownstreamQueueEntry
  pending : Option DownstreamQueueEntry
  currentEndOfTransmissionTime : Int
  currentDelay : Int
  txSequenceNumber : Nat
  timers : List TimedEvent
  arrivals : List DownstreamQueueEntry
  transmissions : List Transmission
  overflow : List DownstreamQueueEntry
  refused : List DownstreamQueueEntry
  responses : List Nat

structure Env where
  now : Nat → Int
  delay : Nat → Int

namespace Env

def next (env : Env) : Env where
  now i := env.now (i + 1)
  delay i := env.delay (i + 1)

end Env

namespace MACLayer

def init (flowControlEnable : Bool) (flowControl : FlowControlManager) : MACLayer where
  flowControlEnable := flowControlEnable
  flowControl := flowControl
  queue := []
  pending := none
  currentEndOfTransmissionTime := 0
  currentDelay := 0
  txSequenceNumber := 0
  timers := []
  arrivals := []
  transmissions := []
  overflow := []
  refused := []
  responses := []

def postStart (flowControlTokens : UInt16) (m : MACLayer) : MACLayer :=
  if m.flowControlEnable then
    let (responses, flowControl) := m.flowControl.start flowControlTokens.toNat
    { m with flowControl := flowControl, responses := m.responses ++ responses }
  else
    m

def addToken (m : MACLayer) : MACLayer :=
  if m.flowControlEnable then
    let (_, responses, flowControl) := m.flowControl.addToken 1
    { m with flowControl := flowControl, responses := m.responses ++ responses }
  else
    m

def schedule (m : MACLayer) : MACLayer :=
  { m with timers := m.timers ++ [⟨m.currentEndOfTransmissionTime, m.txSequenceNumber⟩] }

variable (codec : Codec UInt64)

def prependHeader (entry : DownstreamQueueEntry) : DownstreamPacket :=
  let serialization := codec.encode entry.dataRatebps
  (entry.pkt.prepend serialization).prependLengthPrefixFraming serialization.length

def send (entry : DownstreamQueueEntry) (sot delay : Int) (m : MACLayer) : MACLayer :=
  let m := m.addToken
  { m with
    transmissions := m.transmissions ++ [⟨m.txSequenceNumber, entry, prependHeader codec entry, sot⟩]
    txSequenceNumber := m.txSequenceNumber + 1
    currentDelay := delay
    -- earliest you can send the next packet
    currentEndOfTransmissionTime := sot + entry.durationMicroseconds + delay
  }

def sendPending (env : Env) (sot : Int) (entry : DownstreamQueueEntry) (m : MACLayer)
    : List DownstreamQueueEntry → MACLayer
  | [] => { m.send codec entry sot (env.delay 0) with pending := none, queue := [] }
  | next :: queue =>
    let m := { m.send codec entry sot (env.delay 0) with pending := some next, queue := queue }
    if m.currentEndOfTransmissionTime > env.now 0 then
      m.schedule
    else
      sendPending env.next m.currentEndOfTransmissionTime next m queue

def handleDownstreamQueueEntry (env : Env) (sot : Int) (sequenceNumber : Nat) (m : MACLayer) : MACLayer :=
  let now := env.now 0
  if sequenceNumber = m.txSequenceNumber ∨ (m.pending.isSome ∧ m.currentEndOfTransmissionTime ≤ now) then
    -- the packet that was scheduled to be handled has been, so another one is sent instead
    let sot := if sequenceNumber ≠ m.txSequenceNumber then now else sot
    match m.pending with
    | some entry => m.sendPending codec env sot entry m.queue
    | none => m
  else
    m

def enqueue (entry : DownstreamQueueEntry) (m : MACLayer) : MACLayer :=
  let (result, queue) := DownstreamQueue.enqueue m.queue entry
  result.foldl (fun m dropped => { m with overflow := m.overflow ++ [dropped] }.addToken)
    { m with queue := queue }

def processEntry (env : Env) (now delay : Int) (entry : DownstreamQueueEntry) (m : MACLayer) : MACLayer :=
  match m.pending with
  | some _ =>
    let m := m.enqueue entry
    if m.currentEndOfTransmissionTime ≤ now then
      m.handleDownstreamQueueEntry codec env now m.txSequenceNumber
    else
      m
  | none =>
    let m := { m with pending := some entry }
    if m.currentEndOfTransmissionTime - m.currentDelay ≤ now then
      let m := { m with currentDelay := delay }
      if delay > 0 then
        { m with currentEndOfTransmissionTime := now + delay }.schedule
      else
        m.handleDownstreamQueueEntry codec env now m.txSequenceNumber
    else
      m.schedule

def processDownstreamPacket (env : Env) (now delay : Int) (entry : DownstreamQueueEntry)
    (m : MACLayer) : MACLayer :=
  let m := { m with arrivals := m.arrivals ++ [entry] }
  if m.flowControlEnable then
    let (status, flowControl) := m.flowControl.removeToken
    if status then
      { m with flowControl := flowControl }.processEntry codec env now delay entry
    else
      { m with flowControl := flowControl, refused := m.refused ++ [entry] }
  else
    m.processEntry codec env now delay entry

inductive Input where
  | packet (env : Env) (now delay : Int) (entry : DownstreamQueueEntry)
  | timedEvent (env : Env) (index : Nat)
  | flowControlMessage (tokens : Nat)

def Input.entry? : Input → Option DownstreamQueueEntry
  | .packet _ _ _ entry => some entry
  | _ => none

def Input.NonnegDelays : Input → Prop
  -- the configured delay and the jitter do not add up to a negative number
  | .packet env _ delay _ => 0 ≤ delay ∧ ∀ i, 0 ≤ env.delay i
  | .timedEvent env _ => ∀ i, 0 ≤ env.delay i
  | .flowControlMessage _ => True

def step (m : MACLayer) : Input → Option MACLayer
  | .packet env now delay entry => some (m.processDownstreamPacket codec env now delay entry)
  | .timedEvent env index =>
    m.timers[index]?.map (fun timer =>
      { m with timers := m.timers.eraseIdx index }.handleDownstreamQueueEntry codec env timer.sot
        timer.sequenceNumber)
  | .flowControlMessage tokens =>
    if m.flowControlEnable then
      let (responses, flowControl) := m.flowControl.processFlowControlMessage tokens
      some { m with flowControl := flowControl, responses := m.responses ++ responses }
    else
      some m

end MACLayer
end RFPipe
end Emane

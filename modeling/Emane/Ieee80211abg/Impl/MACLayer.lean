import Emane.Lib.SortedMap
import Emane.FlowControl.Impl.Token
import Emane.Ieee80211abg.Impl.TxState

/-!
This module contains the MAC layer: one packet is pending and goes through the transmission
states, others wait in the queue. It is driven by packets and timers.
-/

namespace Emane
namespace Ieee80211abg

structure Env where
  now : Nat
  test : Nat
  tick : Nat → Tick
  now_le_test : now ≤ test
  test_le_tick : test ≤ (tick 0).start
  tick_le_tick : ∀ k, (tick k).check ≤ (tick (k + 1)).start

structure Timer where
  sequenceNumber : Nat
  time : Nat
  deriving DecidableEq

structure SequenceEntry where
  seq : UInt16
  time : Nat
  deriving DecidableEq

inductive Action where
  | process (txState : TxState) (entry : DownstreamQueueEntry) (time : Nat)
  | transmit (transmission : Transmission)
  | accept (entry : DownstreamQueueEntry)
  | leave (entry : DownstreamQueueEntry) (departure : Departure)
  | dequeue (categories : List AccessCategory) (entry : DownstreamQueueEntry)
  | drop (entry : DownstreamQueueEntry)
  | flowControlError (pkt : DownstreamPacket)
  | flowControl (tokens : Nat)
  | sendUpstreamPacket (pkt : UpstreamPacket)
  deriving DecidableEq

structure MACLayer where
  txState : TxState
  pending : Option DownstreamQueueEntry
  queue : DownstreamQueue
  flowControl : FlowControlManager
  radio : Radio
  timers : List Timer
  duplicateMap : SortedMap NEMId (List SequenceEntry)
  actions : List Action

def MACLayer.init (categories : List AccessCategory) (flowControl : FlowControlManager)
    (entrySequenceNumber : UInt16)
    : MACLayer where
  txState := .idle
  pending := none
  queue := {
    categories := categories
    numUnicastPacketsUnsupported := 0
    numUnicastBytesUnsupported := 0
    numBroadcastPacketsUnsupported := 0
    numBroadcastBytesUnsupported := 0
  }
  flowControl := flowControl
  radio := { sequenceNumber := 0, entrySequenceNumber :=
    entrySequenceNumber, currentEndOfTransmissionTime := 0 }
  timers := []
  duplicateMap := .empty
  actions := []

namespace MACLayer

def act (m : MACLayer) (actions : List Action) : MACLayer :=
  { m with actions := m.actions ++ actions }

section

variable (cfg : MACConfig)

def addToken (m : MACLayer) : MACLayer :=
  if cfg.flowControlEnable then
    let (_, tokens, flowControl) := m.flowControl.addToken 1
    { m with flowControl := flowControl }.act (tokens.map .flowControl)
  else
    m

def removeToken (m : MACLayer) : Bool × MACLayer :=
  if cfg.flowControlEnable then
    let (status, flowControl) := m.flowControl.removeToken
    (status, { m with flowControl := flowControl })
  else
    (true, m)

def next (m : MACLayer) : MACLayer :=
  let (pending, queue) := m.queue.dequeue
  ({ m with pending := pending, queue := queue }.act
    (pending.toList.map (.dequeue m.queue.categories))).addToken cfg

def processEntry (tick : Tick) (entry : DownstreamQueueEntry) (m : MACLayer) : MACLayer :=
  let res := m.txState.process cfg tick entry m.radio
  { m with txState := res.txState, pending := some res.entry, radio := res.radio }.act
    (.process m.txState entry tick.start :: res.transmission.toList.map .transmit)

def processPending (tick : Tick) (entry : DownstreamQueueEntry) (m : MACLayer) : MACLayer :=
  let res := m.txState.process cfg tick entry m.radio
  match res.departure with
  | none => m.processEntry cfg tick entry
  | some departure => ((m.processEntry cfg tick entry).act [.leave res.entry departure]).next cfg

def schedule (time : Nat) (m : MACLayer) : MACLayer :=
  { m with timers := m.timers ++ [⟨m.radio.sequenceNumber, time⟩] }

def turns (st : TxState) (entry : DownstreamQueueEntry) : Nat :=
  let left := entry.maxRetries.toNat - entry.numRetries.toNat
  match st with
  | .idle => 3 * left + 4
  | .broadcastPreTx | .unicastPreTx | .unicastRtsCtsPreTx => 3 * left + 3
  | .broadcastTx | .unicastTx | .unicastRtsCtsTx => 3 * left + 2
  | .broadcastPostTx | .unicastPostTx | .unicastRtsCtsPostTx => 3 * left + 1

def work (m : MACLayer) : Nat :=
  match m.pending with
  | none => 0
  | some entry =>
    turns m.txState entry + (m.queue.categories.map (fun p => (p.queue.map (turns .idle)).sum)).sum

def handleDownstreamQueueEntry.go (env : Env) : Nat → Nat → MACLayer → MACLayer
  | 0, _, m => m
  | fuel + 1, k, m =>
    match m.pending with
    | none => m
    | some entry =>
      let m' := m.processPending cfg (env.tick k) entry
      match m'.pending.bind m'.txState.getWaitTime with
      | some time =>
        if time > (env.tick k).check then m'.schedule time else handleDownstreamQueueEntry.go env
          fuel (k + 1) m'
      | none => handleDownstreamQueueEntry.go env fuel (k + 1) m'

def handleDownstreamQueueEntry (env : Env) (sequenceNumber : Nat) (m : MACLayer) : MACLayer :=
  if sequenceNumber = m.radio.sequenceNumber then
    handleDownstreamQueueEntry.go cfg env m.work 0 m
  else
    m

def dscpToCategory (dscp : UInt8) : Nat :=
  if cfg.wmmEnable then
    if 8 ≤ dscp ∧ dscp ≤ 23 then 1
    else if 32 ≤ dscp ∧ dscp ≤ 47 then 2
    else if 48 ≤ dscp ∧ dscp ≤ 63 then 3
    else 0
  else
    0

def createEntry (now : Nat) (pkt : DownstreamPacket) : DownstreamQueueEntry :=
  let category := dscpToCategory cfg pkt.info.priority
  let maxRetries :=
    if pkt.info.destination = NEM_BROADCAST_MAC_ADDRESS then 0 else cfg.retryLimit category
  { DownstreamQueueEntry.create pkt now (cfg.txOpMicroseconds category) category maxRetries with
    rtsCtsEnable := cfg.rtsThreshold ≠ 0 && cfg.rtsThreshold ≤ pkt.length }

def enqueue (entry : DownstreamQueueEntry) (m : MACLayer) : MACLayer :=
  let (dropped, queue) := m.queue.enqueue entry
  dropped.foldl (fun m e => (m.act [.drop e]).addToken cfg) { m with queue := queue }

def startPending (env : Env) (entry : DownstreamQueueEntry) (m : MACLayer) : MACLayer :=
  let m := { m with pending := some entry }
  match m.txState.getWaitTime entry with
  | some time => m.schedule time
  | none => m.handleDownstreamQueueEntry cfg env m.radio.sequenceNumber

def processDownstreamPacket (env : Env) (pkt : DownstreamPacket) (m : MACLayer) : MACLayer :=
  let (status, m) := m.removeToken cfg
  if status then
    let entry := createEntry cfg env.now pkt
    let m := m.act [.accept entry]
    match m.pending with
    | some _ =>
      let m := m.enqueue cfg entry
      -- check to see if a packet can be sent
      if m.radio.currentEndOfTransmissionTime ≤ env.test then
        m.handleDownstreamQueueEntry cfg env m.radio.sequenceNumber
      else
        m
    | none => m.startPending cfg env entry
  else
    m.act [.flowControlError pkt]

end

def oldest (now : Nat) (history : List SequenceEntry) : Nat :=
  (history.zipIdx.foldl (fun res e => if e.1.time < res.1 then (e.1.time, e.2) else res) (now, 0)).2

def updateHistory (now : Nat) (seq : UInt16) (history : List SequenceEntry) : Bool × List SequenceEntry :=
  match history.findIdx? (fun e => e.seq = seq) with
  | some idx =>
    if (history[idx]?.map (fun e => e.time)).getD 0 + 5000000 ≥ now then
      (true, history)
    else
      (false, history.set idx ⟨seq, now⟩)
  | none =>
    if history.length < 16 then
      (false, history ++ [⟨seq, now⟩])
    else
      (false, history.set (oldest now history) ⟨seq, now⟩)

def isDuplicate (now : Nat) (src : NEMId) (seq : UInt16) (m : MACLayer) : Bool × MACLayer :=
  match m.duplicateMap.find? src with
  | none => (false, { m with duplicateMap := m.duplicateMap.set src [⟨seq, now⟩] })
  | some history =>
    let (duplicate, history) := updateHistory now seq history
    (duplicate, { m with duplicateMap := m.duplicateMap.set src history })

section

variable (cfg : MACConfig)

def answerRts (now : Nat) (params : MACHeaderParams) (m : MACLayer) : MACLayer :=
  if params.messageType = .unicastRtsCtsData ∧ params.dstNEM = cfg.id then
    let info : PacketInfo := {
      source := cfg.id
      destination := NEM_BROADCAST_MAC_ADDRESS
      priority := 0
      creationTime := now
      uuid := .ofByte 0
    }
    let entry := {
      DownstreamQueueEntry.create (.create info []) now (cfg.txOpMicroseconds 0) 0 0 with
      durationMicroseconds := params.durationMicroseconds.toNat
    }
    let sent := sendDownstreamUnicastCts cfg now entry params.srcNEM m.radio
    { m with radio := sent.radio }.act [.transmit sent.transmission]
  else
    m

def received (checks : Nat → Bool) (params : MACHeaderParams) : Bool :=
  (List.range (params.numRetries.toNat + 1)).any checks

def handleData (env : Env) (checks : Nat → Bool) (params : MACHeaderParams) (pkt : UpstreamPacket)
    (m : MACLayer)
    : MACLayer :=
  let (duplicate, m) := m.isDuplicate env.test params.srcNEM params.sequenceNumber
  if duplicate then
    m
  else if received checks params then
    if params.dstNEM ≠ cfg.id ∧ params.dstNEM ≠ NEM_BROADCAST_MAC_ADDRESS ∧ !cfg.promiscuosEnable then
      m
    else
      m.act [.sendUpstreamPacket pkt]
  else
    m

def handleUpstreamPacket (env : Env) (checks : Nat → Bool) (pkt : UpstreamPacket) (m : MACLayer)
    : MACLayer :=
  -- a header that does not parse is an exception
  let (len, pkt) := pkt.stripLengthPrefixFraming
  if len ≠ 0 ∧ pkt.length ≥ len then
    match cfg.headerCodec.decode (pkt.get.take len) with
    | none => m
    | some params =>
      if params.messageType = .unicastCtsCtrl then
        m
      else
        (m.answerRts cfg env.now params).handleData cfg env checks params (pkt.strip len)
  else
    m

def processUpstreamPacket (env : Env) (checks : Nat → Bool) (pkt : UpstreamPacket) (m : MACLayer)
    : MACLayer :=
  match CommonMACHeader.take cfg.commonCodec pkt with
  | none => m
  | some (common, pkt) =>
    if common.registrationId = REGISTERED_EMANE_MAC_IEEE_802_11_ABG then
      m.handleUpstreamPacket cfg env checks pkt
    else
      m

def processFlowControlMessage (tokens : Nat) (m : MACLayer) : MACLayer :=
  if cfg.flowControlEnable then
    let (tokens, flowControl) := m.flowControl.processFlowControlMessage tokens
    { m with flowControl := flowControl }.act (tokens.map .flowControl)
  else
    m

end

inductive Event where
  | downstreamPacket (pkt : DownstreamPacket)
  | timer (index : Nat)
  | upstreamPacket (pkt : UpstreamPacket) (checks : Nat → Bool)
  | flowControlMessage (tokens : Nat)

def step (cfg : MACConfig) (m : MACLayer) (e : Env × Event) : Option MACLayer :=
  match e.2 with
  | .downstreamPacket pkt => some (m.processDownstreamPacket cfg e.1 pkt)
  | .timer index =>
    match m.timers[index]? with
    | some timer =>
      if timer.time ≤ e.1.now then
        some ({ m with timers := m.timers.eraseIdx index }.handleDownstreamQueueEntry cfg e.1
          timer.sequenceNumber)
      else
        none
    | none => none
  | .upstreamPacket pkt checks => some (m.processUpstreamPacket cfg e.1 checks pkt)
  | .flowControlMessage tokens => some (m.processFlowControlMessage cfg tokens)

end MACLayer
end Ieee80211abg
end Emane

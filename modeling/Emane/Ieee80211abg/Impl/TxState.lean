import Emane.Ieee80211abg.Impl.DownstreamQueue

/-!
This module contains the states that a packet goes through when it is sent: a delay before it, the
transmission and a delay behind it. A unicast packet goes through them again if there was a
collision.
-/

namespace Emane
namespace Ieee80211abg

inductive MessageType where
  | none
  | broadcastData
  | unicastData
  | unicastRtsCtsData
  | unicastCtsCtrl
  deriving DecidableEq

structure MACHeaderParams where
  messageType : MessageType
  numRetries : UInt8
  dataRateIndex : UInt16
  sequenceNumber : UInt16
  srcNEM : NEMId
  dstNEM : NEMId
  durationMicroseconds : UInt64
  deriving DecidableEq

def REGISTERED_EMANE_MAC_IEEE_802_11_ABG : RegistrationId := 0x0003

structure MACConfig where
  id : NEMId
  wmmEnable : Bool
  flowControlEnable : Bool
  promiscuosEnable : Bool
  rtsThreshold : Nat
  retryLimit : Nat → UInt8
  txOpMicroseconds : Nat → Nat
  broadcastDataRateIndex : UInt8
  unicastDataRateIndex : UInt8
  messageDurationMicroseconds : MessageType → Nat → Nat
  headerCodec : Codec MACHeaderParams
  commonCodec : Codec CommonMACHeader

structure Delay where
  preDelayMicroseconds : Nat
  postDelayMicroseconds : Nat
  collision : Bool
  deriving DecidableEq

structure Tick where
  start : Nat
  later : Nat
  check : Nat
  delay : Delay
  start_le_later : start ≤ later
  later_le_check : later ≤ check

/--
What sending a message changes. Here the sequence number of 64 bits does not come round.
-/
structure Radio where
  sequenceNumber : Nat
  entrySequenceNumber : UInt16
  currentEndOfTransmissionTime : Nat
  deriving DecidableEq

structure Transmission where
  header : MACHeaderParams
  common : CommonMACHeader
  pkt : DownstreamPacket
  txTime : Nat
  deriving DecidableEq

structure Sent where
  transmission : Transmission
  entry : DownstreamQueueEntry
  radio : Radio

section

variable (cfg : MACConfig)

def setEntrySequenceNumber (entry : DownstreamQueueEntry) (radio : Radio)
    : DownstreamQueueEntry × Radio :=
  if entry.numRetries = 0 then
    (
      { entry with seq := radio.entrySequenceNumber },
      { radio with entrySequenceNumber := radio.entrySequenceNumber + 1 }
    )
  else
    (entry, radio)

def sendDownstreamMessage (now : Nat) (entry : DownstreamQueueEntry) (params : MACHeaderParams)
    (radio : Radio) : Sent :=
  let serialization := cfg.headerCodec.encode params
  let common : CommonMACHeader := {
    registrationId := REGISTERED_EMANE_MAC_IEEE_802_11_ABG
    sequenceNumber := .ofNat radio.sequenceNumber
  }
  let pkt := (entry.pkt.prepend serialization).prependLengthPrefixFraming serialization.length
  let pkt := common.prependTo cfg.commonCodec pkt
  {
    transmission := {
      header := params
      common := common
      pkt := pkt
      txTime := entry.txTime
    }
    entry := { entry with pkt := pkt }
    radio := {
      radio with
      sequenceNumber := radio.sequenceNumber + 1
      currentEndOfTransmissionTime := now + entry.durationMicroseconds
    }
  }

def sendDownstreamBroadcastData (now : Nat) (entry : DownstreamQueueEntry) (radio : Radio) : Sent :=
  let (entry, radio) := setEntrySequenceNumber entry radio
  sendDownstreamMessage cfg now entry
    {
      messageType := .broadcastData
      numRetries := 0
      dataRateIndex := cfg.broadcastDataRateIndex.toUInt16
      sequenceNumber := entry.seq
      srcNEM := cfg.id
      dstNEM := entry.pkt.info.destination
      durationMicroseconds := .ofNat entry.durationMicroseconds
    }
    radio

def sendDownstreamUnicastData (now : Nat) (entry : DownstreamQueueEntry) (radio : Radio) : Sent :=
  let (entry, radio) := setEntrySequenceNumber entry radio
  sendDownstreamMessage cfg now entry
    {
      messageType := if entry.rtsCtsEnable then .unicastRtsCtsData else .unicastData
      numRetries := entry.maxRetries
      dataRateIndex := cfg.unicastDataRateIndex.toUInt16
      sequenceNumber := entry.seq
      srcNEM := cfg.id
      dstNEM := entry.pkt.info.destination
      durationMicroseconds := .ofNat entry.durationMicroseconds
    }
    radio

def sendDownstreamUnicastCts (now : Nat) (entry : DownstreamQueueEntry) (origin : NEMId)
    (radio : Radio) : Sent :=
  let (entry, radio) := setEntrySequenceNumber entry radio
  sendDownstreamMessage cfg now { entry with durationMicroseconds := 0 }
    {
      messageType := .unicastCtsCtrl
      numRetries := entry.maxRetries
      dataRateIndex := cfg.unicastDataRateIndex.toUInt16
      sequenceNumber := entry.seq
      srcNEM := cfg.id
      dstNEM := origin
      durationMicroseconds := .ofNat entry.durationMicroseconds
    }
    radio

def setDelayTime (now : Nat) (delay : Delay) (entry : DownstreamQueueEntry) : DownstreamQueueEntry :=
  { entry with
    collisionOccured := delay.collision
    preTxDelayTime := now + delay.preDelayMicroseconds
    postTxDelayMicroseconds := delay.postDelayMicroseconds }

end

inductive TxState where
  | idle
  | broadcastPreTx
  | broadcastTx
  | broadcastPostTx
  | unicastPreTx
  | unicastTx
  | unicastPostTx
  | unicastRtsCtsPreTx
  | unicastRtsCtsTx
  | unicastRtsCtsPostTx
  deriving DecidableEq

inductive Departure where
  | txopTimeout
  | retries
  | done
  deriving DecidableEq

structure Processed where
  txState : TxState
  entry : DownstreamQueueEntry
  radio : Radio
  transmission : Option Transmission
  departure : Option Departure

namespace TxState

def postTxTime (entry : DownstreamQueueEntry) : Nat :=
  entry.durationMicroseconds + entry.postTxDelayMicroseconds + entry.txTime

def getWaitTime (st : TxState) (entry : DownstreamQueueEntry) : Option Nat :=
  match st with
  | idle | broadcastTx | unicastTx | unicastRtsCtsTx => none
  | broadcastPreTx | unicastPreTx | unicastRtsCtsPreTx => some entry.preTxDelayTime
  | broadcastPostTx | unicastPostTx | unicastRtsCtsPostTx => some (postTxTime entry)

variable (cfg : MACConfig) (tick : Tick) (entry : DownstreamQueueEntry) (radio : Radio)

def txopTimedOut : Prop :=
  entry.txOpMicroseconds ≠ 0 ∧ entry.txOpMicroseconds + entry.acquireTime < tick.start

instance : Decidable (txopTimedOut tick entry) :=
  inferInstanceAs (Decidable (_ ∧ _))

def preTx : TxState :=
  if entry.pkt.info.destination = NEM_BROADCAST_MAC_ADDRESS then broadcastPreTx
  else if entry.rtsCtsEnable then unicastRtsCtsPreTx
  else unicastPreTx

def processIdle : Processed :=
  if txopTimedOut tick entry then
    { txState := idle, entry := entry, radio := radio, transmission := none,
      departure := some .txopTimeout }
  else
    {
      txState := preTx entry
      entry := setDelayTime tick.later tick.delay entry
      radio := radio
      transmission := none
      departure := none
    }

def processPreTx (next : TxState) : Processed :=
  { txState := next, entry := entry, radio := radio, transmission := none, departure := none }

def processTx (messageType : MessageType) (send : Nat → DownstreamQueueEntry → Radio → Sent)
    (next : TxState) : Processed :=
  let sent := send tick.later
    { entry with
      durationMicroseconds := cfg.messageDurationMicroseconds messageType entry.pkt.length
      txTime := tick.start }
    radio
  {
    txState := next
    entry := sent.entry
    radio := sent.radio
    transmission := some sent.transmission
    departure := none
  }

def processBroadcastPostTx : Processed :=
  { txState := idle, entry := entry, radio := radio, transmission := none, departure := some .done }

def processUnicastPostTx (retry : TxState) : Processed :=
  if entry.collisionOccured then
    if entry.numRetries ≥ entry.maxRetries then
      { txState := idle, entry := entry, radio := radio, transmission := none,
        departure := some .retries }
    else
      {
        txState := retry
        entry := setDelayTime tick.later tick.delay { entry with numRetries := entry.numRetries + 1 }
        radio := radio
        transmission := none
        departure := none
      }
  else
    { txState := idle, entry := entry, radio := radio, transmission := none, departure := some .done }

def process (st : TxState) : Processed :=
  match st with
  | idle => processIdle tick entry radio
  | broadcastPreTx => processPreTx entry radio broadcastTx
  | broadcastTx =>
    processTx cfg tick entry radio .broadcastData (sendDownstreamBroadcastData cfg) broadcastPostTx
  | broadcastPostTx => processBroadcastPostTx entry radio
  | unicastPreTx => processPreTx entry radio unicastTx
  | unicastTx => processTx cfg tick entry radio .unicastData (sendDownstreamUnicastData cfg) unicastPostTx
  | unicastPostTx => processUnicastPostTx tick entry radio unicastPreTx
  | unicastRtsCtsPreTx => processPreTx entry radio unicastRtsCtsTx
  | unicastRtsCtsTx =>
    processTx cfg tick entry radio .unicastRtsCtsData (sendDownstreamUnicastData cfg) unicastRtsCtsPostTx
  | unicastRtsCtsPostTx => processUnicastPostTx tick entry radio unicastRtsCtsPreTx

end TxState
end Ieee80211abg
end Emane

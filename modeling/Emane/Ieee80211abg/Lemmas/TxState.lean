import Emane.Packet.Lemmas.Packet
import Emane.Ieee80211abg.Impl.MACLayer

/-!
This module contains what `process` does to an entry, by the phase that its state belongs to.
-/

namespace Emane
namespace Ieee80211abg

def DownstreamQueueEntry.origin (entry : DownstreamQueueEntry) : PacketInfo × Bytes × Nat × Nat :=
  (entry.pkt.info, entry.pkt.segment, entry.acquireTime, entry.category)

namespace TxState

inductive Phase where
  | idle
  | pre
  | tx
  | post
  deriving DecidableEq

def phase : TxState → Phase
  | idle => .idle
  | broadcastPreTx | unicastPreTx | unicastRtsCtsPreTx => .pre
  | broadcastTx | unicastTx | unicastRtsCtsTx => .tx
  | broadcastPostTx | unicastPostTx | unicastRtsCtsPostTx => .post

def Phase.next : Phase → Phase
  | idle => pre
  | pre => tx
  | tx => post
  | post => pre

def due (st : TxState) (entry : DownstreamQueueEntry) : Nat :=
  match st.phase with
  | .idle => 0
  | .pre | .tx => entry.preTxDelayTime
  | .post => postTxTime entry

theorem getWaitTime_eq (st : TxState) (entry : DownstreamQueueEntry)
    : st.getWaitTime entry
      =
      match st.phase with
      | .idle | .tx => none
      | .pre | .post => some (st.due entry) := by
  cases st with
  | _ => rfl

theorem due_of_getWaitTime {st : TxState} {entry : DownstreamQueueEntry} {time : Nat}
    (h : st.getWaitTime entry = some time)
    : st.due entry = time := by
  rw [getWaitTime_eq] at h
  split at h
  . cases h
  . cases h
  . exact Option.some.inj h
  . exact Option.some.inj h

theorem phase_preTx (entry : DownstreamQueueEntry) : (preTx entry).phase = .pre := by
  unfold preTx
  split
  . rfl
  . split
    . rfl
    . rfl

section

variable (cfg : MACConfig) (tick : Tick) (entry : DownstreamQueueEntry) (radio : Radio)

@[simp]
theorem sequenceNumber_setEntrySequenceNumber
    : (setEntrySequenceNumber entry radio).2.sequenceNumber = radio.sequenceNumber := by
  unfold setEntrySequenceNumber
  split
  . rfl
  . rfl

theorem setEntrySequenceNumber_entry
    : (setEntrySequenceNumber entry radio).1
        = { entry with seq := (setEntrySequenceNumber entry radio).1.seq } := by
  unfold setEntrySequenceNumber
  split
  . rfl
  . rfl

theorem phase_process (st : TxState)
    : ((st.process cfg tick entry radio).departure = none
        ∧ (st.process cfg tick entry radio).txState.phase = st.phase.next)
      ∨ ((st.process cfg tick entry radio).departure ≠ none
        ∧ (st.process cfg tick entry radio).txState = idle
        ∧ (st.phase = .idle ∨ st.phase = .post)) := by
  cases st with
  | idle =>
    simp only [process, processIdle]
    split
    . exact Or.inr ⟨by simp, rfl, Or.inl rfl⟩
    . exact Or.inl ⟨rfl, phase_preTx entry⟩
  | broadcastPostTx => exact Or.inr ⟨by simp [process, processBroadcastPostTx], rfl, Or.inr rfl⟩
  | unicastPostTx | unicastRtsCtsPostTx =>
    simp only [process, processUnicastPostTx]
    split
    . split
      . exact Or.inr ⟨by simp, rfl, Or.inr rfl⟩
      . exact Or.inl ⟨rfl, rfl⟩
    . exact Or.inr ⟨by simp, rfl, Or.inr rfl⟩
  | broadcastPreTx | unicastPreTx | unicastRtsCtsPreTx => exact Or.inl ⟨rfl, rfl⟩
  | broadcastTx | unicastTx | unicastRtsCtsTx => exact Or.inl ⟨rfl, rfl⟩

theorem process_tx {st : TxState} (h : st.phase = .tx)
    : (st.process cfg tick entry radio).radio.sequenceNumber = radio.sequenceNumber + 1
      ∧ (st.process cfg tick entry radio).entry.numRetries = entry.numRetries
      ∧ (st.process cfg tick entry radio).entry.maxRetries = entry.maxRetries := by
  cases st with
  | broadcastTx | unicastTx | unicastRtsCtsTx =>
    simp only [process, processTx, sendDownstreamBroadcastData, sendDownstreamUnicastData,
      sendDownstreamMessage]
    rw [setEntrySequenceNumber_entry]
    simp
  | _ => cases h

theorem process_not_tx {st : TxState} (h : st.phase ≠ .tx)
    : (st.process cfg tick entry radio).radio = radio
        ∧ (st.process cfg tick entry radio).transmission = none := by
  cases st with
  | broadcastTx | unicastTx | unicastRtsCtsTx => exact absurd rfl h
  | idle =>
    simp only [process, processIdle]
    split
    . exact ⟨rfl, rfl⟩
    . exact ⟨rfl, rfl⟩
  | broadcastPostTx => exact ⟨rfl, rfl⟩
  | unicastPostTx | unicastRtsCtsPostTx =>
    simp only [process, processUnicastPostTx]
    split
    . split
      . exact ⟨rfl, rfl⟩
      . exact ⟨rfl, rfl⟩
    . exact ⟨rfl, rfl⟩
  | broadcastPreTx | unicastPreTx | unicastRtsCtsPreTx => exact ⟨rfl, rfl⟩

theorem entry_process_pre {st : TxState} (h : st.phase = .pre)
    : (st.process cfg tick entry radio).entry = entry := by
  cases st with
  | broadcastPreTx | unicastPreTx | unicastRtsCtsPreTx => rfl
  | _ => cases h

theorem origin_process (st : TxState)
    : (st.process cfg tick entry radio).entry.origin = entry.origin := by
  cases st with
  | broadcastTx | unicastTx | unicastRtsCtsTx =>
    simp only [process, processTx, sendDownstreamBroadcastData, sendDownstreamUnicastData,
      sendDownstreamMessage]
    rw [setEntrySequenceNumber_entry]
    rfl
  | idle =>
    simp only [process, processIdle]
    split
    . rfl
    . rfl
  | broadcastPostTx => rfl
  | unicastPostTx | unicastRtsCtsPostTx =>
    simp only [process, processUnicastPostTx]
    split
    . split
      . rfl
      . rfl
    . rfl
  | broadcastPreTx | unicastPreTx | unicastRtsCtsPreTx => rfl

theorem toNat_succ_of_not_le {numRetries maxRetries : UInt8} (h : ¬numRetries ≥ maxRetries)
    : (numRetries + 1).toNat = numRetries.toNat + 1 ∧ numRetries.toNat < maxRetries.toNat := by
  have hlt : numRetries.toNat < maxRetries.toNat := by
    rw [ge_iff_le, UInt8.le_iff_toNat_le] at h
    omega
  have hmax := maxRetries.toNat_lt
  refine ⟨?_, hlt⟩
  rw [UInt8.toNat_add]
  simp only [UInt8.reduceToNat]
  omega

end
end TxState

open TxState

theorem turns_eq (st : TxState) (entry : DownstreamQueueEntry)
    : MACLayer.turns st entry
      =
      3 * (entry.maxRetries.toNat - entry.numRetries.toNat)
        + match st.phase with
          | .idle => 4
          | .pre => 3
          | .tx => 2
          | .post => 1 := by
  cases st with
  | _ => rfl

theorem turns_process (cfg : MACConfig) (tick : Tick) (entry : DownstreamQueueEntry) (radio : Radio)
    {st : TxState}
    (h : (st.process cfg tick entry radio).departure = none)
    : MACLayer.turns (st.process cfg tick entry radio).txState (st.process cfg tick entry radio).entry
      <
      MACLayer.turns st entry := by
  cases st with
  | idle =>
    simp only [process, processIdle] at h ⊢
    split at h
    . cases h
    . next htimeout =>
      rw [if_neg htimeout, turns_eq, turns_eq, phase_preTx]
      simp [setDelayTime, phase]
  | broadcastPreTx | unicastPreTx | unicastRtsCtsPreTx => simp [process, processPreTx, MACLayer.turns]
  | broadcastTx =>
    obtain ⟨-, hnum, hmax⟩ := process_tx cfg tick entry radio (rfl : broadcastTx.phase = .tx)
    rw [turns_eq, turns_eq, hnum, hmax]
    simp [process, processTx, phase]
  | unicastTx =>
    obtain ⟨-, hnum, hmax⟩ := process_tx cfg tick entry radio (rfl : unicastTx.phase = .tx)
    rw [turns_eq, turns_eq, hnum, hmax]
    simp [process, processTx, phase]
  | unicastRtsCtsTx =>
    obtain ⟨-, hnum, hmax⟩ := process_tx cfg tick entry radio (rfl : unicastRtsCtsTx.phase = .tx)
    rw [turns_eq, turns_eq, hnum, hmax]
    simp [process, processTx, phase]
  | broadcastPostTx => simp [process, processBroadcastPostTx] at h
  | unicastPostTx | unicastRtsCtsPostTx =>
    simp only [process, processUnicastPostTx] at h ⊢
    split at h
    . split at h
      . cases h
      . next hcollision hmore =>
        obtain ⟨hsucc, hlt⟩ := toNat_succ_of_not_le hmore
        rw [if_pos hcollision, if_neg hmore]
        simp only [MACLayer.turns, setDelayTime]
        omega
    . cases h

def MessageType.number : MessageType → Nat
  | none => 0
  | broadcastData => 1
  | unicastData => 2
  | unicastRtsCtsData => 3
  | unicastCtsCtrl => 4

def MessageType.ofNumber : Nat → MessageType
  | 1 => broadcastData
  | 2 => unicastData
  | 3 => unicastRtsCtsData
  | 4 => unicastCtsCtrl
  | _ => none

theorem MessageType.number_lt (messageType : MessageType) : messageType.number < 5 := by
  cases messageType with
  | _ => decide

theorem MessageType.ofNumber_number (messageType : MessageType)
    : MessageType.ofNumber messageType.number = messageType := by
  cases messageType with
  | _ => rfl

namespace MACHeaderParams

def fields (params : MACHeaderParams) : List Nat :=
  [params.messageType.number, params.numRetries.toNat, params.dataRateIndex.toNat,
    params.sequenceNumber.toNat,
    params.srcNEM.toNat, params.dstNEM.toNat, params.durationMicroseconds.toNat]

def ofFields : List Nat → Option MACHeaderParams
  | [messageType, numRetries, dataRateIndex, sequenceNumber, srcNEM, dstNEM, durationMicroseconds] =>
    some {
      messageType := .ofNumber messageType
      numRetries := .ofNat numRetries
      dataRateIndex := .ofNat dataRateIndex
      sequenceNumber := .ofNat sequenceNumber
      srcNEM := .ofNat srcNEM
      dstNEM := .ofNat dstNEM
      durationMicroseconds := .ofNat durationMicroseconds
    }
  | _ => none

theorem fields_lt (params : MACHeaderParams) : ∀ n ∈ params.fields, n < 2^64 := by
  intro n hn
  have hnumRetries := params.numRetries.toNat_lt
  have hdataRateIndex := params.dataRateIndex.toNat_lt
  have hsequenceNumber := params.sequenceNumber.toNat_lt
  have hsrcNEM := params.srcNEM.toNat_lt
  have hdstNEM := params.dstNEM.toNat_lt
  have hduration := params.durationMicroseconds.toNat_lt
  have hmessageType := params.messageType.number_lt
  simp only [fields, List.mem_cons, List.not_mem_nil, or_false] at hn
  omega

theorem ofFields_fields (params : MACHeaderParams) : ofFields params.fields = some params := by
  simp [fields, ofFields, MessageType.ofNumber_number]

def protobuf : Codec MACHeaderParams :=
  Protobuf.numbers fields ofFields 7 (fun _ => rfl) (by decide) (by decide) fields_lt ofFields_fields

end MACHeaderParams

def mode80211b (id : NEMId) : MACConfig where
  id := id
  wmmEnable := false
  flowControlEnable := true
  promiscuosEnable := false
  rtsThreshold := 255
  retryLimit := fun _ => 2
  txOpMicroseconds := fun _ => 0
  broadcastDataRateIndex := 1
  unicastDataRateIndex := 1
  messageDurationMicroseconds
    | .broadcastData, numBytes => 192 + 272 + 8 * numBytes
    | .unicastData, numBytes => 10 + 2 * 192 + 272 + 112 + 8 * numBytes
    | .unicastRtsCtsData, numBytes => 10 + 2 * 192 + 272 + 112 + 8 * numBytes + 2 * (192 + 160)
    | .unicastCtsCtrl, _ => 192 + 160
    | .none, _ => 0
  headerCodec := MACHeaderParams.protobuf
  commonCodec := CommonMACHeader.protobuf

def Env.still (now : Nat) (delay : Delay) : Env where
  now := now
  test := now
  tick := fun _ => ⟨now, now, now, delay, Nat.le_refl _, Nat.le_refl _⟩
  now_le_test := Nat.le_refl _
  test_le_tick := Nat.le_refl _
  tick_le_tick := fun _ => Nat.le_refl _

def MACLayer.started : MACLayer :=
  .init [.create 255 65535] ⟨10, 10, 10, 10, false⟩ 0

def packetTo (destination : NEMId) (segment : Bytes) : DownstreamPacket :=
  .create ⟨1, destination, 0, 0, .ofByte 0⟩ segment

end Ieee80211abg
end Emane

import Emane.Boundary.Impl.BoundaryMessageManager
import Emane.Ota.Lemmas.ReceiveLoop

/-!
This module contains what arrives of a message between an NEM and its transport, and the messages
that the loops over received messages get over, those of the boundary and those over the air.
-/

namespace Emane
namespace BoundaryMessageManager

theorem length_headerToNet (id length : Nat) : (headerToNet id length).length = 4 := by
  simp only [headerToNet, List.length_append, BigEndian.length_digits]

theorem length_dataMessageToNet (msg : NetAdapterDataMessage) : (dataMessageToNet msg).length = 9 := by
  simp only [dataMessageToNet, List.length_append, BigEndian.length_digits, List.length_singleton]

theorem ntohs_load_of_holds {mem : Nat → UInt8} {start n : Nat} (hn : n < 2^16)
    (hholds : Memory.Holds mem start (BigEndian.digits 2 n))
    : ntohs (Memory.load mem start 2) = n := by
  unfold Memory.Holds at hholds
  rw [BigEndian.length_digits] at hholds
  rw [hholds, ControlMessageSerializer.ntohs_digits hn]

theorem dataMessageToHost_of_holds {mem : Nat → UInt8} {start : Nat} {msg : NetAdapterDataMessage}
    (hdataLen : msg.dataLen < 2^16)
    (hctrlLen : msg.ctrlLen < 2^16) (hholds : Memory.Holds mem start (dataMessageToNet msg))
    : dataMessageToHost mem start = msg := by
  unfold dataMessageToNet at hholds
  simp only [Memory.holds_append_iff, List.length_append, BigEndian.length_digits] at hholds
  obtain ⟨⟨⟨⟨hsrc, hdst⟩, hdata⟩, hctrl⟩, hpriority⟩ := hholds
  have hlast : mem (start + 8) = msg.priority := by
    simpa [Memory.Holds, Memory.load] using hpriority
  unfold dataMessageToHost
  rw [ntohs_load_of_holds msg.src.toNat_lt hsrc, ntohs_load_of_holds msg.dst.toNat_lt hdst,
    ntohs_load_of_holds hdataLen hdata,
    ntohs_load_of_holds hctrlLen hctrl, hlast, UInt16.ofNat_toNat, UInt16.ofNat_toNat]

def announcedLength (iov : List Bytes) : Nat :=
  ntohs ((iov.flatten.drop 2).take 2)

theorem announcedLength_eq {id : Nat} {segments : List Bytes}
    (hlength : 4 + segments.flatten.length < 2^16)
    : announcedLength (headerToNet id (4 + segments.flatten.length) :: segments)
        =
      (headerToNet id (4 + segments.flatten.length) :: segments).flatten.length := by
  have hdrop : ((headerToNet id (4 + segments.flatten.length) ++ segments.flatten).drop 2).take 2
      = BigEndian.digits 2 (4 + segments.flatten.length) := by
    unfold headerToNet
    rw [List.append_assoc, List.drop_left' (BigEndian.length_digits _ _),
      List.take_left' (BigEndian.length_digits _ _)]
  unfold announcedLength
  rw [List.flatten_cons, hdrop, ControlMessageSerializer.ntohs_digits hlength, List.length_append,
    length_headerToNet]

theorem announcedLength_lt {iov : List Bytes} (hlength : 4 ≤ iov.flatten.length)
    : announcedLength iov < 2^16 := by
  apply (ControlMessageSerializer.digits_ntohs ?_).2
  rw [List.length_take, List.length_drop]
  omega

section

variable {encodeTransmitters : OTATransmitters → Bytes} {msgs : List ControlMessage} {iov : List Bytes}

theorem processDatagram_eq {id : Nat} (hid : id < 2^16) {segments : List Bytes}
    (hfits : (headerToNet id (4 + segments.flatten.length) :: segments).flatten.length < 2^16) (now : Nat)
    : let mem := Memory.ofList (headerToNet id (4 + segments.flatten.length) :: segments).flatten
        (fun _ => 0)
      Memory.Holds mem 4 segments.flatten
        ∧ processDatagram ⟨(headerToNet id (4 + segments.flatten.length) :: segments).flatten, hfits⟩ now
        =
      if id = NETADAPTER_DATA_MSG then
        receiveDataMessage mem segments.flatten.length now
      else if id = NETADAPTER_CTRL_MSG then
        receiveControlMessage mem segments.flatten.length
      else
        {} := by
  have hholds := Memory.holds_ofList
    (headerToNet id (4 + segments.flatten.length) :: segments).flatten (fun _ => 0)
  have hlength : (headerToNet id (4 + segments.flatten.length) :: segments).flatten.length = 4
      + segments.flatten.length := by
    rw [List.flatten_cons, List.length_append, length_headerToNet]
  unfold processDatagram
  simp only [hlength]
  rw [hlength] at hfits
  generalize Memory.ofList (headerToNet id (4 + segments.flatten.length) :: segments).flatten
    (fun _ => 0) = mem at hholds ⊢
  rw [List.flatten_cons, Memory.holds_append_iff, length_headerToNet] at hholds
  obtain ⟨hheader, hsegments⟩ := hholds
  unfold headerToNet at hheader
  rw [Memory.holds_append_iff, BigEndian.length_digits] at hheader
  refine ⟨hsegments, ?_⟩
  unfold processNetworkMessage
  rw [if_pos (by omega)]
  simp only [ntohs_load_of_holds hid hheader.1]
  rw [if_pos]
  . simp only [Nat.add_sub_cancel_left]
  . exact (ntohs_load_of_holds hfits hheader.2).symm

theorem processDatagram_of_sendPacketMessage {packetInfo : PacketInfo} {packetVector : List Bytes}
    (hsend : sendPacketMessage encodeTransmitters packetInfo packetVector
      packetVector.flatten.length msgs = some iov)
    (hfits : iov.flatten.length < 2^16) (now : Nat)
    : announcedLength iov = iov.flatten.length
        ∧ ∃ serialized,
        ControlMessageSerializer.serialize encodeTransmitters msgs = some serialized
          ∧ processDatagram ⟨iov.flatten, hfits⟩ now
          =
        {
          outputs := [.processPacketMessage
            ⟨packetInfo.source, packetInfo.destination, packetInfo.priority, now, UUID.clear⟩
            packetVector.flatten serialized]
        } := by
  unfold sendPacketMessage at hsend
  simp only [Option.bind_eq_bind, Option.bind_eq_some_iff, Option.pure_def, Option.some.injEq,
    List.cons_append,
    List.nil_append] at hsend
  obtain ⟨serialized, hserialize, rfl⟩ := hsend
  have hcontrolLength := ControlMessageSerializer.getLength_eq serialized
  generalize hmsg : NetAdapterDataMessage.mk packetInfo.source packetInfo.destination
    packetVector.flatten.length
    (ControlMessageSerializer.getLength serialized) packetInfo.priority = msg at hfits ⊢
  have hlength : (dataMessageToNet msg
    :: (packetVector ++ ControlMessageSerializer.getVectorIO serialized)).flatten.length
      = 9 + packetVector.flatten.length + ControlMessageSerializer.getLength serialized := by
    rw [List.flatten_cons, List.flatten_append, List.length_append, List.length_append,
      length_dataMessageToNet]
    omega
  have htotal : 4 + 9 + packetVector.flatten.length + ControlMessageSerializer.getLength serialized
      = 4 + (dataMessageToNet msg :: (packetVector ++ ControlMessageSerializer.getVectorIO
        serialized)).flatten.length := by omega
  simp only [htotal] at hfits ⊢
  obtain ⟨hholds, hprocess⟩ := processDatagram_eq (by decide : NETADAPTER_DATA_MSG < 2^16) hfits now
  rw [List.flatten_cons, List.length_append, length_headerToNet] at hfits
  constructor
  . exact announcedLength_eq hfits
  . refine ⟨serialized, hserialize, ?_⟩
    rw [hprocess, if_pos rfl]
    generalize Memory.ofList _ _ = mem at hholds ⊢
    rw [hlength]
    rw [List.flatten_cons, List.flatten_append, Memory.holds_append_iff, Memory.holds_append_iff,
      length_dataMessageToNet] at hholds
    obtain ⟨hdataMessage, hpacket, hcontrol⟩ := hholds
    have hhost : dataMessageToHost mem 4 = msg := by
      apply dataMessageToHost_of_holds ?_ ?_ hdataMessage
      . rw [← hmsg]
        simp only
        omega
      . rw [← hmsg]
        simp only
        omega
    have hcreate := ControlMessageSerializer.create_of_holds (by omega) hcontrol
    have hdst : (if packetInfo.destination = NETADAPTER_BROADCAST_ADDRESS then NEM_BROADCAST_MAC_ADDRESS
        else packetInfo.destination) = packetInfo.destination := by
      split
      . next heq => exact heq.symm
      . rfl
    unfold receiveDataMessage
    rw [if_pos (by omega)]
    simp only [hhost]
    rw [← hmsg]
    simp only
    rw [if_pos (by omega), if_pos (by omega), hcreate, hpacket, hdst]

theorem processDatagram_of_sendControlMessage
    (hsend : sendControlMessage encodeTransmitters msgs = some iov)
    (hfits : iov.flatten.length < 2^16) (now : Nat)
    : announcedLength iov = iov.flatten.length
        ∧ ∃ serialized,
        ControlMessageSerializer.serialize encodeTransmitters msgs = some serialized
          ∧ processDatagram ⟨iov.flatten, hfits⟩ now
              = { outputs := [.processControlMessage serialized] } := by
  unfold sendControlMessage at hsend
  simp only [Option.bind_eq_bind, Option.bind_eq_some_iff, Option.pure_def, Option.some.injEq,
    List.cons_append,
    List.nil_append] at hsend
  obtain ⟨serialized, hserialize, rfl⟩ := hsend
  have hcontrolLength := ControlMessageSerializer.getLength_eq serialized
  have hlength : (BigEndian.digits 2 (ControlMessageSerializer.getLength serialized)
      :: ControlMessageSerializer.getVectorIO serialized).flatten.length = 2
          + ControlMessageSerializer.getLength serialized := by
    rw [List.flatten_cons, List.length_append, BigEndian.length_digits]
    omega
  have htotal : 4 + ControlMessageSerializer.getLength serialized + 2
      = 4 + (BigEndian.digits 2 (ControlMessageSerializer.getLength serialized)
        :: ControlMessageSerializer.getVectorIO serialized).flatten.length := by omega
  simp only [htotal] at hfits ⊢
  obtain ⟨hholds, hprocess⟩ := processDatagram_eq (by decide : NETADAPTER_CTRL_MSG < 2^16) hfits now
  rw [List.flatten_cons, List.length_append, length_headerToNet] at hfits
  constructor
  . exact announcedLength_eq hfits
  . refine ⟨serialized, hserialize, ?_⟩
    rw [hprocess, if_neg (by decide), if_pos rfl]
    generalize Memory.ofList _ _ = mem at hholds ⊢
    rw [List.flatten_cons, Memory.holds_append_iff, BigEndian.length_digits] at hholds
    obtain ⟨hctrlLen, hcontrol⟩ := hholds
    have hntohs := ntohs_load_of_holds (by omega) hctrlLen
    have hcreate := ControlMessageSerializer.create_of_holds (by omega) hcontrol
    unfold receiveControlMessage
    rw [if_pos (by omega)]
    simp only [hntohs]
    rw [if_pos (by omega), hcreate]

end

/--
What has been sent in one datagram arrives, but for the time and the UUID of a packet: these two
are not a part of the message.
-/
theorem processDatagram_of_send (encodeTransmitters : OTATransmitters → Bytes)
    (msgs : List ControlMessage) (iov : List Bytes)
    (hfits : iov.flatten.length < 2^16) (now : Nat)
    : (∀ (packetInfo : PacketInfo) (packetVector : List Bytes),
        sendPacketMessage encodeTransmitters packetInfo packetVector packetVector.flatten.length
          msgs = some iov
          →
        announcedLength iov = iov.flatten.length
          ∧ ∃ serialized,
          ControlMessageSerializer.serialize encodeTransmitters msgs = some serialized
            ∧ processDatagram ⟨iov.flatten, hfits⟩ now
            =
          {
            outputs := [.processPacketMessage
              ⟨packetInfo.source, packetInfo.destination, packetInfo.priority, now, UUID.clear⟩
              packetVector.flatten serialized]
          })
        ∧ (sendControlMessage encodeTransmitters msgs = some iov
        →
      announcedLength iov = iov.flatten.length
        ∧ ∃ serialized,
        ControlMessageSerializer.serialize encodeTransmitters msgs = some serialized
          ∧ processDatagram ⟨iov.flatten, hfits⟩ now
              = { outputs := [.processControlMessage serialized] }) := by
  constructor
  . intro packetInfo packetVector hsend
    exact processDatagram_of_sendPacketMessage hsend hfits now
  . intro hsend
    exact processDatagram_of_sendControlMessage hsend hfits now

def remoteInfo : PacketInfo where
  source := 1
  destination := 2
  priority := 46
  creationTime := 5
  uuid := .ofByte 7

def controlMessages : List ControlMessage :=
  [.other ⟨102, ControlMessage.ne_otaTransmitter⟩ (some [4])]

def remoteMessage : List Bytes :=
  [[0, 1, 0, 24], [0, 1, 0, 2, 0, 4, 0, 7, 46], [9], [1, 2, 3], [0, 1], [0, 102, 0, 1], [4]]

theorem processDatagram_of_send_example
    : announcedLength remoteMessage = 24
        ∧ processDatagram ⟨remoteMessage.flatten, by decide⟩ 8
        =
      { outputs := [.processPacketMessage ⟨1, 2, 46, 8, UUID.clear⟩ [9, 1, 2, 3] [⟨102, [4]⟩]] } := by
  have hsend := processDatagram_of_send (fun _ => []) controlMessages remoteMessage (by decide) 8
  obtain ⟨hlength, serialized, hserialize, hprocess⟩ := hsend.1 remoteInfo [[9], [1, 2, 3]] (by decide)
  obtain rfl : [⟨102, [4]⟩] = serialized := Option.some.inj hserialize
  exact ⟨hlength, hprocess⟩

theorem processDatagram_of_send_counterexample
    : (sendPacketMessage (fun _ => []) remoteInfo [[9], [1, 2, 3]] 4 controlMessages = some remoteMessage
        ∧ ∀ output ∈ (processDatagram ⟨remoteMessage.flatten, by decide⟩ 8).outputs,
        ∀ (packetInfo : PacketInfo) (packetData : Bytes) (msgs : List SerializedControlMessage),
          output = .processPacketMessage packetInfo packetData msgs → packetInfo.uuid ≠ remoteInfo.uuid)
        ∧ ∀ iov : List Bytes,
        sendPacketMessage (fun _ => []) remoteInfo [List.replicate (2^16) 0] (2^16) [] = some iov
          →
        announcedLength iov < iov.flatten.length := by
  refine ⟨⟨by decide, ?_⟩, ?_⟩
  . have hprocess : processDatagram ⟨remoteMessage.flatten, by decide⟩ 8
        = { outputs := [.processPacketMessage ⟨1, 2, 46, 8, UUID.clear⟩ [9, 1, 2, 3] [⟨102, [4]⟩]]
          } := by decide
    rw [hprocess]
    intro output houtput packetInfo packetData msgs heq
    rw [List.mem_singleton] at houtput
    rw [houtput, Output.processPacketMessage.injEq] at heq
    rw [← heq.1]
    decide
  . intro iov hsend
    have hlength : (List.replicate (2^16) (0 : UInt8)).length = 2^16 := List.length_replicate
    generalize List.replicate (2^16) (0 : UInt8) = segment at hlength hsend
    cases hsend
    have hle : 2^16
      ≤ ([headerToNet NETADAPTER_DATA_MSG (4 + 9 + 2^16 + 2), dataMessageToNet ⟨1, 2, 2^16, 2, 46⟩]
      ++ [segment]
        ++ ControlMessageSerializer.getVectorIO []).flatten.length := by
      rw [List.flatten_append, List.flatten_append, List.length_append, List.length_append,
        List.flatten_singleton, hlength]
      omega
    exact Nat.lt_of_lt_of_le (announcedLength_lt (Nat.le_trans (by decide) hle)) hle

inductive Block (mem : Nat → UInt8) (len : Nat) : Nat → Nat → Prop where
  | data (dataLen ctrlLen : Nat) (hheader : len = ntohs (Memory.load mem 2 2))
      (hid : ntohs (Memory.load mem 0 2) = NETADAPTER_DATA_MSG)
        (hdataLen : ntohs (Memory.load mem 8 2) = dataLen)
      (hctrlLen : ntohs (Memory.load mem 10 2) = ctrlLen) (hlen : len = 13 + dataLen + ctrlLen)
    : Block mem len (13 + dataLen) ctrlLen
  | control (ctrlLen : Nat) (hheader : len = ntohs (Memory.load mem 2 2))
      (hid : ntohs (Memory.load mem 0 2) = NETADAPTER_CTRL_MSG)
        (hctrlLen : ntohs (Memory.load mem 4 2) = ctrlLen)
      (hlen : len = 6 + ctrlLen)
    : Block mem len 6 ctrlLen

section

variable {mem : Nat → UInt8} {len now start length : Nat}

end

def WellFormed (msg : Datagram) : Prop :=
  ∀ start length,
    Block (Memory.ofList msg.val (fun _ => 0)) msg.val.length start length
      →
    ∃ msgs : List SerializedControlMessage,
      ControlMessageSerializer.Fits msgs
        ∧ Memory.Holds (Memory.ofList msg.val (fun _ => 0)) start
          ( ControlMessageSerializer.getVectorIO msgs).flatten
        ∧ ( ControlMessageSerializer.getVectorIO msgs).flatten.length ≤ length

end BoundaryMessageManager

end Emane

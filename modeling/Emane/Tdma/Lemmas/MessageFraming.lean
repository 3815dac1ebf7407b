import Emane.Packet.Lemmas.Packet
import Emane.Tdma.Impl.BaseModel
import Emane.Tdma.Lemmas.BasicQueueManager

/-!
This module contains which messages come out of a packet as they were put in, and which packets a
length prefix is taken from.
-/

namespace Emane

theorem foldl_lengthPrefix_mod (length : Nat)
    : (lengthPrefix length).foldl (BigEndian.shiftIn 16) 0 = length % 2^16 := by
  unfold lengthPrefix
  rw [BigEndian.foldl_shiftIn_digits (k := 0) 2 length (by decide) (by decide)]
  simp

namespace UpstreamPacket

def stripped (info : PacketInfo) (front rest : Bytes) : UpstreamPacket where
  info := info
  packetSegment := front ++ rest
  head := front.length

variable (info : PacketInfo) (front rest : Bytes)

@[simp]
theorem get_stripped : (stripped info front rest).get = rest := by
  exact List.drop_left

@[simp]
theorem length_stripped : (stripped info front rest).length = rest.length := by
  rw [length_eq, get_stripped]

theorem stripped_append (first : Bytes)
    : ({ stripped info front (first ++ rest) with head := front.length + first.length } : UpstreamPacket)
        =
      stripped info (front ++ first) rest := by
  unfold stripped
  simp

theorem stripLengthPrefixFraming_stripped
    : (stripped info front rest).stripLengthPrefixFraming
        =
      if 2 < rest.length then
        ((rest.take 2).foldl (BigEndian.shiftIn 16) 0, stripped info (front ++ rest.take 2) (rest.drop 2))
      else
        (0, stripped info front rest) := by
  unfold stripLengthPrefixFraming
  have hiff : (stripped info front rest).head + 2 < (stripped info front rest).packetSegment.length
      ↔ 2 < rest.length := by
    simp [stripped]
  simp only [hiff]
  split
  . next hlong =>
    rw [get_stripped, ← stripped_append, List.take_append_drop]
    simp only [List.length_take]
    rw [Nat.min_eq_left (by omega)]
    rfl
  . rfl

/--
What the framing is to do for every packet: a prefix is read if there are the bytes for it, and
otherwise nothing is.
-/
structure ReadsPrefix (pkt : UpstreamPacket) : Prop where
  reads : 2 ≤ pkt.length → pkt.stripLengthPrefixFraming
    = ((pkt.get.take 2).foldl (BigEndian.shiftIn 16) 0, { pkt with head := pkt.head + 2 })
  keeps : pkt.length < 2 → pkt.stripLengthPrefixFraming = (0, pkt)
  inside : pkt.stripLengthPrefixFraming.2.head ≤ pkt.stripLengthPrefixFraming.2.packetSegment.length

theorem readsPrefix_iff : ReadsPrefix (stripped info front rest) ↔ rest.length ≠ 2 := by
  have hstrip := stripLengthPrefixFraming_stripped info front rest
  constructor
  . intro h hlength
    rw [if_neg (by omega)] at hstrip
    have hreads := h.reads (by rw [length_stripped, hlength])
    rw [hstrip] at hreads
    have hhead := congrArg (fun res => res.2.head) hreads
    simp only [stripped] at hhead
    omega
  . intro hlength
    constructor
    . intro hle
      rw [length_stripped] at hle
      unfold stripLengthPrefixFraming
      rw [if_pos]
      simp only [stripped, List.length_append]
      omega
    . intro hlt
      rw [length_stripped] at hlt
      rw [hstrip, if_neg (by omega)]
    . rw [hstrip]
      split
      . simp [stripped]
      . simp [stripped]

end UpstreamPacket

namespace Tdma
namespace BaseModelMessage

theorem length_serialize_pos (m : BaseModelMessage) : 0 < m.serialize.length := by
  have hpos := @Protobuf.length_writeRecord_pos 1
    [.number m.absoluteSlotIndex, .number m.dataRate] (by simp)
  unfold serialize
  rw [List.length_append]
  omega

theorem length_data_le (c : MessageComponent) : c.data.length ≤ (serializeComponent c).length := by
  have hvalue := Protobuf.Value.length_le_write c.data
  have hrecord := @Protobuf.length_le_writeRecord 1
    [.number (typeNumber c.type), .number c.destination, .number c.priority, .bytes c.data]
      (.bytes c.data) (by simp)
  unfold serializeComponent
  simp only
  split
  . rw [List.length_append]
    omega
  . omega

theorem size_le_length_serialize (m : BaseModelMessage) : m.messages.size ≤ m.serialize.length := by
  have hrepeated : ∀ cs : MessageComponents,
      cs.size ≤ (Protobuf.writeRepeated 3 (cs.map (fun c => .bytes (serializeComponent c)))).length := by
    intro cs
    induction cs with
    | nil => exact Nat.zero_le _
    | cons c cs ih =>
      have hdata := length_data_le c
      have hvalue := Protobuf.Value.length_le_write (serializeComponent c)
      unfold Protobuf.writeRepeated at ih ⊢
      rw [MessageComponents.size_cons, List.map_cons, List.flatMap_cons, List.length_append,
        List.length_append]
      unfold MessageComponent.size
      omega
  have hmessages := hrepeated m.messages
  unfold serialize
  rw [List.length_append]
  omega

def framed (m : BaseModelMessage) (pkt : Emane.DownstreamPacket) : Emane.DownstreamPacket :=
  (pkt.prepend m.serialize).prependLengthPrefixFraming m.serialize.length

theorem bytes_framed (m : BaseModelMessage) (pkt : Emane.DownstreamPacket)
    : (m.framed pkt).bytes = lengthPrefix m.serialize.length ++ (m.serialize ++ pkt.bytes) := by
  simp [framed, DownstreamPacket.prependLengthPrefixFraming]

theorem bytes_packet (m : BaseModelMessage) (info : Emane.PacketInfo)
    : (BaseModel.sendDownstreamPacket.packet info m).bytes = lengthPrefix m.serialize.length
        ++ (m.serialize ++ []) := by
  simp [BaseModel.sendDownstreamPacket.packet, DownstreamPacket.prependLengthPrefixFraming]

structure RoundTrip (m : BaseModelMessage) (pkt : Emane.DownstreamPacket) (info : Emane.PacketInfo)
    (front : Bytes) : Prop where
  length : (UpstreamPacket.stripped info front (m.framed pkt).bytes).stripLengthPrefixFraming.1
    = m.serialize.length
  bytes : let res := (UpstreamPacket.stripped info front (m.framed pkt).bytes).stripLengthPrefixFraming
    res.2.get.take res.1 = m.serialize
  rest : let res := (UpstreamPacket.stripped info front (m.framed pkt).bytes).stripLengthPrefixFraming
    (res.2.strip res.1).get = pkt.bytes ∧ (res.2.strip res.1).info = info

section

variable (m : BaseModelMessage) (info : Emane.PacketInfo) (front rest : Bytes)

theorem stripLengthPrefixFraming_eq
    : (UpstreamPacket.stripped info front
        (lengthPrefix m.serialize.length ++ (m.serialize ++ rest))).stripLengthPrefixFraming
        =
      (m.serialize.length % 2^16,
        UpstreamPacket.stripped info (front ++ lengthPrefix m.serialize.length)
            (m.serialize ++ rest)) := by
  have hpos := m.length_serialize_pos
  have htwo := length_lengthPrefix m.serialize.length
  rw [UpstreamPacket.stripLengthPrefixFraming_stripped,
    if_pos (by simp only [List.length_append, htwo]; omega)]
  rw [List.take_left' htwo, List.drop_left' htwo, foldl_lengthPrefix_mod]

theorem roundTrip_iff (pkt : Emane.DownstreamPacket)
    : RoundTrip m pkt info front ↔ m.serialize.length < 2^16 := by
  have hstrip := stripLengthPrefixFraming_eq m info front pkt.bytes
  rw [← bytes_framed] at hstrip
  constructor
  . intro h
    have hlength := h.length
    rw [hstrip] at hlength
    omega
  . intro hlt
    rw [Nat.mod_eq_of_lt hlt] at hstrip
    constructor
    . rw [hstrip]
    . rw [hstrip]
      simp
    . rw [hstrip]
      exact ⟨UpstreamPacket.get_strip (UpstreamPacket.get_stripped _ _ _), UpstreamPacket.info_strip _ _⟩

theorem messageBytes_iff (info' : Emane.PacketInfo)
    : BaseModel.processUpstreamPacket.messageBytes
        (UpstreamPacket.stripped info front (BaseModel.sendDownstreamPacket.packet info' m).bytes)
          = some m.serialize
        ↔
      m.serialize.length < 2^16 := by
  have hpos := m.length_serialize_pos
  unfold BaseModel.processUpstreamPacket.messageBytes
  rw [bytes_packet, stripLengthPrefixFraming_eq]
  simp only [UpstreamPacket.length_stripped, UpstreamPacket.get_stripped, List.append_nil]
  constructor
  . intro h
    split at h
    . have hlength := congrArg List.length (Option.some.inj h)
      rw [List.length_take] at hlength
      omega
    . cases h
  . intro hlt
    rw [Nat.mod_eq_of_lt hlt, if_pos ⟨by omega, Nat.le_refl _⟩, List.take_length]

theorem framing_iff (pkt : Emane.DownstreamPacket) (info' : Emane.PacketInfo)
    : (RoundTrip m pkt info front
        ∧ BaseModel.processUpstreamPacket.messageBytes
        (UpstreamPacket.stripped info front (BaseModel.sendDownstreamPacket.packet info' m).bytes)
          = some m.serialize
        ↔
      m.serialize.length < 2^16)
        ∧ (UpstreamPacket.ReadsPrefix (UpstreamPacket.stripped info front rest) ↔ rest.length ≠ 2) := by
  refine ⟨?_, UpstreamPacket.readsPrefix_iff info front rest⟩
  rw [roundTrip_iff, messageBytes_iff, and_self]

end

theorem exists_message_of_two (p₁ p₂ : DownstreamPacket) (h₁ : p₁.length = 35000) (h₂ : p₂.length = 35000)
    : ∃ m d m',
        run BasicQueueManager.step
          (BasicQueueManager.configure 1 ⟨256, true, true, false, fun n => n * 90 / 100⟩)
          [.enqueue 0 p₁, .enqueue 0 p₂] = some m
          ∧ m.dequeue 0 70000 0 = some (d, m')
          ∧ 70000 ≤ d.components.size := by
  have hrun : ∃ m,
      run BasicQueueManager.step
        (BasicQueueManager.configure 1 ⟨256, true, true, false, fun n => n * 90 / 100⟩)
        [.enqueue 0 p₁, .enqueue 0 p₂] = some m
        ∧ m.toQueueManagerConfig = ⟨256, true, true, false, fun n => n * 90 / 100⟩
        ∧ (m.queues 0).entries = [⟨0, p₁, 0, 0⟩, ⟨1, p₂, 0, 0⟩] := by
    exact ⟨_, rfl, rfl, rfl⟩
  obtain ⟨m, hrun, hconfig, hentries⟩ := hrun
  obtain ⟨es, hmanages⟩ := BasicQueueManager.exists_manages hrun
  obtain ⟨d, m', fs, hdequeue, hspends⟩ := BasicQueueManager.exists_spends hmanages 0 70000 0
  refine ⟨m, d, m', hrun, hdequeue, ?_⟩
  have hask : (⟨0, 70000, true⟩ : BasicQueueManager.Ask) ∈ m.asks 0 70000 0 := by
    exact List.mem_cons_self
  have hfates := hspends.fates _ hask
  have hsize : 70000 ≤ MessageComponents.size (BasicQueueManager.given 0 (fs 0)) := by
    have hdecomposes := Fifo.dequeue_decomposes
      (BasicQueueManager.request m.toQueueManagerConfig 0 70000 0 true)
      (m.queues 0).entries ⟨[], 0, []⟩
    have hbytes := hdecomposes.totalBytes
    rw [Fifo.totalBytes_dequeue_nil, BasicQueueManager.kind_request, Nat.zero_add] at hbytes
    change fs 0 = Fifo.fates (BasicQueueManager.request m.toQueueManagerConfig 0 70000 0 true)
      _ _ at hfates
    rw [BasicQueueManager.size_given, hfates, ← hbytes, hconfig, hentries]
    have hsizes : ∀ p : Fifo.Request, p.destination = 0 → p.fragment = true →
        Fifo.sizes p [⟨0, p₁, 0, 0⟩, ⟨1, p₂, 0, 0⟩] = [35000, 35000] := by
      intro p hdestination hfragment
      simp only [Fifo.sizes, Entry.selectedBy, Entry.remaining, hdestination, hfragment, h₁, h₂,
        Bool.not_true,
        Bool.and_false, Bool.false_eq_true, ↓reduceIte, List.filter_cons, List.filter_nil,
          List.map_cons, List.map_nil,
        Nat.sub_zero, decide_true, Bool.true_or]
    unfold Fifo.taken
    rw [hsizes _ rfl rfl]
    decide
  rw [hspends.components]
  obtain ⟨before, after, horder⟩ := List.append_of_mem (BasicQueueManager.mem_visitOrder 0 0)
  rw [horder, List.flatMap_append, List.flatMap_cons, MessageComponents.size_append,
    MessageComponents.size_append]
  omega

theorem not_framing
    : ∃ m d m',
        run BasicQueueManager.step
          (BasicQueueManager.configure 1 ⟨256, true, true, false, fun n => n * 90 / 100⟩) [
          .enqueue 0 ⟨⟨1, 2, 0, 0, 0⟩, [List.replicate 35000 0]⟩,
          .enqueue 0 ⟨⟨1, 2, 0, 0, 0⟩, [List.replicate 35000 0]⟩
        ] = some m
          ∧ m.dequeue 0 70000 0 = some (d, m')
          ∧ (∀ pkt info front, ¬ RoundTrip ⟨0, 54000000, d.components⟩ pkt info front)
          ∧ ∀ info front, ¬ UpstreamPacket.ReadsPrefix (UpstreamPacket.stripped info front [0, 5]) := by
  have hlength : ∀ info : PacketInfo, (⟨info, [List.replicate 35000 0]⟩ : DownstreamPacket).length
      = 35000 := by
    intro info
    unfold DownstreamPacket.length
    rw [List.map_cons, List.map_nil, List.sum_cons, List.sum_nil, List.length_replicate, Nat.add_zero]
  obtain ⟨m, d, m', hrun, hdequeue, hsize⟩ := exists_message_of_two
    ⟨⟨1, 2, 0, 0, 0⟩, [List.replicate 35000 0]⟩
    ⟨⟨1, 2, 0, 0, 0⟩, [List.replicate 35000 0]⟩ (hlength _) (hlength _)
  refine ⟨m, d, m', hrun, hdequeue, ?_, ?_⟩
  . intro pkt info front
    rw [roundTrip_iff]
    have hle := size_le_length_serialize ⟨0, 54000000, d.components⟩
    simp only at hle
    omega
  . intro info front
    rw [UpstreamPacket.readsPrefix_iff, not_not]
    rfl

end BaseModelMessage
end Tdma
end Emane

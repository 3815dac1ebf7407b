import Emane.Packet.Impl.Packet

/-!
This module contains what headers do to the bytes of a packet, and that a header that was put in
front of a packet can be stripped off.
-/

namespace Emane

theorem length_lengthPrefix (length : Nat) : (lengthPrefix length).length = 2 := by
  simp [lengthPrefix]

theorem foldl_lengthPrefix {length : Nat} (h : length < 2^16)
    : (lengthPrefix length).foldl (BigEndian.shiftIn 16) 0 = length := by
  exact BigEndian.foldl_digits (by omega) (by omega)

namespace DownstreamPacket

@[simp]
theorem bytes_prepend (pkt : DownstreamPacket) (buf : Bytes)
    : (pkt.prepend buf).bytes = buf ++ pkt.bytes := by
  simp [bytes, getVectorIO, prepend]

@[simp]
theorem bytes_create (info : PacketInfo) (segment : Bytes) : (create info segment).bytes = segment := by
  simp [bytes, getVectorIO, create]

theorem length_eq (pkt : DownstreamPacket) : pkt.length = pkt.bytes.length := by
  simp [length, bytes, getVectorIO, List.length_flatten]

end DownstreamPacket

namespace UpstreamPacket

theorem length_eq (pkt : UpstreamPacket) : pkt.length = pkt.get.length := by
  simp [length, get]

theorem get_strip {pkt : UpstreamPacket} {buf rest : Bytes} (h : pkt.get = buf ++ rest)
    : (pkt.strip buf.length).get = rest := by
  have hlength : pkt.packetSegment.length - pkt.head = buf.length + rest.length := by
    rw [← List.length_append, ← h, get, List.length_drop]
  have hrest : pkt.packetSegment.drop (pkt.head + buf.length) = rest := by
    rw [← List.drop_drop]
    have hget : pkt.packetSegment.drop pkt.head = buf ++ rest := h
    rw [hget, List.drop_left]
  unfold strip
  split
  . exact hrest
  . next hge =>
    have hnil : rest = [] := by
      apply List.eq_nil_of_length_eq_zero
      omega
    subst hnil
    rw [hlength]
    exact hrest

theorem info_strip (pkt : UpstreamPacket) (size : Nat) : (pkt.strip size).info = pkt.info := by
  unfold strip
  split
  . rfl
  . rfl

theorem stripLengthPrefixFraming_eq {pkt : UpstreamPacket} {length : Nat} {rest : Bytes}
    (hlength : length < 2^16)
    (hrest : rest ≠ []) (h : pkt.get = lengthPrefix length ++ rest)
    : pkt.stripLengthPrefixFraming = (length, { pkt with head := pkt.head + 2 })
        ∧ ({ pkt with head := pkt.head + 2 } : UpstreamPacket).get = rest := by
  have hpos := List.length_pos_of_ne_nil hrest
  have hsize : pkt.packetSegment.length - pkt.head = 2 + rest.length := by
    rw [← length_lengthPrefix length, ← List.length_append, ← h, get, List.length_drop]
  constructor
  . unfold stripLengthPrefixFraming
    rw [if_pos (by omega), h]
    rw [← length_lengthPrefix length, List.take_left, foldl_lengthPrefix hlength]
  . have hdrop : pkt.packetSegment.drop pkt.head = lengthPrefix length ++ rest := h
    simp only [get]
    rw [← List.drop_drop, hdrop]
    rw [← length_lengthPrefix length, List.drop_left]

end UpstreamPacket

namespace CommonMACHeader

variable (codec : Codec CommonMACHeader)

theorem bytes_prependTo (hdr : CommonMACHeader) (pkt : DownstreamPacket)
    : (hdr.prependTo codec pkt).bytes
      =
      lengthPrefix (codec.encode hdr).length ++ (codec.encode hdr ++ pkt.bytes) := by
  simp [prependTo, DownstreamPacket.prependLengthPrefixFraming]

theorem take_eq {pkt : UpstreamPacket} {hdr : CommonMACHeader} {rest : Bytes}
    (h : pkt.get = lengthPrefix (codec.encode hdr).length ++ (codec.encode hdr ++ rest))
    : ∃ pkt', take codec pkt = some (hdr, pkt') ∧ pkt'.get = rest ∧ pkt'.info = pkt.info := by
  have hne : codec.encode hdr ++ rest ≠ [] := by
    intro hnil
    have hpos := codec.length_pos hdr
    rw [List.append_eq_nil_iff] at hnil
    rw [hnil.1] at hpos
    exact Nat.lt_irrefl 0 hpos
  obtain ⟨hstrip, hget⟩ := UpstreamPacket.stripLengthPrefixFraming_eq (codec.length_lt hdr) hne h
  have hlong : pkt.length ≥ 2 := by
    rw [UpstreamPacket.length_eq, h, List.length_append, length_lengthPrefix]
    omega
  refine ⟨({ pkt with head := pkt.head + 2 } : UpstreamPacket).strip
    (codec.encode hdr).length, ?_, ?_, ?_⟩
  . unfold take
    rw [if_pos hlong, hstrip]
    simp only
    rw [UpstreamPacket.length_eq, hget, if_pos (by simp), List.take_left, codec.decode_encode]
    rfl
  . exact UpstreamPacket.get_strip hget
  . exact UpstreamPacket.info_strip _ _

def fields (hdr : CommonMACHeader) : List Nat :=
  [hdr.registrationId.toNat, hdr.sequenceNumber.toNat]

def ofFields : List Nat → Option CommonMACHeader
  | [registrationId, sequenceNumber] => some ⟨.ofNat registrationId, .ofNat sequenceNumber⟩
  | _ => none

theorem fields_lt (hdr : CommonMACHeader) : ∀ n ∈ hdr.fields, n < 2^64 := by
  intro n hn
  have hregistrationId := hdr.registrationId.toNat_lt
  have hsequenceNumber := hdr.sequenceNumber.toNat_lt
  simp only [fields, List.mem_cons, List.not_mem_nil, or_false] at hn
  omega

theorem ofFields_fields (hdr : CommonMACHeader) : ofFields hdr.fields = some hdr := by
  simp [fields, ofFields]

def protobuf : Codec CommonMACHeader :=
  Protobuf.numbers fields ofFields 2 (fun _ => rfl) (by decide) (by decide) fields_lt ofFields_fields

end CommonMACHeader
end Emane

import Emane.Transport.Impl.EthernetTransport

/-!
This module contains which frames are accepted, what they say about the addresses of NEMs, and
which fields are read for it.
-/

namespace Emane
namespace Transport

open NetUtils

def proto (bytes : List UInt8) : Nat :=
  EtherHeader.proto.get bytes

structure Accepts (bytes : List UInt8) : Prop where
  eth : ETH_HEADER_LEN ≤ bytes.length
  ipv4 : proto bytes = ETH_P_IPV4 → ETH_HEADER_LEN + IPV4_HEADER_LEN ≤ bytes.length
  ipv6 : proto bytes = ETH_P_IPV6 → ETH_HEADER_LEN + IPV6_HEADER_LEN ≤ bytes.length
  arp : proto bytes = ETH_P_ARP → ETH_HEADER_LEN + ETHARP_HEADER_LEN ≤ bytes.length

instance (bytes : List UInt8) : Decidable (Accepts bytes) :=
  decidable_of_iff
    (ETH_HEADER_LEN ≤ bytes.length
      ∧ (proto bytes = ETH_P_IPV4 → ETH_HEADER_LEN + IPV4_HEADER_LEN ≤ bytes.length)
      ∧ (proto bytes = ETH_P_IPV6 → ETH_HEADER_LEN + IPV6_HEADER_LEN ≤ bytes.length)
      ∧ (proto bytes = ETH_P_ARP → ETH_HEADER_LEN + ETHARP_HEADER_LEN ≤ bytes.length))
    ⟨fun h => ⟨h.1, h.2.1, h.2.2.1, h.2.2.2⟩, fun h => ⟨h.eth, h.ipv4, h.ipv6, h.arp⟩⟩

def TypeInside (bytes : List UInt8) : Prop :=
  proto bytes = ETH_P_IPV6 → Ip6Header.next.get (bytes.drop ETH_HEADER_LEN) = IPV6_P_ICMP →
    ETH_HEADER_LEN + IPV6_HEADER_LEN + 1 ≤ bytes.length

instance (bytes : List UInt8) : Decidable (TypeInside bytes) :=
  inferInstanceAs (Decidable (_ → _ → _))

def advertised (bytes : List UInt8) : Option EtherAddr :=
  let behindEth := bytes.drop ETH_HEADER_LEN
  if proto bytes = ETH_P_ARP then
    let code := EtherArpHeader.code.get behindEth
    if code = ETH_ARPOP_REPLY ∨ code = ETH_ARPOP_REQUEST
      then some (EtherArpHeader.srcHwAddr.get behindEth) else none
  else if proto bytes = ETH_P_IPV6 ∧ Ip6Header.next.get behindEth = IPV6_P_ICMP then
    let type := IP6ICMPHeader.type.get (behindEth.drop IPV6_HEADER_LEN)
    if type = IP6_ICMP_NEIGH_SOLICIT ∨ type = IP6_ICMP_NEIGH_ADVERT
      then some (EtherHeader.src.get bytes) else none
  else
    none

section

variable {bytes : List UInt8} {beyond : Nat → UInt8}

theorem advertised_of_arp (h : proto bytes = ETH_P_ARP)
    : advertised bytes =
        if EtherArpHeader.code.get (bytes.drop ETH_HEADER_LEN) = ETH_ARPOP_REPLY
            ∨ EtherArpHeader.code.get (bytes.drop ETH_HEADER_LEN) = ETH_ARPOP_REQUEST then
          some (EtherArpHeader.srcHwAddr.get (bytes.drop ETH_HEADER_LEN))
        else
          none := by
  exact if_pos h

theorem advertised_of_icmp (h : proto bytes = ETH_P_IPV6)
    (hnext : Ip6Header.next.get (bytes.drop ETH_HEADER_LEN) = IPV6_P_ICMP)
    : advertised bytes =
        if IP6ICMPHeader.type.get ((bytes.drop ETH_HEADER_LEN).drop IPV6_HEADER_LEN)
          = IP6_ICMP_NEIGH_SOLICIT
            ∨ IP6ICMPHeader.type.get ((bytes.drop ETH_HEADER_LEN).drop IPV6_HEADER_LEN)
                = IP6_ICMP_NEIGH_ADVERT then
          some (EtherHeader.src.get bytes)
        else
          none := by
  have harp : ¬proto bytes = ETH_P_ARP := fun harp => absurd (h.symm.trans harp) (by decide)
  exact (if_neg harp).trans (if_pos ⟨h, hnext⟩)

theorem advertised_of_not (harp : ¬proto bytes = ETH_P_ARP)
    (hicmp : ¬(proto bytes = ETH_P_IPV6 ∧ Ip6Header.next.get (bytes.drop ETH_HEADER_LEN) = IPV6_P_ICMP))
    : advertised bytes = none := by
  exact (if_neg harp).trans (if_neg hicmp)

theorem read_inside {f : Field} {header : Nat} (h : header + f.offset + f.width ≤ bytes.length)
    : (f.read (Memory.ofList bytes beyond) header).Within (BufferStep.Inside bytes.length)
      ∧ (f.read (Memory.ofList bytes beyond) header).result = f.get (bytes.drop header) := by
  exact ⟨(Field.within_read_iff _ _ _).mpr h, Field.result_read h⟩

theorem proto_inside (h : ETH_HEADER_LEN ≤ bytes.length)
    : (EtherHeader.proto.read (Memory.ofList bytes beyond) 0).Within (BufferStep.Inside bytes.length)
      ∧ (EtherHeader.proto.read (Memory.ofList bytes beyond) 0).result = proto bytes := by
  have hfield : 0 + EtherHeader.proto.offset + EtherHeader.proto.width ≤ bytes.length := by
    unfold ETH_HEADER_LEN at h
    change 0 + 12 + 2 ≤ bytes.length
    omega
  have hread := @read_inside bytes beyond EtherHeader.proto 0 hfield
  exact hread

theorem verifyFrame_inside (hframe : bytes.length < 2^64)
    : (verifyFrame (Memory.ofList bytes beyond) 0 bytes.length).Within (BufferStep.Inside bytes.length)
      ∧ (0 ≤ (verifyFrame (Memory.ofList bytes beyond) 0 bytes.length).result ↔ Accepts bytes) := by
  unfold verifyFrame
  by_cases heth : bytes.length < ETH_HEADER_LEN
  . rw [if_pos heth]
    refine ⟨Logged.within_pure _ _, iff_of_false (by decide) ?_⟩
    exact fun h => absurd h.eth (Nat.not_le.mpr heth)
  . have hheader : ETH_HEADER_LEN ≤ bytes.length := Nat.not_lt.mp heth
    obtain ⟨hwithin, hproto⟩ := @proto_inside bytes beyond hheader
    rw [if_neg heth]
    simp only [Logged.within_bind_iff, Logged.result_bind, hproto, BufferStep.within_sub_iff,
      BufferStep.inside_subtract_iff,
      BufferStep.result_sub hheader hframe]
    -- the frame has one of the protocols, and is long enough for it or not
    have hverdict : ∀ {needed : Nat}, (Accepts bytes ↔ ETH_HEADER_LEN + needed ≤ bytes.length) →
        ((if bytes.length - ETH_HEADER_LEN < needed then return -1 else return 0 : Logged
          BufferStep Int).Within
            (BufferStep.Inside bytes.length)
          ∧ (0 ≤ (if bytes.length - ETH_HEADER_LEN < needed then return -1 else return 0 : Logged
            BufferStep Int).result
              ↔ Accepts bytes)) := by
      intro needed hneeded
      split
      . next hshort => exact ⟨Logged.within_pure _ _, iff_of_false (by decide)
          (fun h => by have := hneeded.mp h; omega)⟩
      . next hlong => exact ⟨Logged.within_pure _ _, iff_of_true (by decide) (hneeded.mpr (by omega))⟩
    split
    . next hipv4 =>
      have hneeded : Accepts bytes ↔ ETH_HEADER_LEN + IPV4_HEADER_LEN ≤ bytes.length :=
        ⟨fun h => h.ipv4 hipv4,
          fun h => ⟨hheader, fun _ => h, fun heq => absurd (hipv4.symm.trans heq) (by decide),
          fun heq => absurd (hipv4.symm.trans heq) (by decide)⟩⟩
      exact ⟨⟨hwithin, hheader, (hverdict hneeded).1⟩, (hverdict hneeded).2⟩
    . next hipv4 =>
      split
      . next hipv6 =>
        have hneeded : Accepts bytes ↔ ETH_HEADER_LEN + IPV6_HEADER_LEN ≤ bytes.length :=
          ⟨fun h => h.ipv6 hipv6, fun h => ⟨hheader, fun heq => absurd heq hipv4, fun _ => h,
            fun heq => absurd (hipv6.symm.trans heq) (by decide)⟩⟩
        exact ⟨⟨hwithin, hheader, (hverdict hneeded).1⟩, (hverdict hneeded).2⟩
      . next hipv6 =>
        split
        . next harp =>
          have hneeded : Accepts bytes ↔ ETH_HEADER_LEN + ETHARP_HEADER_LEN ≤ bytes.length :=
            ⟨fun h => h.arp harp, fun h =>
              ⟨hheader, fun heq => absurd heq hipv4, fun heq => absurd heq hipv6, fun _ => h⟩⟩
          exact ⟨⟨hwithin, hheader, (hverdict hneeded).1⟩, (hverdict hneeded).2⟩
        . next harp =>
          refine ⟨⟨hwithin, hheader, Logged.within_pure _ _⟩, iff_of_true (by decide) ?_⟩
          exact ⟨hheader, fun heq => absurd heq hipv4, fun heq => absurd heq hipv6,
            fun heq => absurd heq harp⟩

end

namespace EthernetTransport

def Learns (t : EthernetTransport) : Prop :=
  t.bBroadcastMode = false ∧ t.bArpCacheMode = true

instance (t : EthernetTransport) : Decidable t.Learns :=
  inferInstanceAs (Decidable (_ ∧ _))

def learn (t : EthernetTransport) (bytes : List UInt8) (nemId : NEMId) : EthernetTransport :=
  if t.Learns then
    (advertised bytes).elim t (fun addr => t.addEntry addr nemId)
  else
    t

section

variable (t : EthernetTransport) {bytes : List UInt8} {beyond : Nat → UInt8}

theorem find?_addEntry (addr addr' : EtherAddr) (nemId : NEMId)
    : (t.addEntry addr nemId).macCache.find? addr' =
        if addr' = addr then some nemId else t.macCache.find? addr' := by
  unfold addEntry
  cases hfind : t.macCache.find? addr with
  | none => simp [SortedMap.find?_insert, hfind]
  | some nemId' =>
    simp only
    split
    . rw [SortedMap.find?_set]
    . next heq =>
      split
      . next haddr => rw [haddr, hfind, not_not.mp heq]
      . rfl

theorem addEntry_learns (addr : EtherAddr) (nemId : NEMId)
    : (t.addEntry addr nemId).Learns ↔ t.Learns := by
  unfold addEntry
  split
  . rfl
  . split
    . rfl
    . rfl

theorem updateArpCache_inside (haccepts : Accepts bytes) (nemId : NEMId)
    : ((t.updateArpCache (Memory.ofList bytes beyond) 0 nemId).Within (BufferStep.Inside bytes.length)
          ↔
        (t.Learns → TypeInside bytes))
      ∧ ((t.Learns → TypeInside bytes)
          → (t.updateArpCache (Memory.ofList bytes beyond) 0 nemId).result
          = t.learn bytes nemId) := by
  unfold updateArpCache learn
  by_cases hbroadcast : t.bBroadcastMode = true
  . have hlearns : ¬t.Learns := fun h => absurd (h.1.symm.trans hbroadcast) (by decide)
    rw [if_pos hbroadcast, if_neg hlearns]
    exact ⟨iff_of_true (Logged.within_pure _ _) (fun h => absurd h hlearns), fun _ => rfl⟩
  . rw [if_neg hbroadcast]
    by_cases harpCache : t.bArpCacheMode = true
    . have hlearns : t.Learns := ⟨Bool.not_eq_true _ ▸ hbroadcast, harpCache⟩
      obtain ⟨hwithin, hproto⟩ := @proto_inside bytes beyond haccepts.eth
      rw [if_neg (not_not.mpr harpCache), if_pos hlearns]
      simp only [Logged.within_bind_iff, Logged.result_bind, hproto, hwithin, true_and, hlearns,
        true_implies]
      split
      . next harp =>
        -- the header of an accepted ARP frame is there as a whole
        have hlen : 14 + 28 ≤ bytes.length := haccepts.arp harp
        obtain ⟨hcodeWithin, hcode⟩ := @read_inside bytes beyond EtherArpHeader.code ETH_HEADER_LEN
          (show 14 + 6 + 2 ≤ bytes.length by omega)
        obtain ⟨haddrWithin, haddr⟩ := @read_inside bytes beyond EtherArpHeader.srcHwAddr
          ETH_HEADER_LEN (show 14 + 8 + 6 ≤ bytes.length by omega)
        have htype : TypeInside bytes := fun hipv6 => absurd (harp.symm.trans hipv6) (by decide)
        rw [advertised_of_arp harp]
        simp only [Nat.zero_add, Logged.within_bind_iff, Logged.result_bind, hcodeWithin, hcode,
          true_and, htype, iff_true,
          true_implies]
        split
        . exact ⟨(Logged.within_bind_iff _ _ _).mpr ⟨haddrWithin, Logged.within_pure _ _⟩,
            congrArg (t.addEntry · nemId) haddr⟩
        . exact ⟨Logged.within_pure _ _, rfl⟩
      . next harp =>
        split
        . next hipv6 =>
          -- of an accepted IPv6 frame this holds of the two headers, but not of what comes behind them
          have hlen : 14 + 40 ≤ bytes.length := haccepts.ipv6 hipv6
          obtain ⟨hnextWithin, hnext⟩ := @read_inside bytes beyond Ip6Header.next ETH_HEADER_LEN
            (show 14 + 6 + 1 ≤ bytes.length by omega)
          obtain ⟨hsrcWithin, hsrc⟩ := @read_inside bytes beyond EtherHeader.src 0
            (show 0 + 6 + 6 ≤ bytes.length by omega)
          simp only [Nat.zero_add, Logged.within_bind_iff, Logged.result_bind, hnextWithin,
            hnext, true_and]
          split
          . next hicmp =>
            have htype : TypeInside bytes ↔ ETH_HEADER_LEN + IPV6_HEADER_LEN + 1 ≤ bytes.length :=
              ⟨fun h => h hipv6 hicmp, fun h _ _ => h⟩
            have htypeWithin : (IP6ICMPHeader.type.read (Memory.ofList bytes beyond)
              (ETH_HEADER_LEN + IPV6_HEADER_LEN)).Within
                  (BufferStep.Inside bytes.length)
                  ↔
                ETH_HEADER_LEN + IPV6_HEADER_LEN + 1 ≤ bytes.length :=
              Field.within_read_iff _ _ _
            rw [advertised_of_icmp hipv6 hicmp, htype]
            simp only [Logged.within_bind_iff, Logged.result_bind, htypeWithin]
            refine ⟨and_iff_left ?_, fun hbehind => ?_⟩
            . split
              . exact (Logged.within_bind_iff _ _ _).mpr ⟨hsrcWithin, Logged.within_pure _ _⟩
              . exact Logged.within_pure _ _
            . have htypeRead := (@read_inside bytes beyond IP6ICMPHeader.type
                (ETH_HEADER_LEN + IPV6_HEADER_LEN) hbehind).2
              rw [← List.drop_drop] at htypeRead
              rw [htypeRead]
              split
              . exact congrArg (t.addEntry · nemId) hsrc
              . rfl
          . next hicmp =>
            rw [advertised_of_not harp (fun h => hicmp h.2)]
            exact ⟨iff_of_true (Logged.within_pure _ _) (fun _ h => absurd h hicmp), fun _ => rfl⟩
        . next hipv6 =>
          rw [advertised_of_not harp (fun h => hipv6 h.1)]
          exact ⟨iff_of_true (Logged.within_pure _ _) (fun h => absurd h hipv6), fun _ => rfl⟩
    . have hlearns : ¬t.Learns := fun h => harpCache h.2
      rw [if_pos harpCache, if_neg hlearns]
      exact ⟨iff_of_true (Logged.within_pure _ _) (fun h => absurd h hlearns), fun _ => rfl⟩

end

end EthernetTransport
end Transport
end Emane

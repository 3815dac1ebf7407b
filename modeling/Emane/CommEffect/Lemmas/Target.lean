import Emane.CommEffect.Impl.Target

/-!
This module contains what the rules of a target say about the bytes of a frame, and for which
frames the code stays inside them.
-/

namespace Emane
namespace CommEffect

open NetUtils

def Agrees (care : Nat) (f : Field) (bytes : List UInt8) : Prop :=
  care ≠ 0 → f.get bytes = care

instance (care : Nat) (f : Field) (bytes : List UInt8) : Decidable (Agrees care f bytes) :=
  inferInstanceAs (Decidable (care ≠ 0 → f.get bytes = care))

namespace IPProtocolRule

def Matches (rule : IPProtocolRule) (type : Nat) (bytes : List UInt8) : Prop :=
  match rule with
  | .udp srcPort dstPort =>
    type = IP_PROTO_UDP
      ∧ (¬(srcPort = 0 ∧ dstPort = 0) → UDP_HEADER_LEN ≤ bytes.length)
      ∧ Agrees srcPort.toNat UdpHeader.src bytes
      ∧ Agrees dstPort.toNat UdpHeader.dst bytes
  | .simple ownType => type = ownType.toNat

instance (rule : IPProtocolRule) (type : Nat) (bytes : List UInt8)
    : Decidable (rule.Matches type bytes) := by
  cases rule with
  | udp srcPort dstPort => exact instDecidableAnd
  | simple ownType => exact Nat.decEq _ _

end IPProtocolRule

def headerLength (bytes : List UInt8) : Nat :=
  4 * (Ip4Header.vhl.get bytes % 16)

namespace EthernetProtocolIPv4Rule

structure FieldsAgree (rule : EthernetProtocolIPv4Rule) (bytes : List UInt8) : Prop where
  src : Agrees rule.src.toNat Ip4Header.src bytes
  dst : Agrees rule.dst.toNat Ip4Header.dst bytes
  len : Agrees rule.len.toNat Ip4Header.len bytes
  tos : Agrees rule.tos.toNat Ip4Header.tos bytes
  ttl : Agrees rule.ttl.toNat Ip4Header.hops bytes

instance (rule : EthernetProtocolIPv4Rule) (bytes : List UInt8) : Decidable (rule.FieldsAgree bytes) :=
  decidable_of_iff
    (Agrees rule.src.toNat Ip4Header.src bytes ∧ Agrees rule.dst.toNat Ip4Header.dst bytes
      ∧ Agrees rule.len.toNat Ip4Header.len bytes ∧ Agrees rule.tos.toNat Ip4Header.tos bytes
      ∧ Agrees rule.ttl.toNat Ip4Header.hops bytes)
    ⟨fun h => ⟨h.1, h.2.1, h.2.2.1, h.2.2.2.1, h.2.2.2.2⟩, fun h => ⟨h.src, h.dst, h.len, h.tos, h.ttl⟩⟩

def NestedMatches (rule : EthernetProtocolIPv4Rule) (bytes : List UInt8) : Prop :=
  ∃ nested ∈ rule.rules, nested.Matches (Ip4Header.proto.get bytes) (bytes.drop (headerLength bytes))

structure Matches (rule : EthernetProtocolIPv4Rule) (type : Nat) (bytes : List UInt8) : Prop where
  type : type = ETH_P_IPV4
  header : rule.bCare = true → IPV4_HEADER_LEN ≤ bytes.length ∧ rule.FieldsAgree bytes
  nested : rule.rules ≠ [] → rule.NestedMatches bytes

instance (rule : EthernetProtocolIPv4Rule) (bytes : List UInt8) : Decidable (rule.NestedMatches bytes) :=
  inferInstanceAs (Decidable (∃ nested ∈ rule.rules, _))

instance (rule : EthernetProtocolIPv4Rule) (type : Nat) (bytes : List UInt8)
    : Decidable (rule.Matches type bytes) :=
  decidable_of_iff
    (type = ETH_P_IPV4 ∧ (rule.bCare = true → IPV4_HEADER_LEN ≤ bytes.length ∧ rule.FieldsAgree bytes)
      ∧ (rule.rules ≠ [] → rule.NestedMatches bytes))
    ⟨fun h => ⟨h.1, h.2.1, h.2.2⟩, fun h => ⟨h.type, h.header, h.nested⟩⟩

structure Descends (rule : EthernetProtocolIPv4Rule) (type : Nat) (bytes : List UInt8) : Prop where
  type : type = ETH_P_IPV4
  length : IPV4_HEADER_LEN ≤ bytes.length
  fields : rule.FieldsAgree bytes
  rules : rule.rules ≠ []

end EthernetProtocolIPv4Rule

namespace Target

def Matches (target : Target) (bytes : List UInt8) : Prop :=
  target.rules = []
    ∨ ETH_HEADER_LEN ≤ bytes.length
        ∧ ∃ rule ∈ target.rules, rule.Matches (EtherHeader.proto.get bytes) (bytes.drop ETH_HEADER_LEN)

instance (target : Target) (bytes : List UInt8) : Decidable (target.Matches bytes) :=
  inferInstanceAs (Decidable (_ ∨ _))

def HeadersFit (target : Target) (bytes : List UInt8) : Prop :=
  ∀ before rule after, target.rules = before ++ rule :: after →
    ETH_HEADER_LEN ≤ bytes.length →
    (∀ r ∈ before, ¬r.Matches (EtherHeader.proto.get bytes) (bytes.drop ETH_HEADER_LEN)) →
    rule.Descends (EtherHeader.proto.get bytes) (bytes.drop ETH_HEADER_LEN) →
    headerLength (bytes.drop ETH_HEADER_LEN) ≤ (bytes.drop ETH_HEADER_LEN).length

end Target

section

variable {packet : List UInt8} {beyond : Nat → UInt8} {buf : Nat}

theorem differs_decides {care : Nat} {f : Field} (h : buf + f.offset + f.width ≤ packet.length)
    : (differs care f (Memory.ofList packet beyond) buf).Decides (BufferStep.Inside packet.length)
        (¬Agrees care f (packet.drop buf)) := by
  unfold differs Agrees
  split
  . next hcare =>
    constructor
    . simpa using h
    . rw [Logged.result_bind, Logged.result_pure, Field.result_read h, decide_eq_true_iff]
      exact ⟨fun hvalue hagrees => hvalue (hagrees hcare), fun hnot hvalue => hnot (fun _ => hvalue)⟩
  . next hcare => exact .no (not_not.mpr (fun hcare' => absurd hcare' hcare))

theorem IPProtocolRule.matchBuf_decides (rule : IPProtocolRule) (type : Nat) (hbuf : buf ≤ packet.length)
    : (rule.matchBuf (Memory.ofList packet beyond) buf (packet.length - buf) type).Decides
        (BufferStep.Inside packet.length)
        (rule.Matches type (packet.drop buf)) := by
  cases rule with
  | simple ownType => exact ⟨Logged.within_pure _ _, decide_eq_true_iff⟩
  | udp srcPort dstPort =>
    unfold matchBuf matchUDP Matches
    simp only [List.length_drop]
    split
    . next htype => exact .no (fun hmatches => htype hmatches.1)
    . next htype =>
      split
      . next hports =>
        refine .yes ⟨not_not.mp htype, fun hcare => absurd hports hcare, ?_, ?_⟩
        . rw [hports.1]
          exact fun hcare => absurd rfl hcare
        . rw [hports.2]
          exact fun hcare => absurd rfl hcare
      . next hports =>
        split
        . next hshort => exact .no (fun hmatches => absurd (hmatches.2.1 hports) (Nat.not_le.mpr hshort))
        . next hlong =>
          have hroom : UDP_HEADER_LEN ≤ packet.length - buf := Nat.not_lt.mp hlong
          unfold UDP_HEADER_LEN at hroom
          refine .guard (differs_decides ?_)
            (fun hsrc => .guard (differs_decides ?_) (fun hdst => .yes ?_) ?_) ?_
          . change buf + 0 + 2 ≤ packet.length
            omega
          . change buf + 2 + 2 ≤ packet.length
            omega
          . exact ⟨not_not.mp htype, fun _ => Nat.not_lt.mp hlong, hsrc, hdst⟩
          . exact fun hmatches => hmatches.2.2.2
          . exact fun hmatches => hmatches.2.2.1

theorem headerLength_eq (bytes : List UInt8)
    : (Ip4Header.vhl.get bytes &&& 0x0F) <<< 2 = headerLength bytes := by
  rw [Nat.shiftLeft_eq, Nat.and_two_pow_sub_one_eq_mod _ 4, Nat.mul_comm]
  rfl

namespace EthernetProtocolIPv4Rule

variable (rule : EthernetProtocolIPv4Rule)

theorem matchNested_decides (hheader : buf + IPV4_HEADER_LEN ≤ packet.length)
    (hframe : packet.length < 2^64)
    (hfits : headerLength (packet.drop buf) ≤ packet.length - buf)
    : (rule.matchNested (Memory.ofList packet beyond) buf (packet.length - buf)).Decides
        (BufferStep.Inside packet.length)
        (rule.NestedMatches (packet.drop buf)) := by
  unfold IPV4_HEADER_LEN at hheader
  have hvhl : buf + Ip4Header.vhl.offset + Ip4Header.vhl.width ≤ packet.length := by
    change buf + 0 + 1 ≤ packet.length
    omega
  have hproto : buf + Ip4Header.proto.offset + Ip4Header.proto.width ≤ packet.length := by
    change buf + 9 + 1 ≤ packet.length
    omega
  unfold matchNested
  simp only [Logged.Decides, Logged.within_bind_iff, Logged.result_bind, Field.within_read_iff,
    BufferStep.within_sub_iff,
    BufferStep.inside_read_iff, BufferStep.inside_subtract_iff, Field.result_read hvhl,
      Field.result_read hproto, headerLength_eq,
    BufferStep.result_sub hfits (Nat.lt_of_le_of_lt (Nat.sub_le _ _) hframe)]
  have hnested : ∀ nested ∈ rule.rules,
      (nested.matchBuf (Memory.ofList packet beyond) (buf + headerLength (packet.drop buf))
        (packet.length - buf - headerLength (packet.drop buf))
          (Ip4Header.proto.get (packet.drop buf))).Decides
          (BufferStep.Inside packet.length)
          (nested.Matches (Ip4Header.proto.get (packet.drop buf))
              ((packet.drop buf).drop (headerLength (packet.drop buf)))) := by
    intro nested _
    rw [List.drop_drop, Nat.sub_sub]
    exact nested.matchBuf_decides _ (by omega)
  have hfind := Logged.Decides.findIf hnested
  exact ⟨⟨hvhl, hfits, hproto, hfind.1⟩, hfind.2⟩

theorem headerLength_le_of_within (hheader : buf + IPV4_HEADER_LEN ≤ packet.length)
    (h : (rule.matchNested (Memory.ofList packet beyond) buf (packet.length - buf)).Within
      (BufferStep.Inside packet.length))
    : headerLength (packet.drop buf) ≤ packet.length - buf := by
  unfold IPV4_HEADER_LEN at hheader
  have hvhl : buf + Ip4Header.vhl.offset + Ip4Header.vhl.width ≤ packet.length := by
    change buf + 0 + 1 ≤ packet.length
    omega
  unfold matchNested at h
  simp only [Logged.within_bind_iff, BufferStep.within_sub_iff, BufferStep.inside_subtract_iff,
    Field.result_read hvhl,
    headerLength_eq] at h
  exact h.2.1

theorem matches_of_careless {type : Nat} {bytes : List UInt8} (hcare : rule.bCare = false)
    (htype : type = ETH_P_IPV4)
    : rule.Matches type bytes := by
  refine ⟨htype, fun hcare' => absurd hcare (by rw [hcare']; decide), fun hrules => ?_⟩
  simp only [bCare, decide_eq_false_iff_not, not_not] at hcare
  exact absurd hcare.2.2.2.2.2 hrules

theorem bCare_of_rules (h : rule.rules ≠ []) : rule.bCare = true := by
  rw [bCare, decide_eq_true_iff]
  exact fun hcareless => h hcareless.2.2.2.2.2

theorem matchFields_decides (hheader : buf + IPV4_HEADER_LEN ≤ packet.length)
    {behind : Logged BufferStep Bool} {c : Prop}
    (hbehind : rule.FieldsAgree (packet.drop buf) → behind.Decides (BufferStep.Inside packet.length) c)
    (hneeded : c → rule.FieldsAgree (packet.drop buf))
    : (rule.matchFields (Memory.ofList packet beyond) buf behind).Decides
        (BufferStep.Inside packet.length) c := by
  unfold IPV4_HEADER_LEN at hheader
  refine .guard (differs_decides ?_)
    (fun hsrc => .guard (differs_decides ?_) (fun hdst => .guard (differs_decides ?_)
    (fun hlen => .guard (differs_decides ?_)
      (fun htos => .guard (differs_decides ?_) (fun httl => ?_) ?_) ?_) ?_) ?_) ?_
  . change buf + 12 + 4 ≤ packet.length
    omega
  . change buf + 16 + 4 ≤ packet.length
    omega
  . change buf + 2 + 2 ≤ packet.length
    omega
  . change buf + 1 + 1 ≤ packet.length
    omega
  . change buf + 8 + 1 ≤ packet.length
    omega
  . exact hbehind ⟨hsrc, hdst, hlen, htos, httl⟩
  . exact fun hc => (hneeded hc).ttl
  . exact fun hc => (hneeded hc).tos
  . exact fun hc => (hneeded hc).len
  . exact fun hc => (hneeded hc).dst
  . exact fun hc => (hneeded hc).src

theorem within_behind (hheader : buf + IPV4_HEADER_LEN ≤ packet.length) {behind : Logged BufferStep Bool}
    (hfields : rule.FieldsAgree (packet.drop buf))
    (h : (rule.matchFields (Memory.ofList packet beyond) buf behind).Within
      (BufferStep.Inside packet.length))
    : behind.Within (BufferStep.Inside packet.length) := by
  unfold IPV4_HEADER_LEN at hheader
  refine (differs_decides ?_).within_rest hfields.ttl ((differs_decides ?_).within_rest hfields.tos
    ((differs_decides ?_).within_rest hfields.len ((differs_decides ?_).within_rest hfields.dst
      ((differs_decides ?_).within_rest hfields.src h))))
  . change buf + 8 + 1 ≤ packet.length
    omega
  . change buf + 1 + 1 ≤ packet.length
    omega
  . change buf + 2 + 2 ≤ packet.length
    omega
  . change buf + 16 + 4 ≤ packet.length
    omega
  . change buf + 12 + 4 ≤ packet.length
    omega

theorem matchBuf_decides {type : Nat} (hbuf : buf ≤ packet.length) (hframe : packet.length < 2^64)
    (hfits : rule.Descends type (packet.drop buf) → headerLength (packet.drop buf) ≤ packet.length - buf)
    : (rule.matchBuf (Memory.ofList packet beyond) buf (packet.length - buf) type).Decides
        (BufferStep.Inside packet.length)
        (rule.Matches type (packet.drop buf)) := by
  unfold matchBuf
  split
  . next htype => exact .no (fun hmatches => htype hmatches.type)
  . next htype =>
    have hip : type = ETH_P_IPV4 := not_not.mp htype
    split
    . next hcare => exact .yes (rule.matches_of_careless hcare hip)
    . next hcare =>
      have hcares : rule.bCare = true := Bool.not_eq_false _ ▸ hcare
      split
      . next hshort =>
        refine .no (fun hmatches => ?_)
        have hlong := (hmatches.header hcares).1
        rw [List.length_drop] at hlong
        omega
      . next hlong =>
        have hheader : IPV4_HEADER_LEN ≤ packet.length - buf := Nat.not_lt.mp hlong
        refine rule.matchFields_decides (by omega) (fun hfields => ?_)
          (fun hmatches => (hmatches.header hcares).2)
        have hlength : IPV4_HEADER_LEN ≤ (packet.drop buf).length := by
          rw [List.length_drop]
          exact hheader
        split
        . next hempty =>
          exact .yes ⟨hip, fun _ => ⟨hlength, hfields⟩, fun hrules => absurd
            (List.isEmpty_iff.mp hempty) hrules⟩
        . next hrules =>
          have hne : rule.rules ≠ [] := fun hnil => hrules (List.isEmpty_iff.mpr hnil)
          refine (rule.matchNested_decides (by omega) hframe
            (hfits ⟨hip, hlength, hfields, hne⟩)).congr ?_
          exact ⟨fun hnested => ⟨hip, fun _ => ⟨hlength, hfields⟩, fun _ => hnested⟩,
            fun hmatches => hmatches.nested hne⟩

theorem headerLength_le_of_descends {type : Nat} (hdescends : rule.Descends type (packet.drop buf))
    (h : (rule.matchBuf (Memory.ofList packet beyond) buf (packet.length - buf) type).Within
      (BufferStep.Inside packet.length))
    : headerLength (packet.drop buf) ≤ packet.length - buf := by
  have hlength := hdescends.length
  rw [List.length_drop] at hlength
  have hheader : buf + IPV4_HEADER_LEN ≤ packet.length := by
    unfold IPV4_HEADER_LEN at hlength ⊢
    omega
  unfold matchBuf at h
  rw [if_neg (not_not.mpr hdescends.type), if_neg (by rw [rule.bCare_of_rules hdescends.rules]; decide),
    if_neg (Nat.not_lt.mpr hlength)] at h
  have hnested := rule.within_behind hheader hdescends.fields h
  rw [if_neg (by simpa using hdescends.rules)] at hnested
  exact rule.headerLength_le_of_within hheader hnested

theorem result_matchBuf_of_within {type : Nat} (hbuf : buf ≤ packet.length)
    (hframe : packet.length < 2^64)
    (h : (rule.matchBuf (Memory.ofList packet beyond) buf (packet.length - buf) type).Within
      (BufferStep.Inside packet.length))
    : (rule.matchBuf (Memory.ofList packet beyond) buf (packet.length - buf) type).result = true
        ↔
      rule.Matches type (packet.drop buf) := by
  refine (rule.matchBuf_decides hbuf hframe (fun hdescends => ?_)).2
  exact rule.headerLength_le_of_descends hdescends h

theorem within_matchBuf_iff {type : Nat} (hbuf : buf ≤ packet.length) (hframe : packet.length < 2^64)
    : (rule.matchBuf (Memory.ofList packet beyond) buf (packet.length - buf) type).Within
        (BufferStep.Inside packet.length)
        ↔
      (rule.Descends type (packet.drop buf) → headerLength (packet.drop buf) ≤ packet.length - buf) := by
  constructor
  . exact fun h hdescends => rule.headerLength_le_of_descends hdescends h
  . exact fun h => (rule.matchBuf_decides hbuf hframe h).1

end EthernetProtocolIPv4Rule

end

theorem Target.matchFrame_decides_iff (target : Target) (frame : Frame) (beyond : Nat → UInt8)
    : (target.matchFrame frame beyond).Within (BufferStep.Inside frame.val.length)
      ∧ ((target.matchFrame frame beyond).result = true ↔ target.Matches frame.val)
        ↔
      target.HeadersFit frame.val := by
  change (target.matchFrame frame beyond).Decides _ _ ↔ _
  unfold matchFrame matchBuf Matches HeadersFit
  split
  . next hempty =>
    rw [List.isEmpty_iff] at hempty
    refine iff_of_true (.yes (.inl hempty)) ?_
    intro before rule after hrules
    exact absurd (hempty.symm.trans hrules) (by simp)
  . next hempty =>
    rw [List.isEmpty_iff] at hempty
    split
    . next hshort =>
      refine iff_of_true (.no ?_) ?_
      . rintro (hnil | ⟨hlong, -⟩)
        . exact hempty hnil
        . exact absurd hlong (Nat.not_le.mpr hshort)
      . intro _ _ _ _ hlong
        exact absurd hlong (Nat.not_le.mpr hshort)
    . next hlong =>
      have hheader : ETH_HEADER_LEN ≤ frame.val.length := Nat.not_lt.mp hlong
      have hproto : 0 + EtherHeader.proto.offset + EtherHeader.proto.width ≤ frame.val.length := by
        unfold ETH_HEADER_LEN at hheader
        change 0 + 12 + 2 ≤ frame.val.length
        omega
      simp only [Logged.Decides, Logged.within_bind_iff, Logged.result_bind,
        BufferStep.within_sub_iff, Field.within_read_iff,
        BufferStep.inside_read_iff, BufferStep.inside_subtract_iff,
          BufferStep.result_sub hheader frame.property,
        Field.result_read hproto, List.drop_zero, Nat.zero_add, hheader, hempty, true_and, false_or,
          true_implies]
      have hsearch := @Logged.Decides.findIf_iff BufferStep EthernetProtocolIPv4Rule
        (BufferStep.Inside frame.val.length)
        (fun rule => rule.matchBuf (Memory.ofList frame.val beyond) ETH_HEADER_LEN
          (frame.val.length - ETH_HEADER_LEN)
          (EtherHeader.proto.get frame.val)) target.rules
        (fun rule => rule.Matches (EtherHeader.proto.get frame.val) (frame.val.drop ETH_HEADER_LEN))
        (fun rule _ hwithin => rule.result_matchBuf_of_within hheader frame.property hwithin)
      refine Iff.trans ?_ (hsearch.trans ?_)
      . exact ⟨fun h => ⟨h.1.2, h.2⟩, fun h => ⟨⟨hproto, h.1⟩, h.2⟩⟩
      . refine forall₃_congr (fun before rule after => forall₂_congr (fun _ _ => ?_))
        rw [rule.within_matchBuf_iff hheader frame.property, List.length_drop]

def portTarget : Target :=
  ⟨[⟨0, 0, 0, 0, 0, [.udp 9 0]⟩]⟩

def headerFrame : Frame :=
  ⟨List.replicate 12 0 ++ [0x08, 0x00] ++ [0x4F, 0, 0, 20, 0, 0, 0, 0, 64, 0x11]
    ++ List.replicate 10 0, by decide⟩

def portBeyond (i : Nat) : UInt8 :=
  if i = 75 then 9 else 0

theorem portTarget_matchFrame_headerFrame
    : ¬(portTarget.matchFrame headerFrame portBeyond).Within (BufferStep.Inside headerFrame.val.length)
      ∧ BufferStep.read 74 2 ∈ (portTarget.matchFrame headerFrame portBeyond).log
      ∧ (portTarget.matchFrame headerFrame portBeyond).result = true
      ∧ ¬portTarget.Matches headerFrame.val := by
  decide +kernel

end CommEffect
end Emane

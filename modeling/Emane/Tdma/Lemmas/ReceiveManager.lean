import Emane.Tdma.Impl.ReceiveManager

/-!
This module contains the reassembly of one packet from fragments that arrive in order.
-/

namespace Emane
namespace Tdma

def Entry.fragmentKey (source : NEMId) (e : Entry) : FragmentKey :=
  toLex (source, toLex (e.packet.info.priority, e.seq))

namespace ReceiveManager

@[simp]
theorem fragmentKey_component (source : NEMId) (kind : MessageComponent.Kind) (e : Entry) (n : Nat)
    : fragmentKey source (e.component kind n) = e.fragmentKey source := by
  rfl

theorem FragmentParts.data_insert (parts : FragmentParts) (offset : Nat) (data : Bytes)
    (h : ∀ part ∈ parts.toList, part.1 < offset)
    : FragmentParts.data (parts.insert offset data) = FragmentParts.data parts ++ data := by
  unfold FragmentParts.data
  rw [SortedMap.toList_insert_of_forall_lt _ _ _ h]
  simp

structure Collects (pkt : DownstreamPacket) (index offset : Nat) (assembly : FragmentInfo) : Prop where
  index_pos : 0 < index
  offset_pos : 0 < offset
  indexSet : assembly.indexSet = Finset.range index
  data : FragmentParts.data assembly.parts = pkt.bytes.take offset
  parts : ∀ part ∈ assembly.parts.toList, part.1 < offset

def Assembles (pkt : DownstreamPacket) (index offset : Nat) : Option FragmentInfo → Prop
  | none => index = 0 ∧ offset = 0
  | some assembly => Collects pkt index offset assembly

variable {assembly : FragmentInfo}

theorem Collects.insert {pkt : DownstreamPacket} {index offset : Nat}
    (h : Collects pkt index offset assembly) {n : Nat} (hn : 0 < n) (now : Nat)
    : Collects pkt (index + 1) (offset + n) {
        assembly with
        indexSet := Finset.range (index + 1)
        parts := assembly.parts.insert offset ((pkt.bytes.drop offset).take n)
        lastFragmentTime := now
      } := by
  constructor
  . omega
  . omega
  . rfl
  . rw [FragmentParts.data_insert _ _ _ h.parts]
    rw [h.data]
    rw [List.take_add]
  . intro part hpart
    rw [SortedMap.toList_insert_of_forall_lt _ _ _ h.parts] at hpart
    rw [List.mem_append, List.mem_singleton] at hpart
    cases hpart with
    | inl hpart =>
      have := h.parts part hpart
      omega
    | inr hpart =>
      rw [hpart]
      omega

theorem Collects.first (pkt : DownstreamPacket) {n : Nat} (hn : 0 < n) (now : Nat) (dst : NEMId)
    (priority : Priority)
    : Collects pkt 1 n {
        indexSet := {0}
        parts := SortedMap.empty.insert 0 (pkt.bytes.take n)
        lastFragmentTime := now
        destination := dst
        priority := priority
      } := by
  have hlist : (SortedMap.empty.insert 0 (pkt.bytes.take n)).toList = [(0, pkt.bytes.take n)] := by rfl
  constructor
  . omega
  . exact hn
  . rfl
  . simp [FragmentParts.data, hlist]
  . intro part hpart
    simp only [hlist, List.mem_singleton] at hpart
    rw [hpart]
    exact hn

section

variable (m : ReceiveManager) (now : Nat) (info : PacketInfo) (metaInfo : PacketMetaInfo)

variable {c : MessageComponent}

theorem receive_of_not_accepts (h : ¬ m.accepts c.destination)
    : m.receive now info metaInfo c = (m, [inbound info.source c .DROP_DESTINATION_MAC]) := by
  simp [receive, h]

theorem receive_of_not_fragment (h : m.accepts c.destination) (hfrag : ¬ c.isFragment)
    : m.receive now info metaInfo c
        =
      (m, inbound info.source c .ACCEPT_GOOD :: forward info metaInfo c c.data) := by
  simp [receive, h, hfrag]

theorem receive_of_fragment (h : m.accepts c.destination) (hfrag : c.isFragment)
    : m.receive now info metaInfo c
        =
      (
        { m with fragmentStore := (receiveFragment m.fragmentStore now info metaInfo c).1 },
        (receiveFragment m.fragmentStore now info metaInfo c).2
      ) := by
  simp [receive, h, hfrag]

theorem receive_eq (c : MessageComponent)
    : (m.receive now info metaInfo c).1
        =
      { m with fragmentStore := (m.receive now info metaInfo c).1.fragmentStore } := by
  unfold receive
  split
  . split
    . rfl
    . rfl
  . rfl

@[simp]
theorem accepts_receive (c : MessageComponent) (dst : NEMId)
    : (m.receive now info metaInfo c).1.accepts dst = m.accepts dst := by
  rw [receive_eq]
  rfl

end

section

variable (store : FragmentStore) (now : Nat) (info : PacketInfo) (metaInfo : PacketMetaInfo)
  (c : MessageComponent)

theorem find?_receiveFragment_of_ne {key : FragmentKey} (hkey : key ≠ fragmentKey info.source c)
    : (receiveFragment store now info metaInfo c).1.find? key = store.find? key := by
  unfold receiveFragment
  simp only
  split
  . split
    . rfl
    . split
      . split
        . rw [SortedMap.find?_set]
          rw [if_neg hkey]
        . rw [SortedMap.find?_erase]
          rw [if_neg hkey]
      . rw [SortedMap.find?_erase]
        rw [if_neg hkey]
  . split
    . rw [SortedMap.find?_insert]
      rw [if_neg hkey]
    . rfl

theorem receiveFragment_of_next {assembly : FragmentInfo}
    (hfind : store.find? (fragmentKey info.source c) = some assembly)
    (hindexSet : assembly.indexSet = Finset.range c.fragmentIndex)
    : receiveFragment store now info metaInfo c
        =
      let assembly' := {
        assembly with
        indexSet := Finset.range (c.fragmentIndex + 1)
        parts := assembly.parts.insert c.fragmentOffset c.data
        lastFragmentTime := now
      }
      if c.moreFragments then
        (store.set (fragmentKey info.source c) assembly', [])
      else
        let data := FragmentParts.data assembly'.parts
        (
          store.erase (fragmentKey info.source c),
          .inbound info.source c.destination c.priority data.length .ACCEPT_GOOD
            :: forward info metaInfo c data
        ) := by
  have hinsert : insert c.fragmentIndex (Finset.range c.fragmentIndex)
      = Finset.range (c.fragmentIndex + 1) := by
    rw [Finset.range_add_one]
  unfold receiveFragment
  simp only [hfind, hindexSet]
  rw [if_neg Finset.notMem_range_self]
  rw [hinsert]
  rw [if_pos (Finset.card_range _)]

theorem receiveFragment_of_first (hfind : store.find? (fragmentKey info.source c) = none)
    (hindex : c.fragmentIndex = 0)
    : receiveFragment store now info metaInfo c
        =
      (
        store.insert (fragmentKey info.source c) {
          indexSet := {0}
          parts := SortedMap.empty.insert c.fragmentOffset c.data
          lastFragmentTime := now
          destination := c.destination
          priority := c.priority
        },
        []
      ) := by
  unfold receiveFragment
  simp only [hfind]
  rw [if_pos hindex]
  rw [hindex]

end

theorem delivery_forward (info : PacketInfo) (metaInfo : PacketMetaInfo) (c : MessageComponent)
    (data : Bytes)
    : (forward info metaInfo c data).filterMap Output.delivery
        =
      [⟨c.type, c.destination, c.priority, data⟩] := by
  unfold forward
  cases h : c.type with
  | data => simp [Output.delivery]
  | control => simp [Output.delivery]

section

variable {m : ReceiveManager} (now : Nat) {info : PacketInfo} (metaInfo : PacketMetaInfo)
  (kind : MessageComponent.Kind)
  {e : Entry}

theorem isFragment_of_lt {n : Nat} (hn : n < e.remaining) : (e.component kind n).isFragment := by
  simp [MessageComponent.isFragment, Entry.moreFragments_of_lt kind hn]

theorem receive_cut (haccepts : m.accepts e.destination) {n : Nat} (hpos : 0 < n) (hn : n < e.remaining)
    (hassembles : Assembles e.packet e.index e.offset (m.fragmentStore.find? (e.fragmentKey info.source)))
    : let res := m.receive now info metaInfo (e.component kind n)
      Assembles e.packet (e.index + 1) (e.offset + n)
        (res.1.fragmentStore.find? (e.fragmentKey info.source))
        ∧ res.2.filterMap Output.delivery = [] := by
  intro res
  have hmore := Entry.moreFragments_of_lt kind hn
  have hres : res = _ := receive_of_fragment m now info metaInfo haccepts (isFragment_of_lt kind hn)
  rw [hres]
  cases hfind : m.fragmentStore.find? (e.fragmentKey info.source) with
  | none =>
    rw [hfind] at hassembles
    rw [receiveFragment_of_first m.fragmentStore now info metaInfo
      (e.component kind n) hfind hassembles.1]
    simp only [fragmentKey_component, List.filterMap_nil, and_true]
    rw [SortedMap.find?_insert, if_pos rfl, hfind]
    rw [hassembles.1, hassembles.2]
    simp only [Nat.zero_add, Option.getD_none, Entry.component, hassembles.2, List.drop_zero]
    exact Collects.first e.packet hpos now e.packet.info.destination e.packet.info.priority
  | some assembly =>
    rw [hfind] at hassembles
    rw [receiveFragment_of_next m.fragmentStore now info metaInfo
      (e.component kind n) hfind hassembles.indexSet]
    rw [if_pos hmore]
    simp only [fragmentKey_component, List.filterMap_nil, and_true]
    rw [SortedMap.find?_set, if_pos rfl]
    exact hassembles.insert hpos now

theorem receive_sent (haccepts : m.accepts e.destination) (hvalid : e.Valid)
    (hassembles : Assembles e.packet e.index e.offset (m.fragmentStore.find? (e.fragmentKey info.source)))
    : let res := m.receive now info metaInfo (e.component kind e.remaining)
      res.2.filterMap Output.delivery
          = [⟨kind, e.destination, e.packet.info.priority, e.packet.bytes⟩] := by
  intro res
  have hmore := Entry.moreFragments_of_remaining kind hvalid.offset_le
  have htake : e.packet.bytes.take (e.offset + e.remaining) = e.packet.bytes := by
    rw [List.take_of_length_le]
    rw [DownstreamPacket.length_bytes]
    unfold Entry.remaining
    omega
  cases hfind : m.fragmentStore.find? (e.fragmentKey info.source) with
  | none =>
    rw [hfind] at hassembles
    have hfrag : ¬ (e.component kind e.remaining).isFragment := by
      simp [MessageComponent.isFragment, Entry.component, hassembles.2, Entry.remaining]
    have hres : res = _ := receive_of_not_fragment m now info metaInfo haccepts hfrag
    rw [hres]
    rw [List.filterMap_cons_none (by rfl)]
    rw [delivery_forward]
    rw [hassembles.2, Nat.zero_add] at htake
    simp [Entry.component, hassembles.2, htake]
  | some assembly =>
    rw [hfind] at hassembles
    have hfrag : (e.component kind e.remaining).isFragment := by
      have hoffset : e.offset ≠ 0 := Nat.ne_of_gt hassembles.offset_pos
      simp [MessageComponent.isFragment, Entry.component, hoffset]
    have hres : res = _ := receive_of_fragment m now info metaInfo haccepts hfrag
    rw [hres]
    rw [receiveFragment_of_next m.fragmentStore now info metaInfo (e.component kind e.remaining) hfind
      hassembles.indexSet]
    rw [if_neg (by simp [hmore])]
    rw [List.filterMap_cons_none (by rfl)]
    rw [delivery_forward]
    simp only [Entry.component]
    rw [FragmentParts.data_insert _ _ _ hassembles.parts]
    rw [hassembles.data]
    rw [← List.take_add]
    rw [htake]

end

def Young (m : ReceiveManager) (now : Nat) : Prop :=
  0 < m.fragmentTimeoutThreshold
    ∧ ∀ entry ∈ m.fragmentStore.toList, now < entry.2.lastFragmentTime + m.fragmentTimeoutThreshold

instance (m : ReceiveManager) (now : Nat) : Decidable (m.Young now) :=
  inferInstanceAs (Decidable (_ ∧ _))

variable {m : ReceiveManager} {now : Nat} {key : FragmentKey}

theorem Young.of_find? (h : m.Young now)
    (hfind : m.fragmentStore.find? key = some assembly)
    : now < assembly.lastFragmentTime + m.fragmentTimeoutThreshold :=
  h.2 (key, assembly) ((SortedMap.find?_eq_some_iff m.fragmentStore key assembly).mp hfind)

theorem find?_receiveFragment {store : FragmentStore} {info : PacketInfo} {metaInfo : PacketMetaInfo}
    {c : MessageComponent}
    (h : (receiveFragment store now info metaInfo c).1.find? key = some assembly)
    : assembly.lastFragmentTime = now ∨ store.find? key = some assembly := by
  unfold receiveFragment at h
  simp only at h
  split at h
  . split at h
    . exact Or.inr h
    . split at h
      . split at h
        . rw [SortedMap.find?_set] at h
          split at h
          . rw [Option.some.injEq] at h
            exact Or.inl (h ▸ rfl)
          . exact Or.inr h
        . rw [SortedMap.find?_erase] at h
          split at h
          . simp at h
          . exact Or.inr h
      . rw [SortedMap.find?_erase] at h
        split at h
        . simp at h
        . exact Or.inr h
  . next hnone =>
    split at h
    . rw [SortedMap.find?_insert, hnone] at h
      split at h
      . rw [Option.getD_none, Option.some.injEq] at h
        exact Or.inl (h ▸ rfl)
      . exact Or.inr h
    . exact Or.inr h

theorem young_receive (h : m.Young now) (info : PacketInfo)
    (metaInfo : PacketMetaInfo) (c : MessageComponent)
    : (m.receive now info metaInfo c).1.Young now := by
  have hpos := h.1
  rw [receive_eq]
  refine ⟨h.1, ?_⟩
  intro entry hentry
  have hfind := (SortedMap.find?_eq_some_iff _ entry.1 entry.2).mpr hentry
  simp only at hfind ⊢
  unfold receive at hfind
  split at hfind
  . split at hfind
    . cases find?_receiveFragment hfind with
      | inl hnow => omega
      | inr hold => exact h.of_find? hold
    . exact h.of_find? hfind
  . exact h.of_find? hfind

theorem find?_receive_of_ne (m : ReceiveManager) (now : Nat) (info : PacketInfo)
    (metaInfo : PacketMetaInfo)
    (c : MessageComponent) (hkey : key ≠ fragmentKey info.source c)
    : (m.receive now info metaInfo c).1.fragmentStore.find? key = m.fragmentStore.find? key := by
  unfold receive
  split
  . split
    . exact find?_receiveFragment_of_ne _ _ _ _ _ hkey
    . rfl
  . rfl

theorem young_receiveAll (h : m.Young now) (info : PacketInfo)
    (metaInfo : PacketMetaInfo) (cs : MessageComponents)
    : (m.receiveAll now info metaInfo cs).1.Young now := by
  induction cs generalizing m with
  | nil => exact h
  | cons c cs ih => exact ih (young_receive h info metaInfo c)

theorem receiveAll_eq (m : ReceiveManager) (now : Nat) (info : PacketInfo) (metaInfo : PacketMetaInfo)
    (cs : MessageComponents)
    : (m.receiveAll now info metaInfo cs).1
        =
      { m with fragmentStore := (m.receiveAll now info metaInfo cs).1.fragmentStore } := by
  induction cs generalizing m with
  | nil => rfl
  | cons c cs ih =>
    simp only [receiveAll]
    rw [ih (m.receive now info metaInfo c).1]
    rw [receive_eq]

theorem find?_receiveAll_of_ne (m : ReceiveManager) (now : Nat) (info : PacketInfo)
    (metaInfo : PacketMetaInfo)
    (cs : MessageComponents) (hkey : ∀ c ∈ cs, key ≠ fragmentKey info.source c)
    : (m.receiveAll now info metaInfo cs).1.fragmentStore.find? key = m.fragmentStore.find? key := by
  induction cs generalizing m with
  | nil => rfl
  | cons c cs ih =>
    simp only [receiveAll]
    rw [ih _ (fun c' hc' => hkey c' (by simp [hc']))]
    exact find?_receive_of_ne m now info metaInfo c (hkey c (by simp))

theorem checkFragments_of_young (h : m.Young now)
    : m.checkFragments now = (m, []) := by
  have hnone : m.fragmentStore.toList.filter (fun entry => m.timedOut now entry.2) = [] := by
    rw [List.filter_eq_nil_iff]
    intro entry hentry
    have := h.2 entry hentry
    simp only [timedOut, decide_eq_true_eq]
    omega
  unfold checkFragments
  split
  . rw [hnone]
    rfl
  . rfl

theorem process_enqueue (hpending : m.pendingAbsoluteSlotIndex = 0) (h : m.Young now)
    (slot dataRate : Nat) (info : PacketInfo) (cs : MessageComponents)
    : let pending : PendingInfo := ⟨⟨slot, dataRate, cs⟩, info, now⟩
      let metaInfo : PacketMetaInfo := ⟨info.source, slot, dataRate⟩
      m.enqueue pending now .received
        =
      (true, { m with pendingAbsoluteSlotIndex := slot, pendingInfo := pending }, [])
        ∧ ({ m with pendingAbsoluteSlotIndex := slot, pendingInfo := pending }).process
          (slot + 1) now .received
        =
      ({ m with pendingInfo := pending } : ReceiveManager).receiveAll now info metaInfo cs := by
  intro pending metaInfo
  constructor
  . unfold enqueue
    rw [if_pos hpending]
  . unfold process
    simp only [↓reduceIte, Nat.add_sub_cancel]
    rw [← hpending]
    have hyoung : ({ m with pendingInfo := pending } : ReceiveManager).Young now := h
    rw [checkFragments_of_young (young_receiveAll hyoung info metaInfo cs)]
    rw [List.append_nil]

end ReceiveManager
end Tdma
end Emane

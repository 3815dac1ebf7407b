import Mathlib.Data.List.Count
import Emane.Lib.SortedFold
import Emane.Tdma.Lemmas.ReceiveManager

/-!
This module contains the accounts of the receive manager: when every packet that is delivered and
every assembly that is abandoned is reported once, with the bytes of all fragments that have been
received for it.
-/

namespace Emane
namespace Tdma
namespace ReceiveManager

inductive Input where
  | message (now : Nat) (info : PacketInfo) (metaInfo : PacketMetaInfo) (component : MessageComponent)
  | timeout (now : Nat)
  deriving DecidableEq

/--
The components of a packet that has been delivered, or of an assembly that has been abandoned.
-/
structure Closed where
  source : NEMId
  priority : Priority
  components : MessageComponents
  action : InboundAction
  deriving DecidableEq

abbrev Charge := NEMId × Priority × Nat × InboundAction

def bytesOf (components : MessageComponents) : Nat :=
  (components.map MessageComponent.size).sum

def Closed.charge (closed : Closed) : Charge :=
  (closed.source, closed.priority, bytesOf closed.components, closed.action)

def Output.charge : Output → Option Charge
  | .inbound source _ priority size .ACCEPT_GOOD => some (source, priority, size, .ACCEPT_GOOD)
  | .inbound source _ priority size .DROP_MISS_FRAGMENT =>
    some (source, priority, size, .DROP_MISS_FRAGMENT)
  | _ => none

structure Log where
  manager : ReceiveManager
  received : List (NEMId × MessageComponent) := []
  fragments : FragmentKey → MessageComponents := fun _ => []
  closed : List Closed := []
  outputs : List Output := []

namespace Log

def init (m : ReceiveManager) : Log where
  manager := m

def receive (s : Log) (now : Nat) (info : PacketInfo) (metaInfo : PacketMetaInfo)
    (c : MessageComponent) : Log :=
  let (manager, outputs) := s.manager.receive now info metaInfo c
  let s' := { s with manager := manager, outputs := s.outputs ++ outputs }
  if s.manager.accepts c.destination then
    let s' := { s' with received := s.received ++ [(info.source, c)] }
    let action : InboundAction :=
      if outputs.any (fun o => o.delivery.isSome) then .ACCEPT_GOOD else .DROP_MISS_FRAGMENT
    if c.isFragment then
      let key := fragmentKey info.source c
      let components := s.fragments key ++ [c]
      if (manager.fragmentStore.find? key).isSome then
        { s' with fragments := Function.update s.fragments key components }
      else
        { s' with
          fragments := Function.update s.fragments key []
          closed := s.closed ++ [⟨info.source, c.priority, components, action⟩] }
    else
      { s' with closed := s.closed ++ [⟨info.source, c.priority, [c], action⟩] }
  else
    s'

def abandoned (s : Log) (now : Nat) : List FragmentKey :=
  (s.manager.fragmentStore.toList.map Prod.fst).filter
    (fun key => ((s.manager.checkFragments now).1.fragmentStore.find? key).isNone)

def checkFragments (s : Log) (now : Nat) : Log :=
  let (manager, outputs) := s.manager.checkFragments now
  { s with
    manager := manager
    fragments := fun key => if (manager.fragmentStore.find? key).isSome then s.fragments key else []
    closed := s.closed ++ (s.abandoned now).map (fun key =>
      ⟨(ofLex key).1, (ofLex (ofLex key).2).1, s.fragments key, .DROP_MISS_FRAGMENT⟩)
    outputs := s.outputs ++ outputs }

def step (s : Log) : Input → Option Log
  | .message now info metaInfo component => some (s.receive now info metaInfo component)
  | .timeout now => some (s.checkFragments now)

def settled (s : Log) (source : NEMId) : MessageComponents :=
  (s.closed.filter (fun closed => closed.source = source)).flatMap Closed.components

end Log

def held (store : FragmentStore) (key : FragmentKey) : Nat :=
  match store.find? key with
  | some assembly => (FragmentParts.data assembly.parts).length
  | none => 0

structure Log.Balanced (s : Log) : Prop where
  reported : s.outputs.filterMap Output.charge = s.closed.map Closed.charge
  held : ∀ key, held s.manager.fragmentStore key = bytesOf (s.fragments key)

theorem FragmentParts.length_data (parts : FragmentParts)
    : (FragmentParts.data parts).length = parts.total (fun _ data => data.length) := by
  unfold FragmentParts.data SortedMap.total
  rw [List.length_flatMap]

theorem FragmentParts.length_data_insert (parts : FragmentParts) (offset : Nat) (data : Bytes)
    : (FragmentParts.data (parts.insert offset data)).length
        =
      (FragmentParts.data parts).length + if parts.find? offset = none then data.length else 0 := by
  simp only [FragmentParts.length_data]
  cases hfind : parts.find? offset with
  | none => rw [SortedMap.total_insert_of_none hfind, if_pos rfl]
  | some data' => rw [SortedMap.total_insert_of_some hfind, if_neg (by simp), Nat.add_zero]

section

variable {store : FragmentStore} {info : PacketInfo} {c : MessageComponent}

theorem held_of_some {key : FragmentKey} {assembly : FragmentInfo} (h : store.find? key = some assembly)
    : held store key = (FragmentParts.data assembly.parts).length := by
  unfold held
  rw [h]

theorem held_of_none {key : FragmentKey} (h : store.find? key = none) : held store key = 0 := by
  unfold held
  rw [h]

theorem held_congr {store' : FragmentStore} {key : FragmentKey} (h : store'.find? key = store.find? key)
    : held store' key = held store key := by
  unfold held
  rw [h]

@[simp]
theorem bytesOf_append (cs cs' : MessageComponents) : bytesOf (cs ++ cs') = bytesOf cs + bytesOf cs' := by
  simp [bytesOf]

@[simp]
theorem bytesOf_nil : bytesOf [] = 0 := by
  rfl

@[simp]
theorem bytesOf_singleton (c : MessageComponent) : bytesOf [c] = c.size := by
  simp [bytesOf]

@[simp]
theorem filterMap_charge_forward (info : PacketInfo) (metaInfo : PacketMetaInfo)
    (c : MessageComponent) (data : Bytes)
    : (forward info metaInfo c data).filterMap Output.charge = [] := by
  unfold forward
  cases c.type with
  | data => rfl
  | control => rfl

@[simp]
theorem any_delivery_forward (info : PacketInfo) (metaInfo : PacketMetaInfo) (c : MessageComponent)
    (data : Bytes)
    : (forward info metaInfo c data).any (fun o => o.delivery.isSome) = true := by
  unfold forward
  cases c.type with
  | data => rfl
  | control => rfl

/--
A fragment that has bytes and finds an assembly is not there yet, and it is either the next one,
then its offset is a new one, or it is not, then there has been something at its offset.
-/
def Fits (store : FragmentStore) (source : NEMId) (c : MessageComponent) : Prop :=
  c.size ≠ 0 →
    ∀ assembly ∈ store.find? (fragmentKey source c),
      c.fragmentIndex ∉ assembly.indexSet
        ∧ (assembly.indexSet.card = c.fragmentIndex ↔ assembly.parts.find? c.fragmentOffset = none)

instance Fits.decidable (store : FragmentStore) (source : NEMId) (c : MessageComponent)
    : Decidable (Fits store source c) :=
  inferInstanceAs (Decidable (_ → _))

theorem fits_of_none (hfind : store.find? (fragmentKey info.source c) = none)
    : Fits store info.source c := by
  intro _ assembly hassembly
  rw [hfind] at hassembly
  cases hassembly

theorem fits_iff_of_some {assembly : FragmentInfo}
    (hfind : store.find? (fragmentKey info.source c) = some assembly)
    : Fits store info.source c
        ↔
      c.size = 0
        ∨ c.fragmentIndex ∉ assembly.indexSet
        ∧ (assembly.indexSet.card = c.fragmentIndex ↔ assembly.parts.find? c.fragmentOffset = none) := by
  unfold Fits
  rw [hfind]
  simp only [Option.mem_def, Option.some.injEq, forall_eq']
  rw [← or_iff_not_imp_left]

section

variable {assembly : FragmentInfo}

def joined (assembly : FragmentInfo) (c : MessageComponent) (now : Nat) : FragmentInfo :=
  { assembly with
    indexSet := insert c.fragmentIndex assembly.indexSet
    parts := assembly.parts.insert c.fragmentOffset c.data
    lastFragmentTime := now }

theorem length_joined (assembly : FragmentInfo) (c : MessageComponent) (now : Nat)
    : (FragmentParts.data (joined assembly c now).parts).length
        =
      (FragmentParts.data assembly.parts).length +
          if assembly.parts.find? c.fragmentOffset = none then c.size else 0 :=
  FragmentParts.length_data_insert assembly.parts c.fragmentOffset c.data

theorem receiveFragment_eq (hfind : store.find? (fragmentKey info.source c) = some assembly) (now : Nat)
    (metaInfo : PacketMetaInfo)
    : receiveFragment store now info metaInfo c
        =
      if c.fragmentIndex ∈ assembly.indexSet then
        (store, [])
      else if assembly.indexSet.card = c.fragmentIndex then
        if c.moreFragments then
          (store.set (fragmentKey info.source c) (joined assembly c now), [])
        else
          (
            store.erase (fragmentKey info.source c),
            .inbound info.source c.destination c.priority
              (FragmentParts.data (joined assembly c now).parts).length .ACCEPT_GOOD
              :: forward info metaInfo c (FragmentParts.data (joined assembly c now).parts)
          )
      else
        (
          store.erase (fragmentKey info.source c),
          [.inbound info.source c.destination c.priority
            (c.size + (FragmentParts.data (joined assembly c now).parts).length) .DROP_MISS_FRAGMENT]
        ) := by
  unfold receiveFragment joined
  simp only [hfind]
  split
  . rfl
  . next hmem => simp only [Finset.card_insert_of_notMem hmem, Nat.add_right_cancel_iff]

end

section

variable {s : Log} {now : Nat} {metaInfo : PacketMetaInfo}

theorem Log.receive_fragment (haccepts : s.manager.accepts c.destination = true)
    (hfragment : c.isFragment = true)
    : s.receive now info metaInfo c
        =
      if ((receiveFragment s.manager.fragmentStore now info metaInfo c).1.find?
          (fragmentKey info.source c)).isSome then
        { s with
          manager := { s.manager with fragmentStore :=
            (receiveFragment s.manager.fragmentStore now info metaInfo c).1 }
          received := s.received ++ [(info.source, c)]
          fragments := Function.update s.fragments (fragmentKey info.source c)
            (s.fragments (fragmentKey info.source c) ++ [c])
          outputs := s.outputs ++ (receiveFragment s.manager.fragmentStore now info metaInfo c).2 }
      else
        { s with
          manager := { s.manager with fragmentStore :=
            (receiveFragment s.manager.fragmentStore now info metaInfo c).1 }
          received := s.received ++ [(info.source, c)]
          fragments := Function.update s.fragments (fragmentKey info.source c) []
          closed := s.closed ++ [⟨info.source, c.priority, s.fragments (fragmentKey info.source c) ++ [c],
            if (receiveFragment s.manager.fragmentStore now info metaInfo c).2.any
                (fun o => o.delivery.isSome) then
              .ACCEPT_GOOD
            else
              .DROP_MISS_FRAGMENT⟩]
          outputs := s.outputs ++ (receiveFragment s.manager.fragmentStore now info metaInfo c).2 } := by
  unfold receive
  rw [receive_of_fragment _ _ _ _ haccepts hfragment]
  simp only [haccepts, hfragment, ↓reduceIte]

theorem Log.receive_packet (haccepts : s.manager.accepts c.destination = true)
    (hfragment : ¬ c.isFragment = true)
    : s.receive now info metaInfo c
        =
      { s with
        received := s.received ++ [(info.source, c)]
        closed := s.closed ++ [⟨info.source, c.priority, [c], .ACCEPT_GOOD⟩]
        outputs := s.outputs
            ++ inbound info.source c .ACCEPT_GOOD :: forward info metaInfo c c.data } := by
  unfold receive
  rw [receive_of_not_fragment _ _ _ _ haccepts hfragment]
  simp only [haccepts, hfragment, Bool.false_eq_true, ↓reduceIte, List.any_cons,
    any_delivery_forward, Bool.or_true]

theorem Log.receive_foreign (haccepts : ¬ s.manager.accepts c.destination = true)
    : s.receive now info metaInfo c
        = { s with outputs := s.outputs ++ [inbound info.source c .DROP_DESTINATION_MAC] } := by
  unfold receive
  rw [receive_of_not_accepts _ _ _ _ haccepts]
  simp only [haccepts, Bool.false_eq_true, ↓reduceIte]

theorem Log.held_update (h : s.Balanced) (fragments : MessageComponents)
    : (∀ key, ReceiveManager.held (receiveFragment s.manager.fragmentStore now info metaInfo c).1 key
        =
      bytesOf (Function.update s.fragments (fragmentKey info.source c) fragments key))
        ↔
      ReceiveManager.held (receiveFragment s.manager.fragmentStore now info metaInfo c).1
        (fragmentKey info.source c)
        =
      bytesOf fragments := by
  constructor
  . intro hall
    rw [hall, Function.update_self]
  . intro hself key
    by_cases hkey : key = fragmentKey info.source c
    . rw [hkey, hself, Function.update_self]
    . rw [Function.update_of_ne hkey, held_congr (find?_receiveFragment_of_ne _ _ _ _ _ hkey)]
      exact h.held key

theorem Log.balanced_keep_iff (h : s.Balanced) (haccepts : s.manager.accepts c.destination = true)
    (hfragment : c.isFragment = true) {assembly : FragmentInfo}
    (hfind : (receiveFragment s.manager.fragmentStore now info metaInfo c).1.find?
      (fragmentKey info.source c) = some assembly)
    (hnone : (receiveFragment s.manager.fragmentStore now info metaInfo c).2 = [])
    : (s.receive now info metaInfo c).Balanced
        ↔
      (FragmentParts.data assembly.parts).length
        =
      ReceiveManager.held s.manager.fragmentStore (fragmentKey info.source c) + c.size := by
  have hupdate := @held_update info c s now metaInfo h (s.fragments (fragmentKey info.source c) ++ [c])
  rw [held_of_some hfind, bytesOf_append, bytesOf_singleton, ← h.held] at hupdate
  rw [receive_fragment haccepts hfragment, hfind, Option.isSome_some, if_pos rfl, ← hupdate]
  constructor
  . exact fun hbalanced => hbalanced.held
  . intro hheld
    refine ⟨?_, hheld⟩
    rw [hnone, List.append_nil]
    exact h.reported

theorem Log.balanced_close_iff (h : s.Balanced) (haccepts : s.manager.accepts c.destination = true)
    (hfragment : c.isFragment = true)
    (hfind : (receiveFragment s.manager.fragmentStore now info metaInfo c).1.find?
      (fragmentKey info.source c) = none)
    (size : Nat)
    (hreport : (receiveFragment s.manager.fragmentStore now info metaInfo c).2.filterMap Output.charge
      = [(info.source, c.priority, size,
        if (receiveFragment s.manager.fragmentStore now info metaInfo c).2.any
            (fun o => o.delivery.isSome) then
          .ACCEPT_GOOD
        else
          .DROP_MISS_FRAGMENT)])
    : (s.receive now info metaInfo c).Balanced
        ↔
      size = ReceiveManager.held s.manager.fragmentStore (fragmentKey info.source c) + c.size := by
  have hupdate := @held_update info c s now metaInfo h []
  rw [held_of_none hfind, bytesOf_nil] at hupdate
  rw [receive_fragment haccepts hfragment, hfind, Option.isSome_none, if_neg Bool.false_ne_true]
  have hreported : (s.outputs
    ++ (receiveFragment s.manager.fragmentStore now info metaInfo c).2).filterMap Output.charge
      = (s.closed ++ [Closed.mk info.source c.priority (s.fragments (fragmentKey info.source c) ++ [c])
        (if (receiveFragment s.manager.fragmentStore now info metaInfo c).2.any
            (fun o => o.delivery.isSome) then
          .ACCEPT_GOOD
        else
          .DROP_MISS_FRAGMENT)]).map Closed.charge
      ↔ size = ReceiveManager.held s.manager.fragmentStore (fragmentKey info.source c) + c.size := by
    rw [List.filterMap_append, List.map_append, h.reported, hreport, List.append_right_inj, h.held]
    simp [Closed.charge]
  rw [← hreported]
  exact ⟨fun hbalanced => hbalanced.reported, fun hall => ⟨hall, hupdate.mpr rfl⟩⟩

theorem receiveFragment_of_none (hfind : store.find? (fragmentKey info.source c) = none) (now : Nat)
    (metaInfo : PacketMetaInfo)
    : receiveFragment store now info metaInfo c
        =
      if c.fragmentIndex = 0 then
        (store.insert (fragmentKey info.source c) {
          indexSet := {c.fragmentIndex}
          parts := SortedMap.empty.insert c.fragmentOffset c.data
          lastFragmentTime := now
          destination := c.destination
          priority := c.priority
        }, [])
      else
        (store, [inbound info.source c .DROP_MISS_FRAGMENT]) := by
  unfold receiveFragment
  simp only [hfind]

theorem Log.balanced_of_first (h : s.Balanced) (haccepts : s.manager.accepts c.destination = true)
    (hfragment : c.isFragment = true)
    (hfind : s.manager.fragmentStore.find? (fragmentKey info.source c) = none)
    : (s.receive now info metaInfo c).Balanced := by
  by_cases hindex : c.fragmentIndex = 0
  . have hres := receiveFragment_of_none hfind now metaInfo
    rw [if_pos hindex] at hres
    have hfirst := (SortedMap.find?_insert s.manager.fragmentStore (fragmentKey info.source c)
      (fragmentKey info.source c)
      { indexSet := {c.fragmentIndex}, parts := SortedMap.empty.insert c.fragmentOffset c.data,
        lastFragmentTime := now,
        destination := c.destination, priority := c.priority : FragmentInfo })
    rw [if_pos rfl, hfind, Option.getD_none] at hfirst
    refine (balanced_keep_iff h haccepts hfragment (by rw [hres]; exact hfirst) (by rw [hres])).mpr ?_
    rw [FragmentParts.length_data_insert, held_of_none hfind]
    simp [FragmentParts.data, MessageComponent.size]
  . have hres := receiveFragment_of_none hfind now metaInfo
    rw [if_neg hindex] at hres
    refine (balanced_close_iff h haccepts hfragment (by rw [hres]; exact hfind) c.size
      (by rw [hres]; rfl)).mpr ?_
    rw [held_of_none hfind, Nat.zero_add]

section

variable {assembly : FragmentInfo}

theorem Log.balanced_duplicate_iff
    (hfind : s.manager.fragmentStore.find? (fragmentKey info.source c) = some assembly) (h : s.Balanced)
    (haccepts : s.manager.accepts c.destination = true)
    (hfragment : c.isFragment = true) (hmem : c.fragmentIndex ∈ assembly.indexSet)
    : (s.receive now info metaInfo c).Balanced ↔ c.size = 0 := by
  have hres := receiveFragment_eq hfind now metaInfo
  rw [if_pos hmem] at hres
  rw [balanced_keep_iff h haccepts hfragment (by rw [hres]; exact hfind) (by rw [hres]),
    held_of_some hfind]
  omega

theorem length_joined_iff (now : Nat)
    : (FragmentParts.data (joined assembly c now).parts).length
        = (FragmentParts.data assembly.parts).length + c.size
        ↔
      c.size = 0 ∨ assembly.parts.find? c.fragmentOffset = none := by
  rw [length_joined]
  split
  . next hnew => simp [hnew]
  . next hold =>
    simp only [hold, or_false]
    omega

theorem Log.balanced_next_iff
    (hfind : s.manager.fragmentStore.find? (fragmentKey info.source c) = some assembly) (h : s.Balanced)
    (haccepts : s.manager.accepts c.destination = true)
    (hfragment : c.isFragment = true) (hmem : c.fragmentIndex ∉ assembly.indexSet)
    (hnext : assembly.indexSet.card = c.fragmentIndex)
    : (s.receive now info metaInfo c).Balanced ↔ c.size = 0
        ∨ assembly.parts.find? c.fragmentOffset = none := by
  have hres := receiveFragment_eq hfind now metaInfo
  rw [if_neg hmem, if_pos hnext] at hres
  rw [← length_joined_iff now]
  by_cases hmore : c.moreFragments = true
  . rw [if_pos hmore] at hres
    have hself := SortedMap.find?_set s.manager.fragmentStore (fragmentKey info.source c)
      (fragmentKey info.source c)
      (joined assembly c now)
    rw [if_pos rfl] at hself
    rw [balanced_keep_iff h haccepts hfragment (by rw [hres]; exact hself) (by rw [hres]),
      held_of_some hfind]
  . rw [if_neg hmore] at hres
    have hself := SortedMap.find?_erase s.manager.fragmentStore (fragmentKey info.source c)
      (fragmentKey info.source c)
    rw [if_pos rfl] at hself
    rw [balanced_close_iff h haccepts hfragment (by rw [hres]; exact hself)
      (FragmentParts.data (joined assembly c now).parts).length, held_of_some hfind]
    rw [hres]
    simp [Output.charge]

theorem Log.balanced_gap_iff
    (hfind : s.manager.fragmentStore.find? (fragmentKey info.source c) = some assembly) (h : s.Balanced)
    (haccepts : s.manager.accepts c.destination = true)
    (hfragment : c.isFragment = true) (hmem : c.fragmentIndex ∉ assembly.indexSet)
    (hgap : assembly.indexSet.card ≠ c.fragmentIndex)
    : (s.receive now info metaInfo c).Balanced ↔ c.size = 0
        ∨ assembly.parts.find? c.fragmentOffset ≠ none := by
  have hres := receiveFragment_eq hfind now metaInfo
  rw [if_neg hmem, if_neg hgap] at hres
  have hself := SortedMap.find?_erase s.manager.fragmentStore (fragmentKey info.source c)
    (fragmentKey info.source c)
  rw [if_pos rfl] at hself
  rw [balanced_close_iff h haccepts hfragment (by rw [hres]; exact hself)
    (c.size + (FragmentParts.data (joined assembly c now).parts).length) (by rw [hres]; rfl),
      held_of_some hfind,
    length_joined]
  split
  . next hnew =>
    simp only [hnew, ne_eq, not_true_eq_false, or_false]
    omega
  . next hold =>
    simp only [ne_eq, hold, not_false_eq_true, or_true, iff_true]
    omega

end

theorem Log.balanced_fragment_iff (h : s.Balanced) (haccepts : s.manager.accepts c.destination = true)
    (hfragment : c.isFragment = true)
    : (s.receive now info metaInfo c).Balanced ↔ Fits s.manager.fragmentStore info.source c := by
  cases hfind : s.manager.fragmentStore.find? (fragmentKey info.source c) with
  | none => exact iff_of_true (balanced_of_first h haccepts hfragment hfind) (fits_of_none hfind)
  | some assembly =>
    rw [fits_iff_of_some hfind]
    by_cases hmem : c.fragmentIndex ∈ assembly.indexSet
    . rw [balanced_duplicate_iff hfind h haccepts hfragment hmem]
      simp [hmem]
    . by_cases hnext : assembly.indexSet.card = c.fragmentIndex
      . rw [balanced_next_iff hfind h haccepts hfragment hmem hnext]
        simp [hmem, hnext]
      . rw [balanced_gap_iff hfind h haccepts hfragment hmem hnext]
        simp [hmem, hnext]

end

end

def Labelled (store : FragmentStore) : Prop :=
  ∀ (key : FragmentKey) (assembly : FragmentInfo), store.find? key = some assembly →
    assembly.priority = (ofLex (ofLex key).2).1

theorem Labelled.erase {store : FragmentStore} (h : Labelled store) (key : FragmentKey)
    : Labelled (store.erase key) := by
  intro key' assembly hfind
  rw [SortedMap.find?_erase] at hfind
  split at hfind
  . cases hfind
  . exact h key' assembly hfind

theorem Labelled.receiveFragment {store : FragmentStore} (h : Labelled store) (now : Nat)
    (info : PacketInfo)
    (metaInfo : PacketMetaInfo) (c : MessageComponent)
    : Labelled (receiveFragment store now info metaInfo c).1 := by
  cases hfind : store.find? (fragmentKey info.source c) with
  | none =>
    unfold ReceiveManager.receiveFragment
    simp only [hfind]
    split
    . intro key assembly hkey
      rw [SortedMap.find?_insert, hfind] at hkey
      split at hkey
      . next heq =>
        cases hkey
        rw [heq]
        rfl
      . exact h key assembly hkey
    . exact h
  | some assembly =>
    rw [receiveFragment_eq hfind]
    split
    . exact h
    . split
      . split
        . intro key assembly' hkey
          rw [SortedMap.find?_set] at hkey
          split at hkey
          . next heq =>
            cases hkey
            rw [heq]
            exact h _ assembly hfind
          . exact h key assembly' hkey
        . exact h.erase _
      . exact h.erase _

theorem Labelled.foldl_erase {store : FragmentStore} (h : Labelled store)
    (entries : List (FragmentKey × FragmentInfo))
    : Labelled (entries.foldl (fun store entry => store.erase entry.1) store) := by
  induction entries generalizing store with
  | nil => exact h
  | cons entry entries ih => exact ih (h.erase entry.1)

theorem Labelled.checkFragments {m : ReceiveManager} (h : Labelled m.fragmentStore) (now : Nat)
    : Labelled (m.checkFragments now).1.fragmentStore := by
  unfold ReceiveManager.checkFragments
  split
  . exact h.foldl_erase _
  . exact h

namespace Log

section

variable {s : Log} (now : Nat)

theorem abandoned_eq
    : s.abandoned now
        =
      if s.manager.lastFragmentCheckTime + s.manager.fragmentCheckThreshold ≤ now then
        (s.manager.fragmentStore.toList.filter (fun e => s.manager.timedOut now e.2)).map Prod.fst
      else
        [] := by
  unfold abandoned ReceiveManager.checkFragments
  rw [List.filter_map]
  split
  . congr 1
    apply List.filter_congr
    intro e he
    simp only [Function.comp_apply, SortedMap.find?_foldl_erase, SortedMap.find?_of_mem he]
    cases htime : s.manager.timedOut now e.2 with
    | true =>
      have hmem : e.1 ∈ (s.manager.fragmentStore.toList.filter
          (fun e => s.manager.timedOut now e.2)).map Prod.fst :=
        List.mem_map_of_mem (List.mem_filter.mpr ⟨he, htime⟩)
      rw [if_pos hmem, Option.isNone_none]
    | false =>
      rw [if_neg, Option.isNone_some]
      rw [List.mem_map]
      rintro ⟨e', he', heq⟩
      rw [List.mem_filter] at he'
      rw [SortedMap.eq_of_key_eq he'.1 he heq, htime] at he'
      cases he'.2
  . rw [List.map_eq_nil_iff, List.filter_eq_nil_iff]
    intro e he
    simp [SortedMap.find?_of_mem he]

theorem find?_checkFragments_of_mem {key : FragmentKey} (h : key ∈ s.abandoned now)
    : (s.manager.checkFragments now).1.fragmentStore.find? key = none := by
  unfold abandoned at h
  rw [List.mem_filter, Option.isNone_iff_eq_none] at h
  exact h.2

theorem find?_checkFragments_of_notMem {key : FragmentKey} (h : key ∉ s.abandoned now)
    : (s.manager.checkFragments now).1.fragmentStore.find? key = s.manager.fragmentStore.find? key := by
  rw [abandoned_eq] at h
  unfold ReceiveManager.checkFragments
  split
  . next hdue =>
    rw [if_pos hdue] at h
    rw [SortedMap.find?_foldl_erase, if_neg h]
  . rfl

theorem balanced_checkFragments (h : s.Balanced) (hlabelled : Labelled s.manager.fragmentStore)
    : (s.checkFragments now).Balanced := by
  constructor
  . unfold checkFragments
    simp only [List.filterMap_append, List.map_append, h.reported, List.append_right_inj, abandoned_eq]
    unfold ReceiveManager.checkFragments
    split
    . rw [List.filterMap_map, List.map_map, List.map_map, ← List.filterMap_eq_map]
      apply List.filterMap_congr
      intro e he
      have hfind := SortedMap.find?_of_mem (List.mem_of_mem_filter he)
      have hheld := h.held e.1
      rw [held_of_some hfind] at hheld
      simp only [Function.comp_apply, Output.charge, Closed.charge, hheld, hlabelled _ _ hfind]
    . rfl
  . intro key
    unfold checkFragments
    simp only
    cases hfind : (s.manager.checkFragments now).1.fragmentStore.find? key with
    | none => rw [held_of_none hfind, Option.isSome_none, if_neg Bool.false_ne_true, bytesOf_nil]
    | some assembly =>
      have hkept : key ∉ s.abandoned now := by
        intro hmem
        rw [find?_checkFragments_of_mem now hmem] at hfind
        cases hfind
      rw [held_congr (find?_checkFragments_of_notMem now hkept), h.held, Option.isSome_some, if_pos rfl]

end

/--
What is kept in every run: each component that has been received has been settled once, or it is
still held.
-/
structure Inv (s : Log) : Prop where
  labelled : Labelled s.manager.fragmentStore
  keyed : ∀ key, ∀ c ∈ s.fragments key, fragmentKey (ofLex key).1 c = key
  idle : ∀ key, s.manager.fragmentStore.find? key = none → s.fragments key = []
  once : ∀ source c, s.received.count (source, c)
    = (s.settled source).count c + (s.fragments (fragmentKey source c)).count c

theorem inv_init (m : ReceiveManager) (h : m.fragmentStore = .empty) : (init m).Inv where
  labelled := by
    intro key assembly hfind
    rw [init, h] at hfind
    cases hfind
  keyed := by
    intro key c hc
    cases hc
  idle := fun _ _ => rfl
  once := fun _ _ => rfl

section

variable {s : Log} {source : NEMId} {c c' : MessageComponent}

theorem settled_append (closed : List Closed) (more : Closed) (source : NEMId)
    : ((closed ++ [more]).filter (fun closed => closed.source = source)).flatMap Closed.components
        =
      (closed.filter (fun closed => closed.source = source)).flatMap Closed.components
        ++ if more.source = source then more.components else [] := by
  by_cases h : more.source = source
  . simp [h]
  . simp [h]

theorem count_received (received : List (NEMId × MessageComponent)) (source source' : NEMId)
    (c c' : MessageComponent)
    : (received ++ [(source, c)]).count (source', c')
        =
      received.count (source', c') + if source = source' ∧ c = c' then 1 else 0 := by
  rw [List.count_append, List.count_singleton]
  simp only [beq_iff_eq, Prod.mk.injEq]

theorem Inv.count_fragments (h : s.Inv) {key : FragmentKey} (hkey : fragmentKey (ofLex key).1 c ≠ key)
    : (s.fragments key).count c = 0 := by
  rw [List.count_eq_zero]
  exact fun hmem => hkey (h.keyed key c hmem)

theorem fragmentKey_inj {source' : NEMId} (h : fragmentKey source c = fragmentKey source' c')
    : source = source' := by
  exact congrArg (fun key : FragmentKey => (ofLex key).1) h

variable {now : Nat} {info : PacketInfo} {metaInfo : PacketMetaInfo}

theorem Inv.keyed_update (h : s.Inv) {key : FragmentKey} {fragments : MessageComponents}
    (hkeyed : ∀ c ∈ fragments, fragmentKey (ofLex key).1 c = key)
    : ∀ key', ∀ c ∈ Function.update s.fragments key fragments key',
        fragmentKey (ofLex key').1 c = key' := by
  intro key'
  by_cases hkey : key' = key
  . rw [hkey, Function.update_self]
    exact hkeyed
  . rw [Function.update_of_ne hkey]
    exact h.keyed key'

theorem Inv.keyed_append (h : s.Inv) (info : PacketInfo) (c : MessageComponent)
    : ∀ c' ∈ s.fragments (fragmentKey info.source c) ++ [c],
        fragmentKey (ofLex (fragmentKey info.source c)).1 c' = fragmentKey info.source c := by
  rw [List.forall_mem_append, List.forall_mem_singleton]
  exact ⟨h.keyed (fragmentKey info.source c), rfl⟩

theorem Inv.receive_open (h : s.Inv) (haccepts : s.manager.accepts c.destination = true)
    (hfragment : c.isFragment = true)
    (hopen : ((receiveFragment s.manager.fragmentStore now info metaInfo c).1.find?
      (fragmentKey info.source c)).isSome = true)
    : (s.receive now info metaInfo c).Inv := by
  rw [receive_fragment haccepts hfragment, if_pos hopen]
  refine ⟨h.labelled.receiveFragment now info metaInfo c, h.keyed_update (h.keyed_append info c), ?_, ?_⟩
  . intro key hnone
    simp only at hnone ⊢
    by_cases hkey : key = fragmentKey info.source c
    . subst hkey
      rw [hnone] at hopen
      cases hopen
    . rw [find?_receiveFragment_of_ne _ _ _ _ _ hkey] at hnone
      rw [Function.update_of_ne hkey]
      exact h.idle key hnone
  . intro source c'
    have honce := h.once source c'
    simp only [count_received]
    unfold settled at honce ⊢
    by_cases hkey : fragmentKey source c' = fragmentKey info.source c
    . have hsource := fragmentKey_inj hkey
      rw [hkey] at honce
      rw [hkey, Function.update_self, List.count_append, List.count_singleton, honce]
      simp only [hsource, true_and, beq_iff_eq]
      omega
    . rw [Function.update_of_ne hkey, honce, if_neg, Nat.add_zero]
      rintro ⟨rfl, rfl⟩
      exact hkey rfl

theorem Inv.receive_closed (h : s.Inv) (haccepts : s.manager.accepts c.destination = true)
    (hfragment : c.isFragment = true)
    (hclosed : ((receiveFragment s.manager.fragmentStore now info metaInfo c).1.find?
      (fragmentKey info.source c)).isSome = false)
    : (s.receive now info metaInfo c).Inv := by
  rw [receive_fragment haccepts hfragment, if_neg (Bool.eq_false_iff.mp hclosed)]
  refine ⟨h.labelled.receiveFragment now info metaInfo c, h.keyed_update (by simp), ?_, ?_⟩
  . intro key hnone
    simp only at hnone ⊢
    by_cases hkey : key = fragmentKey info.source c
    . rw [hkey, Function.update_self]
    . rw [find?_receiveFragment_of_ne _ _ _ _ _ hkey] at hnone
      rw [Function.update_of_ne hkey]
      exact h.idle key hnone
  . intro source c'
    have honce := h.once source c'
    unfold settled at honce ⊢
    simp only [count_received]
    simp only [settled_append, List.count_append]
    by_cases hkey : fragmentKey source c' = fragmentKey info.source c
    . have hsource := fragmentKey_inj hkey
      rw [hkey] at honce
      rw [hkey, Function.update_self, if_pos hsource.symm, List.count_append, List.count_singleton, honce]
      simp only [hsource, true_and, beq_iff_eq, List.count_nil]
      omega
    . have hnot : ¬ (info.source = source ∧ c = c') := by
        rintro ⟨rfl, rfl⟩
        exact hkey rfl
      rw [Function.update_of_ne hkey, honce, if_neg hnot]
      by_cases hsource : info.source = source
      . have hnone : (s.fragments (fragmentKey info.source c)).count c' = 0 := h.count_fragments
          (hsource ▸ hkey)
        have hne : ¬ c = c' := fun heq => hnot ⟨hsource, heq⟩
        rw [if_pos hsource, List.count_append, List.count_singleton, hnone]
        simp [hne]
      . simp [hsource]

theorem Inv.receive_packet (h : s.Inv) (haccepts : s.manager.accepts c.destination = true)
    (hfragment : ¬ c.isFragment = true)
    : (s.receive now info metaInfo c).Inv := by
  rw [Log.receive_packet haccepts hfragment]
  refine ⟨h.labelled, h.keyed, h.idle, ?_⟩
  intro source c'
  have honce := h.once source c'
  unfold settled at honce ⊢
  simp only [count_received]
  simp only [settled_append, List.count_append, honce]
  by_cases hsource : info.source = source
  . simp only [hsource, true_and, if_true, List.count_singleton, beq_iff_eq]
    omega
  . simp [hsource]

theorem Inv.receive (h : s.Inv) (now : Nat) (info : PacketInfo) (metaInfo : PacketMetaInfo)
    (c : MessageComponent)
    : (s.receive now info metaInfo c).Inv := by
  by_cases haccepts : s.manager.accepts c.destination = true
  . by_cases hfragment : c.isFragment = true
    . cases hopen : ((receiveFragment s.manager.fragmentStore now info metaInfo c).1.find?
          (fragmentKey info.source c)).isSome with
      | true => exact h.receive_open haccepts hfragment hopen
      | false => exact h.receive_closed haccepts hfragment hopen
    . exact h.receive_packet haccepts hfragment
  . rw [receive_foreign haccepts]
    exact ⟨h.labelled, h.keyed, h.idle, h.once⟩

theorem Inv.count_flatMap (h : s.Inv) (source : NEMId) (c : MessageComponent)
    {keys : List FragmentKey} (hnodup : keys.Nodup)
    : ((keys.filter (fun key => (ofLex key).1 = source)).flatMap s.fragments).count c
        =
      if fragmentKey source c ∈ keys then (s.fragments (fragmentKey source c)).count c else 0 := by
  induction keys with
  | nil => rfl
  | cons key keys ih =>
    rw [List.nodup_cons] at hnodup
    have ih := ih hnodup.2
    rw [List.filter_cons]
    by_cases hkey : fragmentKey source c = key
    . have hsource : (ofLex key).1 = source := hkey ▸ rfl
      rw [hkey, if_neg hnodup.1] at ih
      rw [if_pos (decide_eq_true hsource), List.flatMap_cons, List.count_append, ih, hkey,
        if_pos List.mem_cons_self, Nat.add_zero]
    . have hmem : fragmentKey source c ∈ key :: keys ↔ fragmentKey source c ∈ keys := by
        rw [List.mem_cons, or_iff_right hkey]
      rw [if_congr hmem rfl rfl, ← ih]
      by_cases hsource : (ofLex key).1 = source
      . have hnone : (s.fragments key).count c = 0 := h.count_fragments (hsource ▸ hkey)
        rw [if_pos (decide_eq_true hsource), List.flatMap_cons, List.count_append, hnone, Nat.zero_add]
      . rw [if_neg (by simpa using hsource)]

theorem Inv.checkFragments (h : s.Inv) (now : Nat) : (s.checkFragments now).Inv := by
  refine ⟨h.labelled.checkFragments now, ?_, ?_, ?_⟩
  . intro key c hc
    unfold Log.checkFragments at hc
    simp only at hc
    split at hc
    . exact h.keyed key c hc
    . cases hc
  . intro key hnone
    unfold Log.checkFragments at hnone ⊢
    simp only at hnone ⊢
    rw [hnone, Option.isSome_none, if_neg Bool.false_ne_true]
  . intro source c
    have honce := h.once source c
    have hnodup : (s.abandoned now).Nodup := s.manager.fragmentStore.nodup_keys.filter _
    have hcount := h.count_flatMap source c hnodup
    unfold settled at honce ⊢
    unfold Log.checkFragments
    simp only [List.filter_append, List.flatMap_append, List.count_append, List.filter_map,
      List.flatMap_map]
    rw [honce, Nat.add_assoc, Nat.add_left_cancel_iff]
    refine Eq.trans ?_ (congrArg (fun n => n + _) hcount.symm)
    by_cases hmem : fragmentKey source c ∈ s.abandoned now
    . rw [if_pos hmem, find?_checkFragments_of_mem now hmem]
      rfl
    . rw [if_neg hmem, find?_checkFragments_of_notMem now hmem, Nat.zero_add]
      cases hfind : s.manager.fragmentStore.find? (fragmentKey source c) with
      | none => rw [h.idle _ hfind, ite_self]
      | some assembly => rfl

end

theorem Inv.step {s s' : Log} {input : Input} (h : s.Inv) (hstep : s.step input = some s') : s'.Inv := by
  cases input with
  | message now info metaInfo c =>
    cases hstep
    exact h.receive now info metaInfo c
  | timeout now =>
    cases hstep
    exact h.checkFragments now

def Accountable (s : Log) : Input → Prop
  | .message _ info _ c =>
    s.manager.accepts c.destination = true → c.isFragment = true
      → Fits s.manager.fragmentStore info.source c
  | .timeout _ => True

instance Accountable.decidable (s : Log) : (input : Input) → Decidable (Accountable s input)
  | .message _ _ _ _ => inferInstanceAs (Decidable (_ → _))
  | .timeout _ => isTrue trivial

theorem balanced_step_iff {s s' : Log} {input : Input} (hinv : s.Inv) (h : s.Balanced)
    (hstep : s.step input = some s')
    : s'.Balanced ↔ Accountable s input := by
  cases input with
  | timeout now =>
    cases hstep
    exact iff_of_true (balanced_checkFragments now h hinv.labelled) trivial
  | message now info metaInfo c =>
    cases hstep
    by_cases haccepts : s.manager.accepts c.destination = true
    . by_cases hfragment : c.isFragment = true
      . rw [balanced_fragment_iff h haccepts hfragment]
        exact ⟨fun hfits _ _ => hfits, fun hfits => hfits haccepts hfragment⟩
      . refine iff_of_true ?_ (fun _ hcontra => absurd hcontra hfragment)
        rw [receive_packet haccepts hfragment]
        refine ⟨?_, h.held⟩
        simp [h.reported, inbound, Output.charge, Closed.charge]
    . refine iff_of_true ?_ (fun hcontra => absurd hcontra haccepts)
      rw [receive_foreign haccepts]
      refine ⟨?_, h.held⟩
      simp [h.reported, inbound, Output.charge]

end Log

inductive Event where
  | enqueue (pending : PendingInfo) (now : Nat) (reception : Reception)
  | process (absoluteSlotIndex now : Nat) (reception : Reception)
  deriving DecidableEq

/--
What `process` goes through: the components of the pending message if it is the one of this slot
and has been received, and then the assemblies.
-/
def processed (m : ReceiveManager) (absoluteSlotIndex now : Nat) (reception : Reception) : List Input :=
  if m.pendingAbsoluteSlotIndex + 1 = absoluteSlotIndex then
    match reception with
    | .received =>
      let metaInfo := ⟨m.pendingInfo.info.source, absoluteSlotIndex - 1, m.pendingInfo.message.dataRate⟩
      m.pendingInfo.message.messages.map (Input.message now m.pendingInfo.info metaInfo) ++ [.timeout now]
    | .spectrumServiceError => []
    | .lost => []
  else
    [.timeout now]

def Event.inputs (m : ReceiveManager) : Event → List Input
  | .enqueue pending now reception =>
    if m.pendingAbsoluteSlotIndex ≠ 0
        ∧ m.pendingAbsoluteSlotIndex < pending.message.absoluteSlotIndex then
      m.processed pending.message.absoluteSlotIndex now reception
    else
      []
  | .process absoluteSlotIndex now reception => m.processed absoluteSlotIndex now reception

structure Calls where
  manager : ReceiveManager
  inputs : List Input := []
  outputs : List Output := []

namespace Calls

def step (s : Calls) (event : Event) : Option Calls :=
  let (manager, outputs) :=
    match event with
    | .enqueue pending now reception => (s.manager.enqueue pending now reception).2
    | .process absoluteSlotIndex now reception => s.manager.process absoluteSlotIndex now reception
  some { manager := manager, inputs := s.inputs ++ event.inputs s.manager, outputs :=
    s.outputs ++ outputs }

end Calls

section

variable (m : ReceiveManager) (slot : Nat) (pending : PendingInfo) (now : Nat)

def withPending : ReceiveManager :=
  { m with pendingAbsoluteSlotIndex := slot, pendingInfo := pending }

theorem receive_withPending (info : PacketInfo) (metaInfo : PacketMetaInfo) (c : MessageComponent)
    : (m.withPending slot pending).receive now info metaInfo c
        =
      ((m.receive now info metaInfo c).1.withPending slot pending,
          (m.receive now info metaInfo c).2) := by
  change (if m.accepts c.destination then _ else _) = _
  unfold receive
  split
  . split
    . rfl
    . rfl
  . rfl

theorem receiveAll_withPending (info : PacketInfo) (metaInfo : PacketMetaInfo) (cs : MessageComponents)
    : (m.withPending slot pending).receiveAll now info metaInfo cs
        =
      ((m.receiveAll now info metaInfo cs).1.withPending slot pending,
          (m.receiveAll now info metaInfo cs).2) := by
  induction cs generalizing m with
  | nil => rfl
  | cons c cs ih => simp only [receiveAll, receive_withPending, ih]

theorem checkFragments_withPending
    : (m.withPending slot pending).checkFragments now
        =
      ((m.checkFragments now).1.withPending slot pending, (m.checkFragments now).2) := by
  change (if m.lastFragmentCheckTime + m.fragmentCheckThreshold ≤ now then _ else _) = _
  unfold checkFragments
  split
  . rfl
  . rfl

theorem Log.receive_eq (s : Log) (info : PacketInfo) (metaInfo : PacketMetaInfo) (c : MessageComponent)
    : (s.receive now info metaInfo c).manager = (s.manager.receive now info metaInfo c).1
        ∧ (s.receive now info metaInfo c).outputs = s.outputs
            ++ (s.manager.receive now info metaInfo c).2 := by
  by_cases haccepts : s.manager.accepts c.destination = true
  . by_cases hfragment : c.isFragment = true
    . rw [receive_fragment haccepts hfragment, receive_of_fragment _ _ _ _ haccepts hfragment]
      split
      . exact ⟨rfl, rfl⟩
      . exact ⟨rfl, rfl⟩
    . rw [receive_packet haccepts hfragment, receive_of_not_fragment _ _ _ _ haccepts hfragment]
      exact ⟨rfl, rfl⟩
  . rw [receive_foreign haccepts, receive_of_not_accepts _ _ _ _ haccepts]
    exact ⟨rfl, rfl⟩

theorem Log.run_components (s : Log) (info : PacketInfo) (metaInfo : PacketMetaInfo)
    (cs : MessageComponents)
    : ∃ t,
        run Log.step s (cs.map (Input.message now info metaInfo)) = some t
          ∧ t.manager = (s.manager.receiveAll now info metaInfo cs).1
          ∧ t.outputs = s.outputs ++ (s.manager.receiveAll now info metaInfo cs).2 := by
  induction cs generalizing s with
  | nil => exact ⟨s, rfl, rfl, (List.append_nil _).symm⟩
  | cons c cs ih =>
    obtain ⟨t, hrun, hmanager, houtputs⟩ := ih (s.receive now info metaInfo c)
    have hfirst := s.receive_eq now info metaInfo c
    rw [hfirst.1] at hmanager
    rw [hfirst.1, hfirst.2] at houtputs
    refine ⟨t, ?_, hmanager, ?_⟩
    . exact hrun
    . rw [houtputs, List.append_assoc]
      rfl

end

def charges (outputs : List Output) : List Charge :=
  outputs.filterMap Output.charge

def deliveries (outputs : List Output) : List Delivery :=
  outputs.filterMap Output.delivery

structure Traces (t t' : Log) (inputs : List Input) (outputs : List Output) : Prop where
  run : run Log.step t inputs = some t'
  charges : charges t'.outputs = charges t.outputs ++ charges outputs
  deliveries : deliveries t'.outputs = deliveries t.outputs ++ deliveries outputs

theorem process_traces (t : Log) (slot : Nat) (pending : PendingInfo) (absoluteSlotIndex now : Nat)
    (reception : Reception)
    : ∃ t' slot',
        Traces t t' ((t.manager.withPending slot pending).processed absoluteSlotIndex now reception)
          ((t.manager.withPending slot pending).process absoluteSlotIndex now reception).2
          ∧
        ((t.manager.withPending slot pending).process absoluteSlotIndex now reception).1
            = t'.manager.withPending slot' pending := by
  unfold processed process
  by_cases hslot : (t.manager.withPending slot pending).pendingAbsoluteSlotIndex + 1 = absoluteSlotIndex
  . rw [if_pos hslot, if_pos hslot]
    have hzero : { t.manager.withPending slot pending with pendingAbsoluteSlotIndex := 0 }
      = t.manager.withPending 0 pending := rfl
    cases reception with
    | spectrumServiceError =>
      refine ⟨t, 0, ⟨rfl, ?_, ?_⟩, rfl⟩
      . simp [charges, inbound, Output.charge]
      . simp [deliveries, inbound, Output.delivery]
    | lost =>
      refine ⟨t, 0, ⟨rfl, ?_, ?_⟩, rfl⟩
      . simp [charges, inbound, Output.charge]
      . simp [deliveries, inbound, Output.delivery]
    | received =>
      obtain ⟨t', hrun, hmanager, houtputs⟩ := Log.run_components now t pending.info
        ⟨pending.info.source, absoluteSlotIndex - 1, pending.message.dataRate⟩ pending.message.messages
      simp only [hzero, receiveAll_withPending, checkFragments_withPending]
      refine ⟨t'.checkFragments now, 0, ⟨?_, ?_, ?_⟩, ?_⟩
      . rw [run_append]
        exact (congrArg (fun r => Option.bind r _) hrun).trans rfl
      . simp only [charges, Log.checkFragments, houtputs, hmanager, List.filterMap_append,
          List.append_assoc]
        rfl
      . simp only [deliveries, Log.checkFragments, houtputs, hmanager, List.filterMap_append,
          List.append_assoc]
        rfl
      . simp only [Log.checkFragments, hmanager]
        rfl
  . rw [if_neg hslot, if_neg hslot, checkFragments_withPending]
    refine ⟨t.checkFragments now, slot, ⟨rfl, ?_, ?_⟩, rfl⟩
    . simp [charges, Log.checkFragments]
    . simp [deliveries, Log.checkFragments]

theorem enqueue_traces (t : Log) (slot : Nat) (pending pending' : PendingInfo) (now : Nat)
    (reception : Reception)
    : ∃ t' slot' pending'',
        Traces t t' ((Event.enqueue pending' now reception).inputs (t.manager.withPending slot pending))
          ((t.manager.withPending slot pending).enqueue pending' now reception).2.2
          ∧
        ((t.manager.withPending slot pending).enqueue pending' now reception).2.1
            = t'.manager.withPending slot' pending'' := by
  have hnone : Traces t t [] [] := ⟨rfl, (List.append_nil _).symm, (List.append_nil _).symm⟩
  have hslot : (t.manager.withPending slot pending).pendingAbsoluteSlotIndex = slot := rfl
  unfold Event.inputs enqueue
  rw [hslot]
  by_cases hidle : slot = 0
  . simp only [hidle, ne_eq, not_true_eq_false, false_and, if_false, if_true]
    exact ⟨t, _, _, hnone, rfl⟩
  . by_cases hlt : slot < pending'.message.absoluteSlotIndex
    . obtain ⟨t', slot', htraces, hmanager⟩ :=
        process_traces t slot pending pending'.message.absoluteSlotIndex now reception
      simp only [hidle, hlt, ne_eq, not_false_eq_true, true_and, if_false, if_true, hmanager]
      exact ⟨t', _, _, htraces, rfl⟩
    . simp only [hidle, hlt, and_false, if_false]
      split
      . exact ⟨t, _, _, hnone, rfl⟩
      . split
        . exact ⟨t, _, _, hnone, rfl⟩
        . exact ⟨t, slot, pending, hnone, rfl⟩

namespace Calls

theorem step_traces {s s' : Calls} {event : Event} {t : Log} {slot : Nat} {pending : PendingInfo}
    (hmanager : s.manager = t.manager.withPending slot pending) (hstep : s.step event = some s')
    : ∃ t' slot' pending' outputs,
        Traces t t' (event.inputs s.manager) outputs
          ∧ s'.inputs = s.inputs ++ event.inputs s.manager
          ∧ s'.outputs = s.outputs ++ outputs
          ∧ s'.manager = t'.manager.withPending slot' pending' := by
  cases hstep
  cases event with
  | enqueue pending' now reception =>
    obtain ⟨t', slot', pending'', htraces, heq⟩ := enqueue_traces t slot pending pending' now reception
    rw [← hmanager] at htraces heq
    exact ⟨t', slot', pending'', _, htraces, rfl, rfl, heq⟩
  | process absoluteSlotIndex now reception =>
    obtain ⟨t', slot', htraces, heq⟩ := process_traces t slot pending absoluteSlotIndex now reception
    rw [← hmanager] at htraces heq
    exact ⟨t', slot', pending, _, htraces, rfl, rfl, heq⟩

def Traced (m : ReceiveManager) (s : Calls) : Prop :=
  ∃ t slot pending,
    run Log.step (Log.init m) s.inputs = some t
      ∧ charges t.outputs = charges s.outputs
      ∧ deliveries t.outputs = deliveries s.outputs
      ∧ s.manager = t.manager.withPending slot pending

theorem Traced.step {m : ReceiveManager} {s s' : Calls} {event : Event} (h : Traced m s)
    (hstep : s.step event = some s')
    : Traced m s' := by
  obtain ⟨t, slot, pending, hrun, hcharges, hdeliveries, hmanager⟩ := h
  obtain ⟨t', slot', pending', outputs, htraces, hinputs, houtputs, hmanager'⟩ :=
    step_traces hmanager hstep
  refine ⟨t', slot', pending', ?_, ?_, ?_, hmanager'⟩
  . rw [hinputs, run_append, hrun, Option.bind_some, htraces.run]
  . rw [houtputs, htraces.charges, hcharges]
    simp [charges]
  . rw [houtputs, htraces.deliveries, hdeliveries]
    simp [deliveries]

theorem run_traced {m : ReceiveManager} {events : List Event} {s : Calls}
    (hrun : run step { manager := m } events = some s)
    : Traced m s := by
  have hinit : Traced m { manager := m } :=
    ⟨Log.init m, m.pendingAbsoluteSlotIndex, m.pendingInfo, rfl, rfl, rfl, rfl⟩
  exact run_inv (fun s event s' h _ hstep => Traced.step h hstep) hinit
    (guarded_of_forall (fun _ _ => trivial)) hrun

end Calls

/--
In every run of calls what is reported and delivered is what their inputs do one after another, and
the reports are those for what has been settled, each with the bytes of its components, if and only
if every fragment fits what has been received before.
-/
theorem balanced_iff_guarded {m : ReceiveManager} (hm : m.fragmentStore = .empty)
    {events : List Event} {s : Calls}
    (hrun : run Calls.step { manager := m } events = some s)
    : (∃ t,
        run Log.step (Log.init m) s.inputs = some t
          ∧ charges t.outputs = charges s.outputs
          ∧ deliveries t.outputs = deliveries s.outputs
          ∧ ∀ source c, t.received.count (source, c)
            = (t.settled source).count c + (t.fragments (fragmentKey source c)).count c)
        ∧ ((∀ inputs₁ inputs₂ t, s.inputs = inputs₁ ++ inputs₂
          → run Log.step (Log.init m) inputs₁ = some t → t.Balanced)
          ↔
        Guarded Log.step Log.Accountable (Log.init m) s.inputs) := by
  obtain ⟨t, slot, pending, htrace, hcharges, hdeliveries, -⟩ := Calls.run_traced hrun
  have hinit : (Log.init m).Inv := Log.inv_init m hm
  have hinv : t.Inv :=
    run_inv (fun s input s' h _ hstep => Log.Inv.step h hstep) hinit
      (guarded_of_forall (fun _ _ => trivial)) htrace
  refine ⟨⟨t, htrace, hcharges, hdeliveries, hinv.once⟩, ?_⟩
  apply @run_always_iff _ _ Log.step Log.Accountable Log.Inv Log.Balanced _ _ _ _ _ hinit _ htrace
  . exact fun s input s' h hstep => h.step hstep
  . exact fun s input s' h hbalanced hstep => Log.balanced_step_iff h hbalanced hstep
  . refine ⟨rfl, fun key => held_of_none ?_⟩
    rw [Log.init, hm]
    rfl

def twoPackets : List Event := [
  .enqueue ⟨⟨1, 0, [⟨.data, 1, 0, [1, 2], 0, 0, 7, true⟩, ⟨.data, 1, 0, [3], 1, 2, 7, false⟩]⟩,
    ⟨2, 1, 0, 0, 0⟩, 0⟩ 0 .received,
  .process 2 1 .received,
  .enqueue ⟨⟨3, 0, [⟨.data, 1, 0, [1, 2], 0, 0, 8, true⟩]⟩, ⟨2, 1, 0, 0, 0⟩, 0⟩ 2 .received,
  .process 4 3 .received,
  .process 20 20 .received
]

theorem balanced_iff_guarded_example
    : ∃ s t,
        run Calls.step { manager := .init 1 false 10 10 } twoPackets = some s
          ∧ run Log.step (Log.init (.init 1 false 10 10)) s.inputs = some t
          ∧ t.Balanced
          ∧ charges s.outputs = [(2, 0, 3, .ACCEPT_GOOD), (2, 0, 2, .DROP_MISS_FRAGMENT)] := by
  obtain ⟨⟨t, htrace, -⟩, hiff⟩ :=
    balanced_iff_guarded rfl (Eq.refl (run Calls.step { manager := .init 1 false 10 10 } twoPackets))
  exact ⟨_, t, rfl, htrace, hiff.mpr (by decide) _ [] t (List.append_nil _).symm htrace, by decide⟩

theorem not_balanced
    : ¬ ∀ m events s t,
        m.fragmentStore = .empty
          →
        run Calls.step { manager := m } events = some s
          →
        run Log.step (Log.init m) s.inputs = some t
          →
        t.Balanced := by
  intro h
  have hbalanced := h (.init 1 false 10 10) [
    .enqueue ⟨⟨1, 0, [⟨.data, 1, 0, [1, 2], 0, 0, 7, true⟩, ⟨.data, 1, 0, [4], 2, 3, 7, true⟩]⟩,
      ⟨2, 1, 0, 0, 0⟩, 0⟩ 0 .received,
    .process 2 1 .received] _ _ rfl rfl rfl
  have hreported := hbalanced.reported
  revert hreported
  decide

end ReceiveManager
end Tdma
end Emane

import Emane.Lib.Machine
import Emane.Lib.SortedFold
import Emane.Ieee80211abg.Impl.NeighborManager

/-!
This module contains which nodes the neighbor manager knows after any sequence of calls.
-/

namespace Emane
namespace Ieee80211abg
namespace NeighborManager

variable {F : Type} {m m' m'' : NeighborManager F} {src nbr : NEMId}

def heard (m : NeighborManager F) (nbr : NEMId) : Option NbrSet :=
  (m.oneHopNbrMap.find? nbr).map (fun n => n.oneHopNbrSet)

theorem heard_of_find? {n : NeighborEntry F} (h : m.oneHopNbrMap.find? nbr = some n)
    : m.heard nbr = some n.oneHopNbrSet := by
  unfold heard
  rw [h]
  rfl

theorem heard_eq_some_iff {nbrs : NbrSet}
    : m.heard nbr = some nbrs ↔ ∃ n, m.oneHopNbrMap.find? nbr = some n ∧ n.oneHopNbrSet = nbrs := by
  unfold heard
  rw [Option.map_eq_some_iff]

theorem contains_eq_isSome_heard (m : NeighborManager F) (nbr : NEMId)
    : m.oneHopNbrMap.contains nbr = (m.heard nbr).isSome := by
  unfold heard SortedMap.contains
  rw [Option.isSome_map]

theorem heard_set (m' : NeighborManager F) {n : NeighborEntry F}
    (hmap : m'.oneHopNbrMap = m.oneHopNbrMap.set nbr n) (k : NEMId)
    : m'.heard k = if k = nbr then some n.oneHopNbrSet else m.heard k := by
  unfold heard
  rw [hmap, SortedMap.find?_set]
  split
  . rfl
  . rfl

structure SameNeighbors (m m' : NeighborManager F) : Prop where
  id : m'.id = m.id
  heard : ∀ nbr, m'.heard nbr = m.heard nbr
  twoHop : ∀ nbr, m'.twoHopNbrMap.contains nbr = m.twoHopNbrMap.contains nbr
  cached : m'.cachedOneHopNbrSetMap = m.cachedOneHopNbrSetMap
  oneHopTable : m'.statisticOneHopNbrTable = m.statisticOneHopNbrTable
  twoHopTable : m'.statisticTwoHopNbrTable = m.statisticTwoHopNbrTable

namespace SameNeighbors

theorem refl (m : NeighborManager F) : SameNeighbors m m := by
  exact ⟨rfl, fun _ => rfl, fun _ => rfl, rfl, rfl, rfl⟩

theorem trans (h : SameNeighbors m m') (h' : SameNeighbors m' m'') : SameNeighbors m m'' where
  id := h'.id.trans h.id
  heard nbr := (h'.heard nbr).trans (h.heard nbr)
  twoHop nbr := (h'.twoHop nbr).trans (h.twoHop nbr)
  cached := h'.cached.trans h.cached
  oneHopTable := h'.oneHopTable.trans h.oneHopTable
  twoHopTable := h'.twoHopTable.trans h.twoHopTable

theorem mapOneHop {f : NeighborEntry F → NeighborEntry F}
    (hf : ∀ n, (f n).oneHopNbrSet = n.oneHopNbrSet) (m : NeighborManager F)
    : SameNeighbors m (m.mapOneHop f) where
  id := rfl
  heard nbr := by
    unfold NeighborManager.heard NeighborManager.mapOneHop
    rw [SortedMap.find?_foldl_set_self, Option.map_map]
    congr 1
    funext n
    exact hf n
  twoHop _ := rfl
  cached := rfl
  oneHopTable := rfl
  twoHopTable := rfl

theorem mapTwoHop (f : Neighbor2HopEntry → Neighbor2HopEntry) (m : NeighborManager F)
    : SameNeighbors m (m.mapTwoHop f) where
  id := rfl
  heard _ := rfl
  twoHop nbr := by
    unfold NeighborManager.mapTwoHop SortedMap.contains
    rw [SortedMap.find?_foldl_set_self, Option.isSome_map]
  cached := rfl
  oneHopTable := rfl
  twoHopTable := rfl

variable [FloatingPoint F]

theorem estimateNeighbor (deltaTMicroseconds : Microseconds) {s : F × NeighborManager F}
    (h : SameNeighbors m s.2)
    {e : NEMId × NeighborEntry F} (he : e ∈ m.oneHopNbrMap.toList)
    : SameNeighbors m (estimateNeighbor deltaTMicroseconds s e).2 := by
  have hheard := heard_of_find? (SortedMap.find?_of_mem he)
  unfold NeighborManager.estimateNeighbor
  simp only
  split
  . split
    . refine ⟨h.id, ?_, h.twoHop, h.cached, h.oneHopTable, h.twoHopTable⟩
      intro k
      rw [heard_set _ rfl]
      split
      . next hk => exact hk ▸ hheard.symm
      . exact h.heard k
    . exact h
  . exact h

theorem setSourceProbability (m : NeighborManager F) (e : NEMId × Microseconds)
    : SameNeighbors m (setSourceProbability m e) := by
  unfold NeighborManager.setSourceProbability
  simp only
  split
  . split
    . split
      . exact ⟨rfl, fun _ => rfl, fun _ => rfl, rfl, rfl, rfl⟩
      . exact refl m
    . exact refl m
  . exact refl m

theorem setCommonAndHiddenProbability (m : NeighborManager F)
    : SameNeighbors m m.setCommonAndHiddenProbability := by
  apply List.foldlRecOn
  . exact refl m
  . intro m' h e _
    exact h.trans (setSourceProbability m' e)

theorem calculateBwUtilization (m : NeighborManager F) (deltaTMicroseconds : Microseconds)
    : SameNeighbors m (m.calculateBwUtilization deltaTMicroseconds) := by
  unfold NeighborManager.calculateBwUtilization
  simp only
  split
  . have hestimated := List.foldlRecOn (motive := fun s : F × NeighborManager F => SameNeighbors m s.2)
      m.oneHopNbrMap.toList (NeighborManager.estimateNeighbor deltaTMicroseconds)
        (b := (0, { m with counters := averages m.count }))
      ⟨rfl, fun _ => rfl, fun _ => rfl, rfl, rfl, rfl⟩
        (fun _ hs _ he => estimateNeighbor deltaTMicroseconds hs he)
    have hset := hestimated.trans (setCommonAndHiddenProbability _)
    exact ⟨hset.id, hset.heard, hset.twoHop, hset.cached, hset.oneHopTable, hset.twoHopTable⟩
  . exact ⟨rfl, fun _ => rfl, fun _ => rfl, rfl, rfl, rfl⟩

end SameNeighbors

def Lists {ν : Type} (t : StatisticTable) (map : SortedMap NEMId ν) : Prop :=
  ∀ nbr, t.find? nbr = if map.contains nbr then some nbr else none

namespace Lists

variable {ν : Type} {t : StatisticTable} {map map' : SortedMap NEMId ν}

theorem of_contains (h : Lists t map) (hcontains : ∀ nbr, map'.contains nbr = map.contains nbr)
    : Lists t map' := by
  intro nbr
  rw [hcontains]
  exact h nbr

theorem addRow (h : Lists t map) (hnone : map.contains nbr = false)
    (hcontains : ∀ k, map'.contains k = true ↔ k = nbr ∨ map.contains k = true)
    : ∃ t', t.addRow nbr = some t' ∧ Lists t' map' := by
  have hrow : t.find? nbr = none := by
    rw [h nbr, hnone]
    rfl
  refine ⟨t.insert nbr nbr, ?_, ?_⟩
  . unfold StatisticTable.addRow
    rw [SortedMap.contains_eq_false_iff.mpr hrow]
    rfl
  . intro k
    rw [SortedMap.find?_insert, hrow, if_congr (hcontains k) rfl rfl]
    by_cases hk : k = nbr
    . simp [hk]
    . rw [if_neg hk, if_congr (or_iff_right hk) rfl rfl]
      exact h k

theorem foldl_erase (h : Lists t map) (old : List (NEMId × ν))
    : Lists (old.foldl (fun table iter => table.erase iter.1) t)
        (old.foldl (fun map iter => map.erase iter.1) map) := by
  intro nbr
  unfold SortedMap.contains
  rw [SortedMap.find?_foldl_erase, SortedMap.find?_foldl_erase]
  split
  . rfl
  . exact h nbr

end Lists

def lastReceived (nbr : NEMId) (events : List (Event F)) : Option NbrSet :=
  events.foldl (fun last e =>
    match e with
    | .oneHopNeighbors (some msg) =>
      let event := OneHopNeighborsEvent.ofMessage msg
      if event.eventSource = nbr then some event.nbrSet else last
    | _ => last) none

structure Standing (events : List (Event F)) (m : NeighborManager F) : Prop where
  localNode : m.twoHopNbrMap.contains m.id = false
  oneHopTable : Lists m.statisticOneHopNbrTable m.oneHopNbrMap
  twoHopTable : Lists m.statisticTwoHopNbrTable m.twoHopNbrMap
  cached : ∀ nbr, m.cachedOneHopNbrSetMap.find? nbr = lastReceived nbr events
  heard : ∀ nbr nbrs, m.heard nbr = some nbrs → nbrs = (lastReceived nbr events).getD .empty

theorem Standing.of_same {events : List (Event F)} (h : Standing events m)
    (hsame : SameNeighbors m m') : Standing events m' where
  localNode := by
    rw [hsame.twoHop, hsame.id]
    exact h.localNode
  oneHopTable := by
    rw [hsame.oneHopTable]
    apply h.oneHopTable.of_contains
    intro nbr
    rw [contains_eq_isSome_heard, contains_eq_isSome_heard, hsame.heard]
  twoHopTable := by
    rw [hsame.twoHopTable]
    exact h.twoHopTable.of_contains hsame.twoHop
  cached := by
    rw [hsame.cached]
    exact h.cached
  heard nbr nbrs hheard := by
    rw [hsame.heard] at hheard
    exact h.heard nbr nbrs hheard

def Disjoint (m : NeighborManager F) : Prop :=
  ∀ nbr, m.oneHopNbrMap.contains nbr = true → m.twoHopNbrMap.contains nbr = false

theorem SameNeighbors.disjoint_iff (h : SameNeighbors m m') : m'.Disjoint ↔ m.Disjoint := by
  unfold Disjoint
  simp only [contains_eq_isSome_heard, h.heard, h.twoHop]

variable {events : List (Event F)}

def listOf (m : NeighborManager F) (src : NEMId) : NbrSet :=
  (m.heard src).getD ((m.cachedOneHopNbrSetMap.find? src).getD .empty)

structure Hears (src : NEMId) (m m' : NeighborManager F) : Prop where
  id : m'.id = m.id
  heard : ∀ nbr, m'.heard nbr = if nbr = src then some (m.listOf src) else m.heard nbr
  twoHop : m'.twoHopNbrMap = m.twoHopNbrMap
  cached : m'.cachedOneHopNbrSetMap = m.cachedOneHopNbrSetMap
  oneHopTable : Lists m'.statisticOneHopNbrTable m'.oneHopNbrMap
  twoHopTable : m'.statisticTwoHopNbrTable = m.statisticTwoHopNbrTable

theorem Standing.hears (h : Standing events m) (hears : Hears src m m') : Standing events m' where
  localNode := by
    rw [hears.twoHop, hears.id]
    exact h.localNode
  oneHopTable := hears.oneHopTable
  twoHopTable := by
    rw [hears.twoHopTable, hears.twoHop]
    exact h.twoHopTable
  cached := by
    rw [hears.cached]
    exact h.cached
  heard nbr nbrs hheard := by
    rw [hears.heard] at hheard
    split at hheard
    . next hnbr =>
      subst hnbr
      rw [← Option.some.inj hheard]
      unfold listOf
      rw [h.cached]
      cases hbefore : m.heard nbr with
      | none => rfl
      | some nbrs' => exact h.heard nbr nbrs' hbefore
    . exact h.heard nbr nbrs hheard

theorem Hears.disjoint_iff (hears : Hears src m m')
    : m'.Disjoint ↔ m.Disjoint ∧ m.twoHopNbrMap.contains src = false := by
  unfold Disjoint
  simp only [contains_eq_isSome_heard, hears.heard, hears.twoHop]
  constructor
  . intro h
    constructor
    . intro nbr hnbr
      apply h nbr
      split
      . rfl
      . exact hnbr
    . apply h src
      rw [if_pos rfl]
      rfl
  . rintro ⟨h, hsrc⟩ nbr hnbr
    split at hnbr
    . next heq => exact heq ▸ hsrc
    . exact h nbr hnbr

structure Knows (origin : NEMId) (m m' : NeighborManager F) : Prop where
  id : m'.id = m.id
  oneHop : m'.oneHopNbrMap = m.oneHopNbrMap
  twoHop : ∀ nbr, m'.twoHopNbrMap.contains nbr = true ↔ nbr = origin ∨ m.twoHopNbrMap.contains nbr = true
  cached : m'.cachedOneHopNbrSetMap = m.cachedOneHopNbrSetMap
  oneHopTable : m'.statisticOneHopNbrTable = m.statisticOneHopNbrTable
  twoHopTable : Lists m'.statisticTwoHopNbrTable m'.twoHopNbrMap

theorem exists_addTwoHopNeighbor (h : Lists m.statisticTwoHopNbrTable m.twoHopNbrMap) (origin : NEMId)
    : ∃ m', m.addTwoHopNeighbor origin = some m' ∧ Knows origin m m' := by
  unfold addTwoHopNeighbor
  split
  . next hknown =>
    refine ⟨m, rfl, rfl, rfl, ?_, rfl, rfl, h⟩
    intro nbr
    constructor
    . exact Or.inr
    . rintro (rfl | hnbr)
      . exact hknown
      . exact hnbr
  . next hnew =>
    rw [Bool.not_eq_true] at hnew
    obtain ⟨t, ht, hlists⟩ := h.addRow hnew
      (fun k => @SortedMap.contains_insert _ _ _ m.twoHopNbrMap origin k .create)
    rw [ht]
    exact ⟨_, rfl, rfl, rfl, fun _ => SortedMap.contains_insert, rfl, rfl, hlists⟩

theorem Standing.knows {origin : NEMId} (h : Standing events m) (knows : Knows origin m m')
    (horigin : origin ≠ m.id)
    : Standing events m' where
  localNode := by
    rw [← Bool.not_eq_true, knows.twoHop, knows.id, h.localNode]
    rintro (heq | hfalse)
    . exact horigin heq.symm
    . exact Bool.noConfusion hfalse
  oneHopTable := by
    rw [knows.oneHopTable, knows.oneHop]
    exact h.oneHopTable
  twoHopTable := knows.twoHopTable
  cached := by
    rw [knows.cached]
    exact h.cached
  heard nbr nbrs hheard := by
    unfold NeighborManager.heard at hheard
    rw [knows.oneHop] at hheard
    exact h.heard nbr nbrs hheard

theorem lastReceived_append (nbr : NEMId) (e : Event F)
    : lastReceived nbr (events ++ [e])
        =
      match e with
      | .oneHopNeighbors (some msg) =>
        if (OneHopNeighborsEvent.ofMessage msg).eventSource = nbr then
          some (OneHopNeighborsEvent.ofMessage msg).nbrSet
        else
          lastReceived nbr events
      | _ => lastReceived nbr events := by
  unfold lastReceived
  rw [List.foldl_append]
  rfl

theorem Disjoint.knows {origin : NEMId} (h : m.Disjoint) (knows : Knows origin m m')
    (hnew : (!m.oneHopNbrMap.contains origin) = true)
    : m'.Disjoint := by
  intro nbr hnbr
  rw [knows.oneHop] at hnbr
  rw [← Bool.not_eq_true, knows.twoHop, h nbr hnbr]
  rintro (rfl | hfalse)
  . rw [hnbr] at hnew
    cases hnew
  . cases hfalse

theorem Standing.append {e : Event F} (h : Standing events m)
    (he : ∀ msg, e ≠ .oneHopNeighbors (some msg))
    : Standing (events ++ [e]) m := by
  have hlast : ∀ nbr, lastReceived nbr (events ++ [e]) = lastReceived nbr events := by
    intro nbr
    rw [lastReceived_append]
    split
    . next msg => exact absurd rfl (he msg)
    . rfl
  refine ⟨h.localNode, h.oneHopTable, h.twoHopTable, ?_, ?_⟩
  . intro nbr
    rw [hlast]
    exact h.cached nbr
  . intro nbr
    rw [hlast]
    exact h.heard nbr

theorem Standing.handleOneHopNeighborsEvent (h : Standing events m) (msg : Option OneHopNeighborsMessage)
    : Standing (events ++ [.oneHopNeighbors msg]) (m.handleOneHopNeighborsEvent msg) := by
  cases msg with
  | none => exact h.append (fun msg heq => by cases heq)
  | some msg =>
    refine ⟨h.localNode, ?_, h.twoHopTable, ?_, ?_⟩
    . apply h.oneHopTable.of_contains
      intro nbr
      unfold NeighborManager.handleOneHopNeighborsEvent
      simp only
      split
      . next n hn =>
        rw [Bool.eq_iff_iff, SortedMap.contains_set]
        constructor
        . rintro (rfl | hnbr)
          . exact SortedMap.contains_eq_true_iff.mpr ⟨n, hn⟩
          . exact hnbr
        . exact Or.inr
      . rfl
    . intro nbr
      rw [lastReceived_append]
      unfold NeighborManager.handleOneHopNeighborsEvent
      simp only
      rw [SortedMap.find?_set, h.cached]
      split
      . next heq => rw [if_pos heq.symm]
      . next hne => rw [if_neg (Ne.symm hne)]
    . intro nbr nbrs hheard
      rw [lastReceived_append]
      simp only
      unfold NeighborManager.handleOneHopNeighborsEvent NeighborManager.heard at hheard
      simp only at hheard
      split at hheard
      . rw [SortedMap.find?_set] at hheard
        split at hheard
        . next heq =>
          rw [if_pos heq.symm]
          exact (Option.some.inj hheard).symm
        . next hne =>
          rw [if_neg (Ne.symm hne)]
          exact h.heard nbr nbrs hheard
      . next hnone =>
        split
        . next heq =>
          rw [← heq, hnone] at hheard
          cases hheard
        . exact h.heard nbr nbrs hheard

theorem Disjoint.handleOneHopNeighborsEvent (h : m.Disjoint) (msg : Option OneHopNeighborsMessage)
    : (m.handleOneHopNeighborsEvent msg).Disjoint := by
  cases msg with
  | none => exact h
  | some msg =>
    intro nbr hnbr
    apply h nbr
    unfold NeighborManager.handleOneHopNeighborsEvent at hnbr
    simp only at hnbr
    split at hnbr
    . next n hn =>
      rw [SortedMap.contains_set] at hnbr
      cases hnbr with
      | inl heq => exact SortedMap.contains_eq_true_iff.mpr ⟨n, heq ▸ hn⟩
      | inr hnbr => exact hnbr
    . exact hnbr

structure Fewer (m m' : NeighborManager F) : Prop where
  id : m'.id = m.id
  heard : ∀ nbr, m'.heard nbr = none ∨ m'.heard nbr = m.heard nbr
  twoHop : ∀ nbr, m'.twoHopNbrMap.contains nbr = true → m.twoHopNbrMap.contains nbr = true
  cached : m'.cachedOneHopNbrSetMap = m.cachedOneHopNbrSetMap
  oneHopTable : Lists m.statisticOneHopNbrTable m.oneHopNbrMap
    → Lists m'.statisticOneHopNbrTable m'.oneHopNbrMap
  twoHopTable : Lists m.statisticTwoHopNbrTable m.twoHopNbrMap
    → Lists m'.statisticTwoHopNbrTable m'.twoHopNbrMap

theorem Fewer.refl (m : NeighborManager F) : Fewer m m := by
  exact ⟨rfl, fun _ => Or.inr rfl, fun _ h => h, rfl, fun h => h, fun h => h⟩

theorem Fewer.trans (h : Fewer m m') (h' : Fewer m' m'') : Fewer m m'' where
  id := h'.id.trans h.id
  heard nbr := by
    cases h'.heard nbr with
    | inl hnone => exact Or.inl hnone
    | inr heq =>
      rw [heq]
      exact h.heard nbr
  twoHop nbr hnbr := h.twoHop nbr (h'.twoHop nbr hnbr)
  cached := h'.cached.trans h.cached
  oneHopTable hlists := h'.oneHopTable (h.oneHopTable hlists)
  twoHopTable hlists := h'.twoHopTable (h.twoHopTable hlists)

theorem fewer_flushOneHopNeighbors (m : NeighborManager F) (currentTime : TimePoint)
    : Fewer m (m.flushOneHopNeighbors currentTime).2 where
  id := rfl
  heard nbr := by
    unfold flushOneHopNeighbors NeighborManager.heard
    rw [SortedMap.find?_foldl_erase]
    split
    . exact Or.inl rfl
    . exact Or.inr rfl
  twoHop _ hnbr := hnbr
  cached := rfl
  oneHopTable hlists := hlists.foldl_erase _
  twoHopTable hlists := hlists

theorem fewer_flushTwoHopNeighbors (m : NeighborManager F) (currentTime : TimePoint)
    : Fewer m (m.flushTwoHopNeighbors currentTime) where
  id := rfl
  heard _ := Or.inr rfl
  twoHop nbr hnbr := by
    unfold flushTwoHopNeighbors SortedMap.contains at hnbr
    rw [SortedMap.find?_foldl_erase] at hnbr
    split at hnbr
    . cases hnbr
    . exact hnbr
  cached := rfl
  oneHopTable hlists := hlists
  twoHopTable hlists := hlists.foldl_erase _

theorem fewer_flush (m : NeighborManager F) (currentTime : TimePoint)
    : Fewer m (m.flush currentTime) := by
  have honeHop := m.fewer_flushOneHopNeighbors currentTime
  unfold NeighborManager.flush
  split
  . simp only
    split
    . have hsent : Fewer m (m.flushOneHopNeighbors currentTime).2.sendOneHopNbrListEvent :=
        ⟨honeHop.id, honeHop.heard, honeHop.twoHop, honeHop.cached, honeHop.oneHopTable,
          honeHop.twoHopTable⟩
      exact hsent.trans (fewer_flushTwoHopNeighbors _ currentTime)
    . exact honeHop.trans (fewer_flushTwoHopNeighbors _ currentTime)
  . exact Fewer.refl m

theorem Standing.fewer (h : Standing events m) (hfewer : Fewer m m') : Standing events m' where
  localNode := by
    rw [← Bool.not_eq_true, hfewer.id]
    intro hnbr
    have hbefore := hfewer.twoHop _ hnbr
    rw [h.localNode] at hbefore
    cases hbefore
  oneHopTable := hfewer.oneHopTable h.oneHopTable
  twoHopTable := hfewer.twoHopTable h.twoHopTable
  cached := by
    rw [hfewer.cached]
    exact h.cached
  heard nbr nbrs hheard := by
    cases hfewer.heard nbr with
    | inl hnone =>
      rw [hnone] at hheard
      cases hheard
    | inr heq => exact h.heard nbr nbrs (heq ▸ hheard)

theorem Disjoint.fewer (h : m.Disjoint) (hfewer : Fewer m m') : m'.Disjoint := by
  intro nbr hnbr
  rw [contains_eq_isSome_heard] at hnbr
  rw [← Bool.not_eq_true]
  intro htwoHop
  have hbefore := hfewer.twoHop nbr htwoHop
  cases hfewer.heard nbr with
  | inl hnone =>
    rw [hnone] at hnbr
    cases hnbr
  | inr heq =>
    rw [heq, ← contains_eq_isSome_heard] at hnbr
    rw [h nbr hnbr] at hbefore
    cases hbefore

def Ok (m : NeighborManager F) : Event F → Prop
  | .dataActivity src _ _ _ _ => m.twoHopNbrMap.contains src = false
  | .ctrlActivity src origin _ _ _ _ =>
    m.twoHopNbrMap.contains src = false
      ∧ ¬ (origin = src ∧ src ≠ m.id ∧ m.oneHopNbrMap.contains src = false)
  | .oneHopNeighbors _ => True
  | .resetStatistics _ => True

instance (m : NeighborManager F) (e : Event F) : Decidable (m.Ok e) := by
  cases e with
  | dataActivity => exact inferInstanceAs (Decidable (_ = _))
  | ctrlActivity => exact inferInstanceAs (Decidable (_ ∧ _))
  | oneHopNeighbors => exact isTrue trivial
  | resetStatistics => exact isTrue trivial

theorem ok_ctrlActivity_iff {origin : NEMId} {type : UInt8} {rxPower : F} {timePoint : TimePoint}
    {duration : Microseconds}
    : m.Ok (.ctrlActivity src origin type rxPower timePoint duration)
        ↔
      m.twoHopNbrMap.contains src = false
          ∧ ¬ (origin = src ∧ src ≠ m.id ∧ m.oneHopNbrMap.contains src = false) := by
  exact Iff.rfl

structure Consistent (events : List (Event F)) (m : NeighborManager F) : Prop where
  disjoint : ∀ nbr, m.oneHopNbrMap.contains nbr = true → m.twoHopNbrMap.contains nbr = false
  localNode : m.twoHopNbrMap.contains m.id = false
  oneHopTable : ∀ nbr, m.statisticOneHopNbrTable.find? nbr =
    if m.oneHopNbrMap.contains nbr then some nbr else none
  twoHopTable : ∀ nbr, m.statisticTwoHopNbrTable.find? nbr =
    if m.twoHopNbrMap.contains nbr then some nbr else none
  oneHopNbrSet : ∀ nbr n, m.oneHopNbrMap.find? nbr = some n
    → n.oneHopNbrSet = (lastReceived nbr events).getD .empty

theorem Standing.consistent_iff (h : Standing events m) : Consistent events m ↔ m.Disjoint := by
  constructor
  . exact fun hconsistent => hconsistent.disjoint
  . intro hdisjoint
    exact ⟨hdisjoint, h.localNode, h.oneHopTable, h.twoHopTable, fun nbr n hn => h.heard nbr _
      (heard_of_find? hn)⟩

section

variable [FloatingPoint F]

theorem exists_addOneHopNeighbor (h : Lists m.statisticOneHopNbrTable m.oneHopNbrMap) (src : NEMId)
    : ∃ changed m', m.addOneHopNeighbor src = some (changed, m') ∧ Hears src m m' := by
  unfold addOneHopNeighbor
  split
  . next hknown =>
    refine ⟨false, m, rfl, rfl, ?_, rfl, rfl, h, rfl⟩
    intro nbr
    split
    . next hnbr =>
      subst hnbr
      rw [contains_eq_isSome_heard, Option.isSome_iff_exists] at hknown
      obtain ⟨nbrs, hnbrs⟩ := hknown
      unfold listOf
      rw [hnbrs]
      rfl
    . rfl
  . next hnew =>
    rw [Bool.not_eq_true] at hnew
    have hnone := SortedMap.contains_eq_false_iff.mp hnew
    obtain ⟨t, ht, hlists⟩ := h.addRow hnew
      (fun k => @SortedMap.contains_insert _ _ _ m.oneHopNbrMap src k (m.newEntry src))
    rw [ht]
    refine ⟨true, _, rfl, rfl, ?_, rfl, rfl, hlists, rfl⟩
    intro nbr
    unfold NeighborManager.heard
    rw [SortedMap.find?_insert]
    split
    . unfold listOf newEntry NeighborManager.heard
      rw [hnone]
      cases m.cachedOneHopNbrSetMap.find? src with
      | none => rfl
      | some nbrs => rfl
    . rfl

theorem exists_updateOneHop (h : Lists m.statisticOneHopNbrTable m.oneHopNbrMap) (src : NEMId)
    (type : UInt8) (rxPower : F)
    (timePoint : TimePoint) (duration : Microseconds)
    : ∃ m', m.updateOneHop src type rxPower timePoint duration = some m' ∧ Hears src m m' := by
  obtain ⟨changed, m₁, hadd, hears⟩ := exists_addOneHopNeighbor h src
  have hupdated : ∀ m₂ : NeighborManager F,
      m₂.oneHopNbrMap = m₁.oneHopNbrMap.upsert src .create
        (fun n => n.updateChannelActivity duration type timePoint rxPower) →
      ∀ nbr, m₂.heard nbr = m₁.heard nbr := by
    intro m₂ hmap nbr
    have hsrc := hears.heard src
    rw [if_pos rfl, heard_eq_some_iff] at hsrc
    obtain ⟨n, hn, -⟩ := hsrc
    unfold NeighborManager.heard
    rw [hmap, SortedMap.find?_upsert]
    split
    . next hnbr =>
      rw [hnbr, hn]
      rfl
    . rfl
  have hcontains : ∀ m₂ : NeighborManager F, (∀ nbr, m₂.heard nbr = m₁.heard nbr) →
      ∀ nbr, m₂.oneHopNbrMap.contains nbr = m₁.oneHopNbrMap.contains nbr := by
    intro m₂ hheard nbr
    rw [contains_eq_isSome_heard, contains_eq_isSome_heard, hheard]
  unfold updateOneHop
  rw [hadd]
  cases changed with
  | true =>
    refine ⟨_, rfl, hears.id, ?_, hears.twoHop, hears.cached, ?_, hears.twoHopTable⟩
    . exact fun nbr => (hupdated _ rfl nbr).trans (hears.heard nbr)
    . exact hears.oneHopTable.of_contains (hcontains _ (hupdated _ rfl))
  | false =>
    refine ⟨_, rfl, hears.id, ?_, hears.twoHop, hears.cached, ?_, hears.twoHopTable⟩
    . exact fun nbr => (hupdated _ rfl nbr).trans (hears.heard nbr)
    . exact hears.oneHopTable.of_contains (hcontains _ (hupdated _ rfl))

theorem resetStatistics_spec (m : NeighborManager F) (currentTime : TimePoint)
    : ∃ m', Fewer m m' ∧ SameNeighbors m' (m.resetStatistics currentTime) := by
  refine ⟨m.flush currentTime, fewer_flush m currentTime, ?_⟩
  have hstored := SameNeighbors.mapOneHop (f := NeighborEntry.storeUtilization) (fun _ => rfl)
    (m.flush currentTime)
  have hcalculated := hstored.trans
    (SameNeighbors.calculateBwUtilization _ ((currentTime - m.lastResetTime).tdiv 1000))
  have hreset := hcalculated.trans (SameNeighbors.mapTwoHop Neighbor2HopEntry.resetUtilization _)
  exact ⟨hreset.id, hreset.heard, hreset.twoHop, hreset.cached, hreset.oneHopTable, hreset.twoHopTable⟩

theorem exists_updateCtrlChannelActivity (h : Standing events m) (src origin : NEMId) (type : UInt8)
    (rxPower : F)
    (timePoint : TimePoint) (duration : Microseconds)
    : ∃ m', m.updateCtrlChannelActivity src origin type rxPower timePoint duration = some m'
        ∧ Standing events m' ∧
        (m.Disjoint → (m'.Disjoint
            ↔ m.Ok (.ctrlActivity src origin type rxPower timePoint duration))) := by
  unfold updateCtrlChannelActivity
  split
  . next hnew =>
    obtain ⟨horigin, hunknown⟩ := hnew
    obtain ⟨m₁, hadd, hknows⟩ := exists_addTwoHopNeighbor h.twoHopTable origin
    rw [hadd]
    have hknows' : ∀ f : Neighbor2HopEntry → Neighbor2HopEntry,
        Knows origin m { m₁ with twoHopNbrMap := m₁.twoHopNbrMap.upsert origin .create f } := by
      intro f
      have hcontains : ∀ nbr, (m₁.twoHopNbrMap.upsert origin .create f).contains nbr
          = m₁.twoHopNbrMap.contains nbr := by
        intro nbr
        rw [Bool.eq_iff_iff, SortedMap.contains_upsert, hknows.twoHop]
        tauto
      refine ⟨hknows.id, hknows.oneHop, ?_, hknows.cached, hknows.oneHopTable,
        hknows.twoHopTable.of_contains hcontains⟩
      intro nbr
      rw [hcontains]
      exact hknows.twoHop nbr
    have hknows := hknows' (fun n => n.updateChannelActivity duration timePoint)
    have hstanding := h.knows hknows horigin
    obtain ⟨m', hupdate, hears⟩ := exists_updateOneHop hstanding.oneHopTable src type rxPower timePoint 0
    refine ⟨m', hupdate, hstanding.hears hears, ?_⟩
    intro hdisjoint
    rw [hears.disjoint_iff, and_iff_right (hdisjoint.knows hknows hunknown), ← Bool.not_eq_true,
      hknows.twoHop,
      ok_ctrlActivity_iff, ← Bool.not_eq_true (m.twoHopNbrMap.contains src), not_or, and_comm]
    apply and_congr_right'
    constructor
    . rintro hne ⟨heq, -, -⟩
      exact hne heq.symm
    . rintro hself rfl
      exact hself ⟨rfl, horigin, by simpa using hunknown⟩
  . next hold =>
    obtain ⟨m', hupdate, hears⟩ := exists_updateOneHop h.oneHopTable src type rxPower timePoint 0
    refine ⟨m', hupdate, h.hears hears, ?_⟩
    intro hdisjoint
    rw [hears.disjoint_iff, and_iff_right hdisjoint, ok_ctrlActivity_iff, iff_self_and]
    rintro - ⟨rfl, horigin, hunknown⟩
    exact hold ⟨horigin, by rw [hunknown]; rfl⟩

theorem Standing.exists_step (h : Standing events m) (e : Event F)
    : ∃ m', m.step e = some m' ∧ Standing (events ++ [e]) m' ∧ (m.Disjoint → (m'.Disjoint ↔ m.Ok e)) := by
  cases e with
  | dataActivity src type rxPower timePoint duration =>
    obtain ⟨m', hupdate, hears⟩ := exists_updateOneHop h.oneHopTable src type rxPower timePoint duration
    refine ⟨m', hupdate, (h.hears hears).append (fun _ heq => by cases heq), ?_⟩
    intro hdisjoint
    rw [hears.disjoint_iff, and_iff_right hdisjoint]
    rfl
  | ctrlActivity src origin type rxPower timePoint duration =>
    obtain ⟨m', hupdate, hstanding, hdisjoint⟩ := exists_updateCtrlChannelActivity h src origin type
      rxPower timePoint duration
    exact ⟨m', hupdate, hstanding.append (fun _ heq => by cases heq), hdisjoint⟩
  | oneHopNeighbors msg =>
    refine ⟨_, rfl, h.handleOneHopNeighborsEvent msg, ?_⟩
    exact fun hdisjoint => iff_of_true (hdisjoint.handleOneHopNeighborsEvent msg) trivial
  | resetStatistics currentTime =>
    obtain ⟨m', hfewer, hsame⟩ := m.resetStatistics_spec currentTime
    refine ⟨_, rfl, ((h.fewer hfewer).of_same hsame).append (fun _ heq => by cases heq), ?_⟩
    exact fun hdisjoint => iff_of_true (hsame.disjoint_iff.mpr (hdisjoint.fewer hfewer)) trivial

theorem standing_create (id : NEMId) (timeOut : Microseconds) (startTime : TimePoint)
    : Standing [] (create id timeOut startTime : NeighborManager F) where
  localNode := by rfl
  oneHopTable _ := by rfl
  twoHopTable _ := by rfl
  cached _ := by rfl
  heard _ _ hheard := by cases hheard

theorem exists_run (id : NEMId) (timeOut : Microseconds) (startTime : TimePoint) (events : List (Event F))
    : ∃ m, run step (create id timeOut startTime) events = some m ∧ Standing events m := by
  induction events using List.reverseRecOn with
  | nil => exact ⟨_, rfl, standing_create id timeOut startTime⟩
  | append_singleton events e ih =>
    obtain ⟨m, hrun, hstanding⟩ := ih
    obtain ⟨m', hstep, hstanding, -⟩ := hstanding.exists_step e
    refine ⟨m', ?_, hstanding⟩
    rw [run_append, hrun, Option.bind_some, run_cons, hstep]
    rfl

theorem neighbors_consistent_iff (id : NEMId) (timeOut : Microseconds) (startTime : TimePoint)
    (events : List (Event F))
    : (∃ m, run step (create id timeOut startTime) events = some m)
        ∧ ((∀ (before after : List (Event F)) (m : NeighborManager F), events = before ++ after →
          run step (create id timeOut startTime) before = some m → Consistent before m)
          ↔
        Guarded step Ok (create id timeOut startTime) events) := by
  obtain ⟨m, hrun, -⟩ := exists_run id timeOut startTime events
  refine ⟨⟨m, hrun⟩, ?_⟩
  have hconsistent : ∀ (before : List (Event F)) (m : NeighborManager F),
      run step (create id timeOut startTime) before = some m → (Consistent before m ↔ m.Disjoint) := by
    intro before m hbefore
    obtain ⟨m', hrun', hstanding⟩ := exists_run id timeOut startTime before
    obtain rfl := Option.some.inj (hbefore.symm.trans hrun')
    exact hstanding.consistent_iff
  have halways := @run_always_iff _ _ step Ok (fun m => ∃ events, Standing events m) Disjoint
    (fun m e m' ⟨events, hstanding⟩ hstep => by
      obtain ⟨m₁, hstep₁, hstanding, -⟩ := hstanding.exists_step e
      obtain rfl := Option.some.inj (hstep.symm.trans hstep₁)
      exact ⟨_, hstanding⟩)
    (fun m e m' ⟨events, hstanding⟩ hdisjoint hstep => by
      obtain ⟨m₁, hstep₁, -, hiff⟩ := hstanding.exists_step e
      obtain rfl := Option.some.inj (hstep.symm.trans hstep₁)
      exact hiff hdisjoint)
    _ _ events ⟨[], standing_create id timeOut startTime⟩ (fun _ hnbr => by cases hnbr) hrun
  rw [← halways]
  constructor
  . exact fun h before after m heq hbefore => (hconsistent before m hbefore).mp
      (h before after m heq hbefore)
  . exact fun h before after m heq hbefore => (hconsistent before m hbefore).mpr
      (h before after m heq hbefore)

end

open scoped FloatingPoint

def promotion : List (Event ℚ) :=
  [.ctrlActivity 2 3 MSG_TYPE_UNICAST_CTS_CTRL 1 0 10, .dataActivity 3 MSG_TYPE_BROADCAST_DATA 1 0 10]

theorem not_neighbors_consistent
    : ¬ (∀ (before after : List (Event ℚ)) (m : NeighborManager ℚ), promotion = before ++ after →
          run step (create 1 0 0) before = some m → Consistent before m) := by
  intro h
  have hboth : (run step (create 1 0 0) promotion).map
    (fun m => (m.oneHopNbrMap.contains 3, m.twoHopNbrMap.contains 3))
      = some (true, true) := by
    decide
  rw [Option.map_eq_some_iff] at hboth
  obtain ⟨m, hrun, hm⟩ := hboth
  rw [Prod.mk.injEq] at hm
  have hdisjoint := (h promotion [] m rfl hrun).disjoint 3 hm.1
  rw [hm.2] at hdisjoint
  cases hdisjoint

end NeighborManager
end Ieee80211abg
end Emane

import Emane.Lib.Ranges
import Emane.Lib.Machine
import Emane.Neighbor.Impl.NeighborMetricManager

/-!
This module contains what the number of missed frames says about the frames that a neighbor has
sent.
-/

namespace Emane
namespace Neighbor

def missedFrames : List UInt64 → Finset Nat
  | [] => ∅
  | first :: rest => Gaps.missing first.toNat (rest.map UInt64.toNat)

/--
A frame that the count allows for. One that is older than the first one is taken for a missing one.
-/
def Expected (uuid : UUID) : List UInt64 → UInt64 → Prop
  | [], seqNum => uuid ≠ .ofByte 0 ∨ seqNum ≤ 1
  | first :: rest, seqNum => first ≤ seqNum ∨ missedFrames (first :: rest) = ∅

theorem expected_nil {uuid : UUID} {seqNum : UInt64}
    : Expected uuid [] seqNum ↔ uuid ≠ .ofByte 0 ∨ seqNum ≤ 1 := by
  rfl

theorem expected_cons {uuid : UUID} {first seqNum : UInt64} {rest : List UInt64}
    : Expected uuid (first :: rest) seqNum ↔ first ≤ seqNum ∨ missedFrames (first :: rest) = ∅ := by
  rfl

instance (uuid : UUID) (received : List UInt64) (seqNum : UInt64)
    : Decidable (Expected uuid received seqNum) :=
  match received with
  | [] => inferInstanceAs (Decidable (_ ∨ _))
  | _ :: _ => inferInstanceAs (Decidable (_ ∨ _))

namespace NeighborData

variable {F : Type u}

def Tracks (d : NeighborData F) (uuid : UUID) : List UInt64 → Prop
  | [] => (d.uuid = .ofByte 0 ∧ d.lastRxSeqNum = 0) ∧ d.numRxMissedFrames = 0
  | first :: rest => d.uuid = uuid
    ∧ d.lastRxSeqNum.toNat = Gaps.largest first.toNat (rest.map UInt64.toNat)

def Counts (d : NeighborData F) (received : List UInt64) : Prop :=
  d.numRxMissedFrames.toNat = (missedFrames received).card

theorem updateRxSeqNum_cases (d : NeighborData F) (seqNum : UInt64) (uuid : UUID)
    : (d.updateRxSeqNum seqNum uuid).uuid = uuid
        ∧ ((uuid ≠ d.uuid
          ∧ (d.updateRxSeqNum seqNum uuid).lastRxSeqNum = seqNum
          ∧ (d.updateRxSeqNum seqNum uuid).numRxMissedFrames = d.numRxMissedFrames)
        ∨ ((uuid = d.uuid ∧ d.lastRxSeqNum < seqNum)
          ∧ (d.updateRxSeqNum seqNum uuid).lastRxSeqNum = seqNum
          ∧ (d.updateRxSeqNum seqNum uuid).numRxMissedFrames = d.numRxMissedFrames
            + (seqNum - d.lastRxSeqNum - 1))
        ∨ ((uuid = d.uuid ∧ seqNum ≤ d.lastRxSeqNum)
          ∧ (d.updateRxSeqNum seqNum uuid).lastRxSeqNum = d.lastRxSeqNum
          ∧ (d.updateRxSeqNum seqNum uuid).numRxMissedFrames
          = if d.numRxMissedFrames = 0 then 0 else d.numRxMissedFrames - 1)) := by
  unfold updateRxSeqNum
  split
  . next heq =>
    split
    . next hgt => exact ⟨heq.symm, Or.inr (Or.inl ⟨⟨heq, hgt⟩, rfl, rfl⟩)⟩
    . next hle =>
      have hle : seqNum ≤ d.lastRxSeqNum := UInt64.not_lt.mp hle
      split
      . next hne => exact ⟨heq.symm, Or.inr (Or.inr ⟨⟨heq, hle⟩, rfl, rfl⟩)⟩
      . next hzero =>
        have hzero := not_not.mp hzero
        exact ⟨heq.symm, Or.inr (Or.inr ⟨⟨heq, hle⟩, rfl, hzero.trans (if_pos hzero).symm⟩)⟩
  . next hne => exact ⟨rfl, Or.inl ⟨hne, rfl, rfl⟩⟩

theorem largest_append (first seqNum : UInt64) (rest : List UInt64)
    : Gaps.largest first.toNat ((rest ++ [seqNum]).map UInt64.toNat)
        =
      max (Gaps.largest first.toNat (rest.map UInt64.toNat)) seqNum.toNat := by
  rw [List.map_append, List.map_singleton, Gaps.largest_append]

variable {d : NeighborData F} {uuid : UUID} {received : List UInt64}

theorem Tracks.updateRxSeqNum (h : d.Tracks uuid received)
    (seqNum : UInt64)
    : (d.updateRxSeqNum seqNum uuid).Tracks uuid (received ++ [seqNum]) := by
  obtain ⟨huuid, hcases⟩ := d.updateRxSeqNum_cases seqNum uuid
  cases received with
  | nil =>
    obtain ⟨⟨-, hlast⟩, -⟩ := h
    refine ⟨huuid, congrArg UInt64.toNat ?_⟩
    obtain ⟨-, hnew, -⟩ | ⟨-, hnew, -⟩ | ⟨⟨-, hle⟩, hold, -⟩ := hcases
    . exact hnew
    . exact hnew
    . rw [hlast] at hle
      rw [hold, hlast, UInt64.le_zero_iff.mp hle]
  | cons first rest =>
    obtain ⟨hsame, hlast⟩ := h
    refine ⟨huuid, Eq.trans ?_ (largest_append first seqNum rest).symm⟩
    rw [← hlast]
    obtain ⟨hne, -, -⟩ | ⟨⟨-, hgt⟩, hnew, -⟩ | ⟨⟨-, hle⟩, hold, -⟩ := hcases
    . exact absurd hsame.symm hne
    . rw [hnew, max_eq_right (UInt64.lt_iff_toNat_lt.mp hgt).le]
    . rw [hold, max_eq_left (UInt64.le_iff_toNat_le.mp hle)]

theorem toNat_skipped {last seqNum : UInt64} (h : last < seqNum)
    : (seqNum - last - 1).toNat = seqNum.toNat - last.toNat - 1 := by
  have hlt : last.toNat < seqNum.toNat := UInt64.lt_iff_toNat_lt.mp h
  have hsub : (seqNum - last).toNat = seqNum.toNat - last.toNat := UInt64.toNat_sub_of_le _ _
    (UInt64.le_of_lt h)
  have hone : (1 : UInt64) ≤ seqNum - last := by
    rw [UInt64.le_iff_toNat_le, hsub]
    exact Nat.sub_pos_of_lt hlt
  rw [UInt64.toNat_sub_of_le _ _ hone, hsub]
  rfl

theorem toNat_decrement (missed : UInt64)
    : (if missed = 0 then 0 else missed - 1).toNat = missed.toNat - 1 := by
  split
  . next hzero =>
    rw [hzero]
    rfl
  . next hne =>
    have hpos : missed.toNat ≠ 0 := fun hzero => hne (UInt64.toNat_inj.mp hzero)
    have hone : (1 : UInt64) ≤ missed := UInt64.le_iff_toNat_le.mpr (Nat.pos_of_ne_zero hpos)
    rw [UInt64.toNat_sub_of_le _ _ hone]
    rfl

theorem counts_first_iff (h : d.Tracks uuid []) (seqNum : UInt64)
    : (d.updateRxSeqNum seqNum uuid).Counts [seqNum] ↔ Expected uuid [] seqNum := by
  obtain ⟨⟨huuid, hlast⟩, hmissed⟩ := h
  have hnone : (missedFrames [seqNum]).card = 0 := by
    rw [Finset.card_eq_zero]
    exact Gaps.missing_nil seqNum.toNat
  unfold Counts
  rw [hnone, expected_nil]
  obtain ⟨-, ⟨hne, -, hsame⟩ | ⟨⟨heq, hgt⟩, -, hmore⟩ | ⟨⟨heq, hle⟩, -, hless⟩⟩ :=
    d.updateRxSeqNum_cases seqNum uuid
  . rw [hsame, hmissed, ← huuid]
    exact ⟨fun _ => Or.inl hne, fun _ => rfl⟩
  . rw [hlast] at hgt
    rw [hmore, hmissed, hlast, heq, huuid, UInt64.zero_add, toNat_skipped hgt, UInt64.le_iff_toNat_le]
    simp only [ne_eq, not_true_eq_false, false_or]
    exact Nat.sub_eq_zero_iff_le
  . rw [hlast] at hle
    rw [hless, if_pos hmissed, UInt64.le_zero_iff.mp hle]
    exact ⟨fun _ => Or.inr (by decide), fun _ => rfl⟩

theorem counts_updateRxSeqNum_iff (h : d.Tracks uuid received)
    (hcounts : d.Counts received) {seqNum : UInt64} (hnew : seqNum ∉ received)
    : (d.updateRxSeqNum seqNum uuid).Counts (received ++ [seqNum]) ↔ Expected uuid received seqNum := by
  cases received with
  | nil => exact counts_first_iff h seqNum
  | cons first rest =>
    obtain ⟨hsame, hlast⟩ := h
    have hcounts : d.numRxMissedFrames.toNat
      = (Gaps.missing first.toNat (rest.map UInt64.toNat)).card := hcounts
    have happend : missedFrames (first :: rest ++ [seqNum])
        = Gaps.missing first.toNat (rest.map UInt64.toNat ++ [seqNum.toNat]) := by
      change Gaps.missing first.toNat ((rest ++ [seqNum]).map UInt64.toNat) = _
      rw [List.map_append, List.map_singleton]
    have hfirst : first.toNat ≤ Gaps.largest first.toNat (rest.map UInt64.toNat) :=
      Gaps.le_largest List.mem_cons_self
    unfold Counts
    rw [happend, expected_cons]
    obtain ⟨-, ⟨hne, -⟩ | ⟨⟨-, hgt'⟩, -, hmore⟩ | ⟨⟨-, hle⟩, -, hless⟩⟩ :=
      d.updateRxSeqNum_cases seqNum uuid
    . exact absurd hsame.symm hne
    . have hgt : Gaps.largest first.toNat (rest.map UInt64.toNat) < seqNum.toNat :=
        hlast ▸ UInt64.lt_iff_toNat_lt.mp hgt'
      have hbound := Gaps.card_missing_le first.toNat (rest.map UInt64.toNat)
      have hskipped := toNat_skipped hgt'
      rw [hlast] at hskipped
      have hfits := seqNum.toNat_lt
      rw [hmore, Gaps.card_missing_append_of_gt hgt, ← hcounts, UInt64.toNat_add, hskipped,
        Nat.mod_eq_of_lt (by omega)]
      exact ⟨fun _ => Or.inl (UInt64.le_iff_toNat_le.mpr (by omega)), fun _ => rfl⟩
    . have hle : seqNum.toNat ≤ Gaps.largest first.toNat (rest.map UInt64.toNat) :=
        hlast ▸ UInt64.le_iff_toNat_le.mp hle
      rw [hless, toNat_decrement, hcounts]
      by_cases hlt : seqNum < first
      . -- it has never been missing
        have hlt' : seqNum.toNat < first.toNat := UInt64.lt_iff_toNat_lt.mp hlt
        rw [Gaps.missing_append_of_lt hlt', or_iff_right (UInt64.not_le.mpr hlt)]
        change _ ↔ Gaps.missing first.toNat (rest.map UInt64.toNat) = ∅
        rw [← Finset.card_eq_zero]
        omega
      . have hge : first ≤ seqNum := UInt64.not_lt.mp hlt
        have hnew' : seqNum.toNat ∉ first.toNat :: rest.map UInt64.toNat := by
          rw [← List.map_cons]
          intro hmem
          obtain ⟨other, hother, heq⟩ := List.mem_map.mp hmem
          exact hnew (UInt64.toNat_inj.mp heq ▸ hother)
        have hgt : first.toNat < seqNum.toNat := by
          have hle := UInt64.le_iff_toNat_le.mp hge
          have hne : first.toNat ≠ seqNum.toNat := fun heq => hnew' (heq ▸ List.mem_cons_self)
          omega
        rw [Gaps.card_missing_append_of_between hgt hle hnew']
        exact ⟨fun _ => Or.inl hge, fun _ => rfl⟩

def rxState (d : NeighborData F) : UUID × UInt64 × UInt64 :=
  (d.uuid, d.lastRxSeqNum, d.numRxMissedFrames)

theorem Tracks.of_rxState {d' : NeighborData F} (heq : d'.rxState = d.rxState)
    (h : d.Tracks uuid received)
    : d'.Tracks uuid received := by
  obtain ⟨huuid, hrest⟩ := Prod.mk.inj heq
  obtain ⟨hlast, hmissed⟩ := Prod.mk.inj hrest
  unfold Tracks at h ⊢
  rw [huuid, hlast, hmissed]
  exact h

theorem counts_of_rxState {d' : NeighborData F} (heq : d'.rxState = d.rxState) (received : List UInt64)
    : d'.Counts received ↔ d.Counts received := by
  obtain ⟨-, hrest⟩ := Prod.mk.inj heq
  unfold Counts
  rw [(Prod.mk.inj hrest).2]

end NeighborData

namespace NeighborMetricManager

variable {F : Type u}

def Call.frameFrom (src : NEMId) : Call F → Option (UInt64 × UUID)
  | .updateNeighborRxMetric src' seqNum uuid _ _ => if src' = src then some (seqNum, uuid) else none
  | _ => none

def received (src : NEMId) (calls : List (Call F)) : List UInt64 :=
  calls.filterMap (fun c => (c.frameFrom src).map Prod.fst)

theorem received_append (src : NEMId) (calls : List (Call F)) (c : Call F)
    : received src (calls ++ [c]) = received src calls ++ ((c.frameFrom src).map Prod.fst).toList := by
  unfold received
  cases hframe : c.frameFrom src with
  | none => simp [hframe]
  | some frame => simp [hframe]

def Call.neighbor? : Call F → Option NEMId
  | .updateNeighborTxMetric dst _ _ => some dst
  | .updateNeighborRxMetric src _ _ _ _ => some src
  | _ => none

def Call.isReported : Call F → Bool
  | .updateNeighborTxMetric dst _ _ => dst ≠ NEM_BROADCAST_MAC_ADDRESS
  | _ => true

variable {c : Call F} {src : NEMId}

theorem frameFrom_eq_none (h : ¬ (c.neighbor? = some src ∧ c.isReported = true))
    : c.frameFrom src = none := by
  cases c with
  | updateNeighborRxMetric src' seqNum uuid rxTime channel =>
    apply if_neg
    rintro rfl
    exact h ⟨rfl, rfl⟩
  | _ => rfl

def entries (m : NeighborMetricManager F) (src : NEMId) : List (NeighborData F) :=
  (m.r2riMetricTable.find? src).toList
    ++ (m.neighborDataTable.find? src).elim [] (fun data => [data.1, data.2])

variable {m : NeighborMetricManager F}

theorem mem_entries {d : NeighborData F}
    : d ∈ m.entries src
        ↔
      m.r2riMetricTable.find? src = some d ∨ ∃ data, m.neighborDataTable.find? src = some data
          ∧ (d = data.1 ∨ d = data.2) := by
  unfold entries
  cases m.neighborDataTable.find? src with
  | none => simp
  | some data => simp

def Present (m : NeighborMetricManager F) (src : NEMId) : Prop :=
  (m.r2riMetricTable.find? src).isSome = true ∧ (m.neighborDataTable.find? src).isSome = true

variable [FloatingPoint F]

def Call.update : Call F → NeighborData F → NeighborData F
  | .updateNeighborTxMetric _ dataRatebps txTime, d => d.updateTxActivityData dataRatebps txTime
  | .updateNeighborRxMetric _ seqNum uuid rxTime channel, d => receive seqNum uuid rxTime channel d
  | _, d => d

theorem find?_r2riMetricTable_call (m : NeighborMetricManager F) (hc : c.isReport = false) (src : NEMId)
    : (m.call c).r2riMetricTable.find? src
        =
      if c.neighbor? = some src ∧ c.isReported = true then
        some (c.update ((m.r2riMetricTable.find? src).getD (.new src)))
      else
        m.r2riMetricTable.find? src := by
  cases c with
  | updateNeighborTxMetric dst dataRatebps txTime =>
    change (m.updateNeighborTxMetric dst dataRatebps txTime).r2riMetricTable.find? src = _
    unfold updateNeighborTxMetric
    by_cases hbroadcast : dst = NEM_BROADCAST_MAC_ADDRESS
    . simp only [hbroadcast, ne_eq, not_true_eq_false, ↓reduceIte, Call.isReported, decide_false,
        Bool.false_eq_true, and_false]
      rfl
    . have hset : ((m.handleR2RITxActivity dst dataRatebps txTime).handleNeighborTxActivity
        dst dataRatebps
          txTime).r2riMetricTable.find? src = _ := SortedMap.find?_set _ _ _ _
      rw [if_pos hbroadcast, hset]
      simp only [Call.neighbor?, Call.isReported, hbroadcast, Option.some.injEq, eq_comm, ne_eq,
        not_false_eq_true, decide_true,
        and_true]
      split
      . next hsrc =>
        subst hsrc
        rfl
      . rfl
  | updateNeighborRxMetric src' seqNum uuid rxTime channel =>
    have hset : (m.call
        (.updateNeighborRxMetric src' seqNum uuid rxTime channel)).r2riMetricTable.find? src = _ :=
      SortedMap.find?_set _ _ _ _
    rw [hset]
    simp only [Call.neighbor?, Call.isReported, Option.some.injEq, eq_comm, and_true]
    split
    . next hsrc =>
      subst hsrc
      rfl
    . rfl
  | setNeighborDeleteTimeMicroseconds ageMicroseconds => rfl
  | updateNeighborStatus currentTime => cases hc
  | getNeighborMetrics statusTime currentTime => cases hc

theorem find?_neighborDataTable_call (m : NeighborMetricManager F) (hc : c.isReport = false) (src : NEMId)
    : (m.call c).neighborDataTable.find? src
        =
      if c.neighbor? = some src then
        let data := (m.neighborDataTable.find? src).getD (.new src, .new src)
        some (c.update data.1, c.update data.2)
      else
        m.neighborDataTable.find? src := by
  cases c with
  | updateNeighborTxMetric dst dataRatebps txTime =>
    have hset : (m.call (.updateNeighborTxMetric dst dataRatebps txTime)).neighborDataTable
        = (m.handleNeighborTxActivity dst dataRatebps txTime).neighborDataTable := by
      change (m.updateNeighborTxMetric dst dataRatebps txTime).neighborDataTable = _
      unfold updateNeighborTxMetric
      split
      . rfl
      . rfl
    have hfind : (m.handleNeighborTxActivity dst dataRatebps txTime).neighborDataTable.find? src = _ :=
      SortedMap.find?_set _ _ _ _
    rw [hset, hfind]
    simp only [Call.neighbor?, Option.some.injEq, eq_comm]
    split
    . next hsrc =>
      subst hsrc
      rfl
    . rfl
  | updateNeighborRxMetric src' seqNum uuid rxTime channel =>
    have hset : (m.call
        (.updateNeighborRxMetric src' seqNum uuid rxTime channel)).neighborDataTable.find? src
        = _ :=
      SortedMap.find?_set _ _ _ _
    rw [hset]
    simp only [Call.neighbor?, Option.some.injEq, eq_comm]
    split
    . next hsrc =>
      subst hsrc
      rfl
    . rfl
  | setNeighborDeleteTimeMicroseconds ageMicroseconds => rfl
  | updateNeighborStatus currentTime => cases hc
  | getNeighborMetrics statusTime currentTime => cases hc

def Call.onEntry (c : Call F) (src : NEMId) (d : NeighborData F) : NeighborData F :=
  match c.frameFrom src with
  | none => d
  | some frame => d.updateRxSeqNum frame.1 frame.2

theorem rxState_update (h : c.neighbor? = some src) (d : NeighborData F)
    : (c.update d).rxState = (c.onEntry src d).rxState := by
  cases c with
  | updateNeighborTxMetric dst dataRatebps txTime => rfl
  | updateNeighborRxMetric src' seqNum uuid rxTime channel =>
    obtain rfl := Option.some.inj h
    have hframe : (Call.updateNeighborRxMetric src' seqNum uuid rxTime channel).frameFrom src'
      = some (seqNum, uuid) := if_pos rfl
    unfold Call.onEntry
    rw [hframe]
    cases channel with
    | none => rfl
    | some channel => rfl
  | setNeighborDeleteTimeMicroseconds ageMicroseconds => rfl
  | updateNeighborStatus currentTime => rfl
  | getNeighborMetrics statusTime currentTime => rfl

theorem mem_entries_call (hc : c.isReport = false) {d' : NeighborData F}
    (h : d' ∈ (m.call c).entries src)
    : ∃ d, (d ∈ m.entries src ∨ d = .new src ∧ ¬ m.Present src)
        ∧ d'.rxState = (c.onEntry src d).rxState := by
  rw [mem_entries, find?_r2riMetricTable_call m hc, find?_neighborDataTable_call m hc] at h
  obtain hr2ri | ⟨data, hdata, hd⟩ := h
  . split at hr2ri
    . next hnbr =>
      cases hr2ri
      refine ⟨_, ?_, rxState_update hnbr.1 _⟩
      cases hfind : m.r2riMetricTable.find? src with
      | none => exact Or.inr ⟨rfl, fun hpresent => by simp [Present, hfind] at hpresent⟩
      | some d => exact Or.inl (mem_entries.mpr (Or.inl hfind))
    . next hnot =>
      refine ⟨d', Or.inl (mem_entries.mpr (Or.inl hr2ri)), ?_⟩
      unfold Call.onEntry
      rw [frameFrom_eq_none hnot]
  . split at hdata
    . next hnbr =>
      cases hdata
      cases hfind : m.neighborDataTable.find? src with
      | none =>
        rw [hfind] at hd
        refine ⟨.new src, Or.inr ⟨rfl, fun hpresent => by simp [Present, hfind] at hpresent⟩, ?_⟩
        obtain rfl | rfl := hd
        . exact rxState_update hnbr _
        . exact rxState_update hnbr _
      | some data =>
        rw [hfind] at hd
        obtain rfl | rfl := hd
        . exact ⟨data.1, Or.inl (mem_entries.mpr (Or.inr ⟨data, hfind, Or.inl rfl⟩)),
            rxState_update hnbr _⟩
        . exact ⟨data.2, Or.inl (mem_entries.mpr (Or.inr ⟨data, hfind, Or.inr rfl⟩)),
            rxState_update hnbr _⟩
    . next hnot =>
      refine ⟨d', Or.inl (mem_entries.mpr (Or.inr ⟨data, hdata, hd⟩)), ?_⟩
      unfold Call.onEntry
      rw [frameFrom_eq_none (fun hnbr => hnot hnbr.1)]

structure Follows (m : NeighborMetricManager F) (src : NEMId) (uuid : UUID) (frames : List UInt64)
    : Prop where
  present : frames ≠ [] → m.Present src
  tracks : ∀ d ∈ m.entries src, d.Tracks uuid frames

structure Accounts (m : NeighborMetricManager F) (src : NEMId) (frames : List UInt64) : Prop where
  present : frames ≠ [] → m.Present src
  counts : ∀ d ∈ m.entries src, d.numRxMissedFrames.toNat = (missedFrames frames).card

variable {uuid : UUID} {frames : List UInt64}

theorem Follows.of_entry
    (h : m.Follows src uuid frames) {d : NeighborData F}
    (hd : d ∈ m.entries src ∨ d = .new src ∧ ¬ m.Present src)
    : d.Tracks uuid frames ∧ (m.Accounts src frames → d.Counts frames) := by
  obtain hmem | ⟨rfl, habsent⟩ := hd
  . exact ⟨h.tracks d hmem, fun haccounts => haccounts.counts d hmem⟩
  . obtain rfl : frames = [] := by
      by_contra hne
      exact habsent (h.present hne)
    exact ⟨⟨⟨rfl, rfl⟩, rfl⟩, fun _ => rfl⟩

theorem present_call (hc : c.isReport = false)
    (h : m.Present src ∨ (c.frameFrom src).isSome = true)
    : (m.call c).Present src := by
  unfold Present
  rw [find?_r2riMetricTable_call m hc, find?_neighborDataTable_call m hc]
  obtain ⟨hr2ri, hdata⟩ | hframe := h
  . constructor
    . split
      . rfl
      . exact hr2ri
    . split
      . rfl
      . exact hdata
  . have hnbr : c.neighbor? = some src ∧ c.isReported = true := by
      by_contra hnot
      rw [frameFrom_eq_none hnot] at hframe
      cases hframe
    rw [if_pos hnbr, if_pos hnbr.1]
    exact ⟨rfl, rfl⟩

theorem Follows.call
    (h : m.Follows src uuid frames) (hc : c.isReport = false)
    (huuid : ∀ frame ∈ c.frameFrom src, frame.2 = uuid)
    : (m.call c).Follows src uuid (frames ++ ((c.frameFrom src).map Prod.fst).toList) := by
  constructor
  . intro hne
    apply present_call hc
    cases hframe : c.frameFrom src with
    | none => exact Or.inl (h.present (by simpa [hframe] using hne))
    | some frame => exact Or.inr rfl
  . intro d' hd'
    obtain ⟨d, hd, hstate⟩ := mem_entries_call hc hd'
    have htracks := (h.of_entry hd).1
    apply NeighborData.Tracks.of_rxState hstate
    unfold Call.onEntry
    cases hframe : c.frameFrom src with
    | none => simpa using htracks
    | some frame =>
      obtain rfl := huuid frame hframe
      exact htracks.updateRxSeqNum frame.1

theorem accounts_call_iff
    (h : m.Follows src uuid frames) (haccounts : m.Accounts src frames) (hc : c.isReport = false)
    (huuid : ∀ frame ∈ c.frameFrom src, frame.2 = uuid)
    (hnew : ∀ frame ∈ c.frameFrom src, frame.1 ∉ frames)
    : (m.call c).Accounts src (frames ++ ((c.frameFrom src).map Prod.fst).toList)
        ↔
      ∀ seqNum, (c.frameFrom src).map Prod.fst = some seqNum → Expected uuid frames seqNum := by
  have hcall := h.call hc huuid
  cases hframe : c.frameFrom src with
  | none =>
    rw [hframe] at hcall
    refine ⟨fun _ _ hnone => (by cases hnone), fun _ => ⟨hcall.present, ?_⟩⟩
    intro d' hd'
    obtain ⟨d, hd, hstate⟩ := mem_entries_call hc hd'
    have hsame : d'.rxState = d.rxState := by
      unfold Call.onEntry at hstate
      rw [hframe] at hstate
      exact hstate
    have hsame' : frames ++ (Option.map Prod.fst (none : Option (UInt64 × UUID))).toList = frames :=
      List.append_nil frames
    rw [hsame']
    exact (NeighborData.counts_of_rxState hsame frames).mpr ((h.of_entry hd).2 haccounts)
  | some frame =>
    obtain ⟨seqNum, uuid'⟩ := frame
    obtain rfl := huuid _ hframe
    rw [hframe] at hcall
    have hentry : ∀ d' ∈ (m.call c).entries src, d'.Counts (frames ++ [seqNum])
        ↔ Expected uuid' frames seqNum := by
      intro d' hd'
      obtain ⟨d, hd, hstate⟩ := mem_entries_call hc hd'
      have hupdate : d'.rxState = (d.updateRxSeqNum seqNum uuid').rxState := by
        unfold Call.onEntry at hstate
        rw [hframe] at hstate
        exact hstate
      obtain ⟨htracks, hcounts⟩ := h.of_entry hd
      rw [NeighborData.counts_of_rxState hupdate]
      exact NeighborData.counts_updateRxSeqNum_iff htracks (hcounts haccounts) (hnew _ hframe)
    constructor
    . rintro haccounts' _ ⟨⟩
      obtain ⟨d, hd⟩ := Option.isSome_iff_exists.mp (haccounts'.present (by simp)).1
      have hmem := mem_entries.mpr (Or.inl hd)
      exact (hentry d hmem).mp (haccounts'.counts d hmem)
    . intro hexpected
      exact ⟨hcall.present, fun d hd => (hentry d hd).mpr (hexpected seqNum rfl)⟩

theorem follows_foldl (age : Microseconds) {calls : List (Call F)}
    (hactivity : ∀ c ∈ calls, c.isReport = false)
    (huuid : ∀ c ∈ calls, ∀ frame ∈ c.frameFrom src, frame.2 = uuid)
    : (calls.foldl call (new age)).Follows src uuid (received src calls) := by
  induction calls using List.reverseRecOn with
  | nil => exact ⟨fun hne => absurd rfl hne, fun d hd => by cases hd⟩
  | append_singleton calls c ih =>
    rw [List.foldl_append, received_append]
    have hcalls : ∀ b ∈ calls, b ∈ calls ++ [c] := fun b hb => List.mem_append_left [c] hb
    have hlast : c ∈ calls ++ [c] := List.mem_append_right calls List.mem_cons_self
    have hfollows := ih (fun b hb => hactivity b (hcalls b hb)) (fun b hb => huuid b (hcalls b hb))
    exact hfollows.call (hactivity c hlast) (huuid c hlast)

theorem missedFrames_iff (age : Microseconds) {src : NEMId} {uuid : UUID} {calls : List (Call F)}
    (hactivity : ∀ c ∈ calls, c.isReport = false)
    (huuid : ∀ c ∈ calls, ∀ frame ∈ c.frameFrom src, frame.2 = uuid)
    (hdistinct : (received src calls).Nodup)
    : (∀ fed later, calls = fed ++ later → (fed.foldl call (new age)).Accounts src (received src fed))
        ↔
      Guarded (fun frames seqNum => some (frames ++ [seqNum])) (Expected uuid) []
          (received src calls) := by
  rw [guarded_fed_iff]
  unfold received
  rw [forall_fed_filterMap_iff]
  apply @forall_fed_iff _ (fun fed => (fed.foldl call (new age)).Accounts src (received src fed))
  . exact ⟨fun hne => absurd rfl hne, fun d hd => by cases hd⟩
  . rintro fed c later rfl haccounts
    have hfed : ∀ b ∈ fed, b ∈ fed ++ c :: later := fun b hb => List.mem_append_left _ hb
    have hmem : c ∈ fed ++ c :: later := List.mem_append_right fed List.mem_cons_self
    have hfollows := follows_foldl age (fun b hb => hactivity b (hfed b hb))
      (fun b hb => huuid b (hfed b hb))
    rw [List.foldl_append, received_append]
    apply accounts_call_iff hfollows haccounts (hactivity c hmem) (huuid c hmem)
    intro frame hframe hold
    unfold received at hdistinct hold
    rw [List.filterMap_append, List.filterMap_cons_some (b := frame.1) (by rw [hframe]; rfl)] at hdistinct
    exact (List.nodup_append.mp hdistinct).2.2 frame.1 hold frame.1 List.mem_cons_self rfl

open scoped FloatingPoint

theorem missedFrames_iff_example
    : let calls : List (Call Int) := [
        .updateNeighborRxMetric 2 5 (.ofByte 7) 0 none,
        .updateNeighborTxMetric 2 1000 0,
        .updateNeighborRxMetric 3 1 (.ofByte 8) 0 none,
        .updateNeighborRxMetric 2 8 (.ofByte 7) 1 (some ⟨3, 1, 10, 1000⟩),
        .updateNeighborRxMetric 2 6 (.ofByte 7) 2 none]
      (calls.foldl call (new 0)).Accounts 2 (received 2 calls) := by
  exact (missedFrames_iff 0 (by decide)
    (by decide : ∀ c ∈ _, ∀ frame ∈ Call.frameFrom 2 c, frame.2 = UUID.ofByte 7)
    (by decide)).mpr (by decide) _ [] (List.append_nil _).symm

theorem not_missedFrames
    : ¬ ∀ (age : Microseconds) (src : NEMId) (uuid : UUID) (calls : List (Call Int)),
        (∀ c ∈ calls, c.isReport = false) → (∀ c ∈ calls, ∀ frame ∈ c.frameFrom src, frame.2 = uuid) →
          (received src calls).Nodup
              → (calls.foldl call (new age)).Accounts src (received src calls) := by
  intro hall
  have haccounts := hall 0 2 (.ofByte 7) [
    .updateNeighborRxMetric 2 5 (.ofByte 7) 0 none,
    .updateNeighborRxMetric 2 7 (.ofByte 7) 0 none,
    .updateNeighborRxMetric 2 3 (.ofByte 7) 0 none] (by decide) (by decide) (by decide)
  exact absurd haccounts.counts (by decide)

end NeighborMetricManager
end Neighbor
end Emane

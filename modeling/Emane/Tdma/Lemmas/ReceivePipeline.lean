import Emane.Tdma.Lemmas.ReceiveManager

/-!
This module contains what becomes of the messages that are given to the receive manager.
-/

namespace Emane
namespace Tdma

namespace ReceiveManager

section

variable (m : ReceiveManager) (now : Nat) (info : PacketInfo) (metaInfo : PacketMetaInfo)

def Reported (source : NEMId) (c : MessageComponent) (outputs : List Output) : Prop :=
  ∃ action, inbound source c action ∈ outputs

variable {c : MessageComponent}

theorem reported_receive (h : c.isFragment = false)
    : Reported info.source c (m.receive now info metaInfo c).2 := by
  unfold receive
  split
  . rw [if_neg (by simp [h])]
    exact ⟨.ACCEPT_GOOD, List.mem_cons_self⟩
  . exact ⟨.DROP_DESTINATION_MAC, List.mem_cons_self⟩

theorem reported_receiveAll {cs : MessageComponents} (hc : c ∈ cs) (h : c.isFragment = false)
    : Reported info.source c (m.receiveAll now info metaInfo cs).2 := by
  induction cs generalizing m with
  | nil => cases hc
  | cons c' cs ih =>
    rcases List.mem_cons.mp hc with rfl | hrest
    . obtain ⟨action, haction⟩ := m.reported_receive now info metaInfo h
      exact ⟨action, List.mem_append_left _ haction⟩
    . obtain ⟨action, haction⟩ := ih (m.receive now info metaInfo c').1 hrest
      exact ⟨action, List.mem_append_right _ haction⟩

theorem checkFragments_eq
    : (m.checkFragments now).1 = { m with fragmentStore := (m.checkFragments now).1.fragmentStore } := by
  unfold checkFragments
  split
  . rfl
  . rfl

theorem process_eq (absoluteSlotIndex : Nat) (reception : Reception)
    : (m.process absoluteSlotIndex now reception).1
      =
      { m with
        pendingAbsoluteSlotIndex := if m.pendingAbsoluteSlotIndex + 1 = absoluteSlotIndex then 0
          else m.pendingAbsoluteSlotIndex
        fragmentStore := (m.process absoluteSlotIndex now reception).1.fragmentStore } := by
  unfold process
  split
  . next hslot =>
    cases reception with
    | spectrumServiceError => rfl
    | lost => rfl
    | received =>
      rw [checkFragments_eq, receiveAll_eq]
  . rw [checkFragments_eq]

theorem reported_process {absoluteSlotIndex : Nat}
    (hslot : m.pendingAbsoluteSlotIndex + 1 = absoluteSlotIndex)
    (reception : Reception) (hc : c ∈ m.pendingInfo.message.messages) (h : c.isFragment = false)
    : Reported m.pendingInfo.info.source c (m.process absoluteSlotIndex now reception).2 := by
  unfold process
  rw [if_pos hslot]
  cases reception with
  | spectrumServiceError => exact ⟨.DROP_SPECTRUM_SERVICE, List.mem_map_of_mem hc⟩
  | lost => exact ⟨.DROP_SINR, List.mem_map_of_mem hc⟩
  | received =>
    obtain ⟨action, haction⟩ := reported_receiveAll { m with pendingAbsoluteSlotIndex := 0 } now
      m.pendingInfo.info
      ⟨m.pendingInfo.info.source, absoluteSlotIndex - 1, m.pendingInfo.message.dataRate⟩ hc h
    exact ⟨action, List.mem_append_left _ haction⟩

end

section

variable {m : ReceiveManager} (info : PendingInfo) (now : Nat) (reception : Reception)

theorem enqueue_of_free (h : m.pendingAbsoluteSlotIndex = 0)
    : m.enqueue info now reception
      =
      (true, { m with pendingAbsoluteSlotIndex := info.message.absoluteSlotIndex, pendingInfo :=
          info }, []) := by
  unfold enqueue
  rw [if_pos h]

theorem enqueue_of_lt (hused : m.pendingAbsoluteSlotIndex ≠ 0)
    (h : m.pendingAbsoluteSlotIndex < info.message.absoluteSlotIndex)
    : m.enqueue info now reception
      =
      (
        true,
        { (m.process info.message.absoluteSlotIndex now reception).1 with
          pendingAbsoluteSlotIndex := info.message.absoluteSlotIndex
          pendingInfo := info },
        (m.process info.message.absoluteSlotIndex now reception).2
      ) := by
  unfold enqueue
  rw [if_neg hused, if_pos h]

theorem enqueue_of_gt (hused : m.pendingAbsoluteSlotIndex ≠ 0)
    (h : info.message.absoluteSlotIndex < m.pendingAbsoluteSlotIndex)
    : m.enqueue info now reception
      =
      (true, { m with pendingAbsoluteSlotIndex := info.message.absoluteSlotIndex, pendingInfo :=
          info }, []) := by
  unfold enqueue
  rw [if_neg hused, if_neg (by omega), if_pos h]

theorem enqueue_of_eq (hused : m.pendingAbsoluteSlotIndex ≠ 0)
    (h : m.pendingAbsoluteSlotIndex = info.message.absoluteSlotIndex)
    : m.enqueue info now reception
      =
      (false, if m.pendingInfo.startOfReception < info.startOfReception
          then { m with pendingInfo := info } else m, []) := by
  unfold enqueue
  rw [if_neg hused, if_neg (by omega), if_neg (by omega)]
  split
  . rfl
  . rfl

end
end ReceiveManager

namespace ReceivePipeline

open ReceiveManager

structure Tracks (s : ReceivePipeline) : Prop where
  empty : s.pending = none → s.manager.pendingAbsoluteSlotIndex = 0 ∧ s.timers = []
  info : ∀ c, s.pending = some c → s.manager.pendingInfo = c.info ∧ s.calls[c.number]? = some c.info
  slot : ∀ c, s.pending = some c
    → s.manager.pendingAbsoluteSlotIndex = if s.isProcessed c then 0 else c.slot
  processed : ∀ p ∈ s.processed, s.calls[p.call.number]? = some p.call.info
    ∧ ∀ c ∈ p.call.info.message.messages, c.isFragment = false
      → Reported p.call.info.info.source c p.outputs

def Good (s : ReceivePipeline) : Prop :=
  s.lost = [] ∧ (s.processed.map (fun p => p.call.number)).Nodup

def waiting (s : ReceivePipeline) : Option Call :=
  s.pending.filter (fun c => !s.isProcessed c)

def admissible (s : ReceivePipeline) : Event → Bool
  | .enqueue info _ _ =>
    s.waiting.all (fun c =>
      info.message.absoluteSlotIndex = c.slot
        || (c.slot ≠ 0 && info.message.absoluteSlotIndex = c.slot + 1))
  | .timer index _ _ => s.waiting.isSome || s.timers[index]? ≠ some 1

section

variable {s : ReceivePipeline}

variable {c : Call}

theorem waiting_eq_some (h : s.pending = some c) (hwaits : s.isProcessed c = false)
    : s.waiting = some c := by
  simp [waiting, h, Option.filter, hwaits]

theorem waiting_eq_none (h : s.pending = some c) (hdone : s.isProcessed c = true) : s.waiting = none := by
  simp [waiting, h, Option.filter, hdone]

theorem not_mem_of_isProcessed (h : s.isProcessed c = false)
    : c.number ∉ s.processed.map (fun p => p.call.number) := by
  intro hmem
  obtain ⟨p, hp, hnumber⟩ := List.mem_map.mp hmem
  have hany : s.isProcessed c = true := List.any_eq_true.mpr ⟨p, hp, by simpa using hnumber⟩
  rw [h] at hany
  cases hany

theorem mem_of_isProcessed (h : s.isProcessed c = true)
    : c.number ∈ s.processed.map (fun p => p.call.number) := by
  obtain ⟨p, hp, hnumber⟩ := List.any_eq_true.mp h
  exact List.mem_map.mpr ⟨p, hp, by simpa using hnumber⟩

theorem nodup_record_iff (h : s.pending = some c) (outputs : List Output)
    : ((s.record outputs).processed.map (fun p => p.call.number)).Nodup
      ↔
      (s.processed.map (fun p => p.call.number)).Nodup ∧ s.isProcessed c = false := by
  simp only [record, h, Option.toList_some, List.map_cons, List.map_nil, List.map_append]
  rw [List.nodup_append]
  constructor
  . rintro ⟨hnodup, -, hdisjoint⟩
    refine ⟨hnodup, ?_⟩
    by_contra hprocessed
    exact hdisjoint _ (mem_of_isProcessed (by simpa using hprocessed)) c.number
      (List.mem_singleton_self _) rfl
  . rintro ⟨hnodup, hprocessed⟩
    refine ⟨hnodup, List.nodup_singleton _, ?_⟩
    intro number hnumber number' hnumber' heq
    rw [List.mem_singleton.mp hnumber'] at heq
    subst heq
    exact not_mem_of_isProcessed hprocessed hnumber

theorem isProcessed_record (h : s.pending = some c) (outputs : List Output)
    : (s.record outputs).isProcessed c = true := by
  simp [isProcessed, record, h]

theorem isProcessed_new (h : s.Tracks) (info : PendingInfo)
    : s.isProcessed ⟨s.calls.length, info⟩ = false := by
  rw [isProcessed, List.any_eq_false]
  intro p hp
  have hlt := (List.getElem?_eq_some_iff.mp (h.processed p hp).1).1
  simp only [decide_eq_true_eq]
  omega

theorem processed_record (h : s.Tracks) {absoluteSlotIndex : Nat}
    (hslot : s.manager.pendingAbsoluteSlotIndex + 1 = absoluteSlotIndex) (now : Nat)
    (reception : Reception)
    : ∀ p ∈ (s.record (s.manager.process absoluteSlotIndex now reception).2).processed,
        s.calls[p.call.number]? = some p.call.info
        ∧ ∀ c ∈ p.call.info.message.messages, c.isFragment = false
            → Reported p.call.info.info.source c p.outputs := by
  intro p hp
  rcases List.mem_append.mp hp with hold | hnew
  . exact h.processed p hold
  . obtain ⟨c, hc, rfl⟩ := List.mem_map.mp hnew
    obtain ⟨hinfo, hcall⟩ := h.info c (Option.mem_toList.mp hc)
    refine ⟨hcall, ?_⟩
    rw [← hinfo]
    intro component hcomponent hfragment
    exact s.manager.reported_process now hslot reception hcomponent hfragment

theorem tracks_process (h : s.Tracks) (absoluteSlotIndex now : Nat) (reception : Reception)
    : (s.process absoluteSlotIndex now reception).Tracks := by
  unfold process
  simp only
  split
  . next hslot =>
    rw [process_eq, if_pos hslot]
    constructor
    . exact fun hnone => ⟨rfl, (h.empty hnone).2⟩
    . exact h.info
    . intro c hc
      have hpending : s.pending = some c := hc
      exact (if_pos (isProcessed_record hpending _)).symm
    . exact processed_record h hslot now reception
  . next hslot =>
    rw [process_eq, if_neg hslot]
    exact ⟨h.empty, h.info, h.slot, h.processed⟩

theorem good_process_iff (h : s.Tracks) (hpending : s.pending = some c) (absoluteSlotIndex now : Nat)
    (reception : Reception)
    : (s.process absoluteSlotIndex now reception).Good ↔ s.Good
        ∧ (s.waiting.isSome = true ∨ absoluteSlotIndex ≠ 1) := by
  have hslot := h.slot c hpending
  unfold process Good
  simp only
  cases hprocessed : s.isProcessed c with
  | true =>
    rw [waiting_eq_none hpending hprocessed]
    rw [hprocessed, if_pos rfl] at hslot
    rw [hslot]
    split
    . next hone =>
      rw [nodup_record_iff hpending]
      simp [hprocessed, ← hone]
    . next hone =>
      have hne : absoluteSlotIndex ≠ 1 := by omega
      simp [hne]
  | false =>
    rw [waiting_eq_some hpending hprocessed]
    split
    . rw [nodup_record_iff hpending]
      simp [hprocessed, record]
    . simp

variable {s' : ReceivePipeline} {info : PendingInfo}

theorem tracks_replace {manager : ReceiveManager}
    (hfresh : s'.isProcessed ⟨s.calls.length, info⟩ = false)
    (hprocessed : ∀ p ∈ s'.processed, s.calls[p.call.number]? = some p.call.info
      ∧ ∀ c ∈ p.call.info.message.messages, c.isFragment = false
        → Reported p.call.info.info.source c p.outputs)
    (hslot : manager.pendingAbsoluteSlotIndex = info.message.absoluteSlotIndex)
    (hinfo : manager.pendingInfo = info)
    (timers : List Nat)
    : Tracks { s'.replace ⟨s.calls.length, info⟩ with
        manager := manager
        calls := s.calls ++ [info]
        timers := timers } := by
  constructor
  . intro hnone
    cases hnone
  . intro c hc
    cases hc
    refine ⟨hinfo, ?_⟩
    simp
  . intro c hc
    cases hc
    rw [if_neg]
    . exact hslot
    . intro hdone
      have hdone' : s'.isProcessed ⟨s.calls.length, info⟩ = true := hdone
      rw [hfresh] at hdone'
      cases hdone'
  . intro p hp
    obtain ⟨hcall, hreported⟩ := hprocessed p hp
    refine ⟨?_, hreported⟩
    have hlt := (List.getElem?_eq_some_iff.mp hcall).1
    rw [List.getElem?_append_left hlt]
    exact hcall

theorem isProcessed_record_new (h : s.Tracks) (info : PendingInfo) (outputs : List Output)
    : (s.record outputs).isProcessed ⟨s.calls.length, info⟩ = false := by
  have hold := isProcessed_new h info
  rw [isProcessed] at hold
  simp only [isProcessed, record, List.any_append, hold, Bool.false_or]
  rw [List.any_eq_false]
  intro p hp
  obtain ⟨c, hc, rfl⟩ := List.mem_map.mp hp
  have hlt := (List.getElem?_eq_some_iff.mp (h.info c (Option.mem_toList.mp hc)).2).1
  simp only [decide_eq_true_eq]
  omega

theorem enqueue_eq_replace (htakes : s.manager.takes info = true)
    (hnot : ¬(s.manager.pendingAbsoluteSlotIndex ≠ 0
      ∧ s.manager.pendingAbsoluteSlotIndex + 1 = info.message.absoluteSlotIndex))
    (now : Nat) (reception : Reception)
    : ∃ (manager : ReceiveManager) (timers : List Nat),
        manager.pendingAbsoluteSlotIndex = info.message.absoluteSlotIndex ∧ manager.pendingInfo = info
        ∧ s.enqueue info now reception = { s.replace ⟨s.calls.length, info⟩ with
            manager := manager
            calls := s.calls ++ [info]
            timers := timers } := by
  have hmanager : (s.manager.enqueue info now reception).2.1.pendingAbsoluteSlotIndex
    = info.message.absoluteSlotIndex
      ∧ (s.manager.enqueue info now reception).2.1.pendingInfo = info := by
    by_cases hfree : s.manager.pendingAbsoluteSlotIndex = 0
    . rw [enqueue_of_free info now reception hfree]
      exact ⟨rfl, rfl⟩
    . rcases Nat.lt_trichotomy s.manager.pendingAbsoluteSlotIndex
        info.message.absoluteSlotIndex with hlt | heq | hgt
      . rw [enqueue_of_lt info now reception hfree hlt]
        exact ⟨rfl, rfl⟩
      . have hlater : s.manager.pendingInfo.startOfReception < info.startOfReception := by
          rw [heq] at hfree
          simpa [takes, hfree, heq] using htakes
        rw [enqueue_of_eq info now reception hfree heq, if_pos hlater]
        exact ⟨heq, rfl⟩
      . rw [enqueue_of_gt info now reception hfree hgt]
        exact ⟨rfl, rfl⟩
  refine ⟨_, (s.enqueue info now reception).timers, hmanager.1, hmanager.2, ?_⟩
  simp only [enqueue, if_neg hnot, if_pos htakes]

theorem enqueue_eq_record (hused : s.manager.pendingAbsoluteSlotIndex ≠ 0)
    (hnext : s.manager.pendingAbsoluteSlotIndex + 1 = info.message.absoluteSlotIndex) (now : Nat)
    (reception : Reception)
    : ∃ (manager : ReceiveManager) (timers : List Nat),
        manager.pendingAbsoluteSlotIndex = info.message.absoluteSlotIndex ∧ manager.pendingInfo = info
        ∧ s.enqueue info now reception = {
            (s.record (s.manager.process info.message.absoluteSlotIndex now reception).2).replace
                ⟨s.calls.length, info⟩ with
            manager := manager
            calls := s.calls ++ [info]
            timers := timers } := by
  have hlt : s.manager.pendingAbsoluteSlotIndex < info.message.absoluteSlotIndex := by omega
  have htakes : s.manager.takes info = true := by simp [takes, Nat.ne_of_lt hlt]
  have heq := enqueue_of_lt info now reception hused hlt
  have hboth : s.manager.pendingAbsoluteSlotIndex ≠ 0
      ∧ s.manager.pendingAbsoluteSlotIndex + 1 = info.message.absoluteSlotIndex := ⟨hused, hnext⟩
  refine ⟨(s.manager.enqueue info now reception).2.1, (s.enqueue info now reception).timers, ?_, ?_, ?_⟩
  . rw [heq]
  . rw [heq]
  . simp only [enqueue, if_pos hboth, if_pos htakes, heq]

theorem enqueue_eq_keep (htakes : s.manager.takes info = false) (now : Nat) (reception : Reception)
    : s.enqueue info now reception = { s with calls := s.calls ++ [info] } := by
  simp only [takes, ne_eq, decide_not, Bool.or_eq_false_iff, decide_eq_false_iff_not,
    Bool.not_eq_false', decide_eq_true_eq]
    at htakes
  obtain ⟨⟨hused, heq⟩, hlater⟩ := htakes
  have henqueue := enqueue_of_eq info now reception hused heq
  have hnot : ¬(s.manager.pendingAbsoluteSlotIndex ≠ 0
      ∧ s.manager.pendingAbsoluteSlotIndex + 1 = info.message.absoluteSlotIndex) := by
    omega
  have hkeeps : ¬s.manager.takes info = true := by
    rw [heq] at hused
    simp [takes, hused, heq, hlater]
  simp only [enqueue, henqueue, if_neg hnot, if_neg hkeeps, if_neg hlater]
  rfl

theorem tracks_enqueue (h : s.Tracks) (info : PendingInfo) (now : Nat) (reception : Reception)
    : (s.enqueue info now reception).Tracks := by
  have hfresh := isProcessed_new h info
  by_cases hnext : s.manager.pendingAbsoluteSlotIndex ≠ 0
      ∧ s.manager.pendingAbsoluteSlotIndex + 1 = info.message.absoluteSlotIndex
  . obtain ⟨manager, timers, hslot, hinfo, heq⟩ := enqueue_eq_record hnext.1 hnext.2 now reception
    rw [heq]
    exact tracks_replace (isProcessed_record_new h info _)
      (processed_record h hnext.2 now reception) hslot hinfo timers
  . cases htakes : s.manager.takes info with
    | true =>
      obtain ⟨manager, timers, hslot, hinfo, heq⟩ := enqueue_eq_replace htakes hnext now reception
      rw [heq]
      exact tracks_replace hfresh h.processed hslot hinfo timers
    | false =>
      have hextend : ∀ {number : Nat} {info' : PendingInfo}, s.calls[number]? = some info' →
          (s.calls ++ [info])[number]? = some info' := by
        intro number info' hcall
        rw [List.getElem?_append_left (List.getElem?_eq_some_iff.mp hcall).1]
        exact hcall
      rw [enqueue_eq_keep htakes]
      constructor
      . exact h.empty
      . intro c hc
        obtain ⟨hinfo, hcall⟩ := h.info c hc
        exact ⟨hinfo, hextend hcall⟩
      . exact h.slot
      . intro p hp
        obtain ⟨hcall, hreported⟩ := h.processed p hp
        exact ⟨hextend hcall, hreported⟩

theorem lost_replace (c : Call)
    : (s.replace c).lost = s.lost ++ s.waiting.toList.filter (fun old => old.slot ≠ c.slot) := by
  unfold replace waiting
  cases hpending : s.pending with
  | none => rfl
  | some old =>
    cases hprocessed : s.isProcessed old with
    | true => simp [Option.filter, hprocessed]
    | false => simp [Option.filter, hprocessed, List.filter_cons]

theorem good_enqueue_iff (h : s.Tracks) (info : PendingInfo) (now : Nat) (reception : Reception)
    : (s.enqueue info now reception).Good ↔ s.Good
        ∧ s.admissible (.enqueue info now reception) = true := by
  by_cases hnext : s.manager.pendingAbsoluteSlotIndex ≠ 0
      ∧ s.manager.pendingAbsoluteSlotIndex + 1 = info.message.absoluteSlotIndex
  . -- the pending message waits, and it is processed first
    obtain ⟨manager, timers, -, -, heq⟩ := enqueue_eq_record hnext.1 hnext.2 now reception
    obtain ⟨c, hpending⟩ : ∃ c, s.pending = some c := by
      cases hpending : s.pending with
      | none => exact absurd (h.empty hpending).1 hnext.1
      | some c => exact ⟨c, rfl⟩
    have hslot := h.slot c hpending
    have hwaits : s.isProcessed c = false := by
      by_contra hprocessed
      rw [if_pos (by simpa using hprocessed)] at hslot
      exact hnext.1 hslot
    rw [if_neg (by simp [hwaits])] at hslot
    have hadmissible : s.admissible (.enqueue info now reception) = true := by
      rw [hslot] at hnext
      simp [admissible, waiting_eq_some hpending hwaits, hnext.1, ← hnext.2]
    have hdone : (s.record
        (s.manager.process info.message.absoluteSlotIndex now reception).2).waiting = none :=
      waiting_eq_none hpending (isProcessed_record hpending _)
    rw [heq]
    unfold Good
    simp only [lost_replace, hdone]
    rw [replace, nodup_record_iff hpending]
    simp [hwaits, hadmissible, record]
  . cases hwaiting : s.waiting with
    | none =>
      have hgood : (s.enqueue info now reception).Good ↔ s.Good := by
        cases htakes : s.manager.takes info with
        | true =>
          obtain ⟨manager, timers, -, -, heq⟩ := enqueue_eq_replace htakes hnext now reception
          rw [heq]
          unfold Good
          simp only [lost_replace, hwaiting]
          simp [replace]
        | false =>
          rw [enqueue_eq_keep htakes]
          rfl
      rw [hgood]
      simp [admissible, hwaiting]
    | some c =>
      obtain ⟨hpending, hwaits⟩ : s.pending = some c ∧ s.isProcessed c = false := by
        simpa [waiting, Option.filter_eq_some_iff] using hwaiting
      have hslot := h.slot c hpending
      rw [if_neg (by simp [hwaits])] at hslot
      have hadmissible : s.admissible (.enqueue info now reception) = true
          ↔ info.message.absoluteSlotIndex = c.slot := by
        rw [hslot] at hnext
        simp only [admissible, hwaiting, Option.all_some, Bool.or_eq_true, Bool.and_eq_true,
          decide_eq_true_eq]
        constructor
        . rintro (hsame | ⟨hused, hbehind⟩)
          . exact hsame
          . exact absurd ⟨by simpa using hused, hbehind.symm⟩ hnext
        . exact fun hsame => Or.inl hsame
      rw [hadmissible]
      cases htakes : s.manager.takes info with
      | true =>
        obtain ⟨manager, timers, -, -, heq⟩ := enqueue_eq_replace htakes hnext now reception
        rw [heq]
        unfold Good
        simp only [lost_replace, hwaiting, Option.toList_some]
        by_cases hsame : c.slot = info.message.absoluteSlotIndex
        . simp [Call.slot, replace, ← hsame]
        . have hne : ¬info.message.absoluteSlotIndex = c.slot := fun heq => hsame heq.symm
          have hother : ¬c.slot = (⟨s.calls.length, info⟩ : Call).slot := hsame
          simp [hne, hother]
      | false =>
        have hsame : info.message.absoluteSlotIndex = c.slot := by
          simp only [takes, hslot] at htakes
          by_contra hne
          simp [Ne.symm hne] at htakes
        rw [enqueue_eq_keep htakes]
        simp [hsame, Good]

theorem tracks_step {e : Event} (h : s.Tracks) (hstep : s.step e = some s') : s'.Tracks := by
  cases e with
  | enqueue info now reception =>
    cases hstep
    apply tracks_enqueue h
  | timer index now reception =>
    simp only [step] at hstep
    split at hstep
    . cases hstep
      apply tracks_process
      refine ⟨?_, h.info, h.slot, h.processed⟩
      intro hnone
      obtain ⟨hslot, htimers⟩ := h.empty hnone
      refine ⟨hslot, ?_⟩
      simp [htimers]
    . cases hstep

theorem good_step_iff {e : Event} (h : s.Tracks) (hstep : s.step e = some s')
    : s'.Good ↔ s.Good ∧ s.admissible e = true := by
  cases e with
  | enqueue info now reception =>
    cases hstep
    apply good_enqueue_iff h
  | timer index now reception =>
    simp only [step] at hstep
    split at hstep
    . next absoluteSlotIndex hindex =>
      cases hstep
      obtain ⟨c, hpending⟩ : ∃ c, s.pending = some c := by
        cases hpending : s.pending with
        | none =>
          rw [(h.empty hpending).2] at hindex
          cases hindex
        | some c => exact ⟨c, rfl⟩
      have htracks : ({ s with timers := s.timers.eraseIdx index } : ReceivePipeline).Tracks := by
        refine ⟨?_, h.info, h.slot, h.processed⟩
        intro hnone
        rw [hpending] at hnone
        cases hnone
      rw [good_process_iff htracks hpending]
      simp only [admissible, hindex, Bool.or_eq_true, decide_eq_true_eq, ne_eq, Option.some.injEq]
      rfl
    . cases hstep

end

theorem run_loses_nothing_iff {id : NEMId} {promiscuousMode : Bool}
    {fragmentCheckThreshold fragmentTimeoutThreshold : Nat}
    {es : List Event} {s : ReceivePipeline}
    (hrun : run step
      (init (.init id promiscuousMode fragmentCheckThreshold fragmentTimeoutThreshold)) es = some s)
    : (∀ p ∈ s.processed, s.calls[p.call.number]? = some p.call.info
        ∧ ∀ c ∈ p.call.info.message.messages, c.isFragment = false
          → Reported p.call.info.info.source c p.outputs)
      ∧ (s.lost = [] ∧ (s.processed.map (fun p => p.call.number)).Nodup
        ↔
        Guarded step (fun s e => s.admissible e = true)
          (init (.init id promiscuousMode fragmentCheckThreshold fragmentTimeoutThreshold)) es) := by
  have hinit : (init
      (.init id promiscuousMode fragmentCheckThreshold fragmentTimeoutThreshold)).Tracks := by
    constructor
    . exact fun _ => ⟨rfl, rfl⟩
    . exact fun _ h => by cases h
    . exact fun _ h => by cases h
    . exact fun _ h => by cases h
  have htracks : s.Tracks := run_inv (fun _ _ _ h _ hstep => tracks_step h hstep) hinit
    (guarded_of_forall (fun _ _ => trivial)) hrun
  refine ⟨htracks.processed, ?_⟩
  have hgood : s.Good ↔ _ := run_good_iff (fun _ _ _ h hstep => tracks_step h hstep)
    (fun _ _ _ h hstep => good_step_iff h hstep) hinit hrun
  unfold Good at hgood
  rw [hgood]
  constructor
  . exact fun h => h.2
  . exact fun h => ⟨⟨rfl, List.nodup_nil⟩, h⟩

def messageAt (slot : Nat) : PendingInfo where
  message := ⟨slot, 1000, [⟨.data, 2, 0, [1], 0, 0, 0, false⟩]⟩
  info := ⟨1, 65535, 0, 0, 0⟩
  startOfReception := slot

def lateTimer : List Event :=
  [.enqueue (messageAt 5) 5 .received, .enqueue (messageAt 6) 6 .received, .timer 0 6 .received,
    .timer 0 7 .lost]

theorem run_loses_nothing_iff_lateTimer
    : ∃ s, run step (init (.init 2 false 10 10)) lateTimer = some s ∧ s.lost = []
        ∧ (s.processed.map (fun p => p.call.number)).Nodup := by
  have hdefined : (run step (init (.init 2 false 10 10)) lateTimer).isSome = true := by
    decide +kernel
  have hguarded : Guarded step (fun s e => s.admissible e = true)
      (init (.init 2 false 10 10)) lateTimer := by
    decide +kernel
  obtain ⟨s, hrun⟩ := Option.isSome_iff_exists.mp hdefined
  exact ⟨s, hrun, (run_loses_nothing_iff hrun).2.mpr hguarded⟩

theorem lost_and_processed_twice
    : (run step (init (.init 2 false 10 10))
        [.enqueue (messageAt 5) 5 .received, .enqueue (messageAt 7) 7 .received]).map (fun s => s.lost)
      = some [⟨0, messageAt 5⟩]
      ∧ (run step (init (.init 2 false 10 10))
          [.enqueue (messageAt 0) 0 .received, .enqueue (messageAt 6) 6 .received, .timer 1 7 .received,
            .timer 0 7 .received]).map (fun s => s.processed.map (fun p => p.call.number))
        = some [1, 1] := by
  decide +kernel

end ReceivePipeline
end Tdma
end Emane

import Emane.Ieee80211abg.Lemmas.Conservation

/-!
This module contains the statistics about packets that are too large.
-/

namespace Emane
namespace Ieee80211abg

open DownstreamQueue

def DownstreamQueueEntry.isBroadcast (entry : DownstreamQueueEntry) : Bool :=
  entry.pkt.info.destination = NEM_BROADCAST_MAC_ADDRESS

namespace AccessCategory

def oversized (p : AccessCategory) (i : Nat) (broadcast : Bool) (entries : List DownstreamQueueEntry)
    : List DownstreamQueueEntry :=
  entries.filter (fun entry => entry.category = i && p.isTooLarge entry && entry.isBroadcast == broadcast)

def numBytes (entries : List DownstreamQueueEntry) : Nat :=
  (entries.map (fun entry => entry.pkt.length)).sum

structure Counted (dropped : List DownstreamQueueEntry) (i : Nat) (p : AccessCategory) : Prop where
  unicastPackets : p.numUnicastPacketsTooLarge = (p.oversized i false dropped).length
  unicastBytes : p.numUnicastBytesTooLarge = numBytes (p.oversized i false dropped)
  broadcastPackets : p.numBroadcastPacketsTooLarge = (p.oversized i true dropped).length
  broadcastBytes : p.numBroadcastBytesTooLarge = numBytes (p.oversized i true dropped)
  fits : ∀ entry ∈ p.queue, entry.category = i ∧ p.isTooLarge entry = false

section

variable {p : AccessCategory} {i : Nat} {dropped : List DownstreamQueueEntry}

theorem oversized_append_of_not {entries : List DownstreamQueueEntry}
    (h : ∀ entry ∈ entries, entry.category = i → p.isTooLarge entry = false) (broadcast : Bool)
    : p.oversized i broadcast (dropped ++ entries) = p.oversized i broadcast dropped := by
  have hnil : entries.filter (fun entry => entry.category = i && p.isTooLarge entry
      && entry.isBroadcast == broadcast) = [] := by
    rw [List.filter_eq_nil_iff]
    intro entry hentry
    have hnot := h entry hentry
    simp only [Bool.and_eq_true, decide_eq_true_eq]
    rintro ⟨⟨hcategory, hlarge⟩, -⟩
    rw [hnot hcategory] at hlarge
    cases hlarge
  unfold oversized
  rw [List.filter_append, hnil, List.append_nil]

theorem Counted.append (h : p.Counted dropped i) {entries : List DownstreamQueueEntry}
    (hnot : ∀ entry ∈ entries, entry.category = i → p.isTooLarge entry = false)
    : p.Counted (dropped ++ entries) i := by
  constructor
  . rw [oversized_append_of_not hnot]
    exact h.unicastPackets
  . rw [oversized_append_of_not hnot]
    exact h.unicastBytes
  . rw [oversized_append_of_not hnot]
    exact h.broadcastPackets
  . rw [oversized_append_of_not hnot]
    exact h.broadcastBytes
  . exact h.fits

theorem Counted.queue (h : p.Counted dropped i) {queue : List DownstreamQueueEntry} (mark max : Nat)
    (hfits : ∀ entry ∈ queue, entry.category = i ∧ p.isTooLarge entry = false)
    : Counted dropped i { p with queue := queue, numHighWaterMark := mark, numHighWaterMax := max } := by
  exact ⟨h.unicastPackets, h.unicastBytes, h.broadcastPackets, h.broadcastBytes, hfits⟩

theorem category_of_mem_enqueue (h : p.Counted dropped i) {entry entry' : DownstreamQueueEntry}
    (hcategory : entry.category = i)
    (hmem : entry' ∈ (p.enqueue entry).1)
    : entry'.category = i := by
  have hwhole := (p.enqueue_perm entry).mem_iff.mp (List.mem_append_left _ hmem)
  rcases List.mem_append.mp hwhole with hqueue | hnew
  . exact (h.fits entry' hqueue).1
  . rw [List.mem_singleton.mp hnew]
    exact hcategory

theorem counted_tooLarge (h : p.Counted dropped i) {entry : DownstreamQueueEntry}
    (hcategory : entry.category = i)
    (hlarge : p.isTooLarge entry = true) (hunicast : entry.isBroadcast = false)
    (hpackets : p.numUnicastPacketsTooLarge + 1 < 2^32)
    (hbytes : p.numUnicastBytesTooLarge + entry.pkt.length < 2^32)
    : (p.tooLarge entry.pkt).Counted (dropped ++ [entry]) i := by
  have hdestination : ¬entry.pkt.info.destination = NEM_BROADCAST_MAC_ADDRESS := by
    simpa [DownstreamQueueEntry.isBroadcast] using hunicast
  have hcounted : p.oversized i false (dropped ++ [entry]) = p.oversized i false dropped ++ [entry] := by
    simp [oversized, List.filter_append, hcategory, hlarge, hunicast]
  have hother : p.oversized i true (dropped ++ [entry]) = p.oversized i true dropped := by
    simp [oversized, List.filter_append, hunicast]
  unfold tooLarge
  rw [if_neg hdestination]
  constructor
  . show statistic p.numUnicastPacketsTooLarge 1 = (p.oversized i false (dropped ++ [entry])).length
    rw [hcounted, List.length_append, ← h.unicastPackets, statistic, Nat.mod_eq_of_lt hpackets]
    rfl
  . show statistic p.numUnicastBytesTooLarge entry.pkt.length = numBytes
      (p.oversized i false (dropped ++ [entry]))
    rw [hcounted, numBytes, List.map_append, List.sum_append, statistic, Nat.mod_eq_of_lt hbytes,
      h.unicastBytes]
    simp [numBytes]
  . show p.numBroadcastPacketsTooLarge = (p.oversized i true (dropped ++ [entry])).length
    rw [hother]
    exact h.broadcastPackets
  . show p.numBroadcastBytesTooLarge = numBytes (p.oversized i true (dropped ++ [entry]))
    rw [hother]
    exact h.broadcastBytes
  . exact h.fits

def countable (p : AccessCategory) (entry : DownstreamQueueEntry) : Bool :=
  !p.isTooLarge entry
    || (!entry.isBroadcast && p.numUnicastPacketsTooLarge + 1 < 2^32
      && p.numUnicastBytesTooLarge + entry.pkt.length < 2^32)

theorem counted_enqueue (h : p.Counted dropped i) {entry : DownstreamQueueEntry}
    (hcategory : entry.category = i)
    (hcountable : p.countable entry = true)
    : (p.enqueue entry).2.Counted (dropped ++ (p.enqueue entry).1) i := by
  cases hlarge : p.isTooLarge entry with
  | true =>
    simp only [countable, hlarge, Bool.not_true, Bool.false_or, Bool.and_eq_true, Bool.not_eq_true',
      decide_eq_true_eq] at hcountable
    obtain ⟨⟨hunicast, hpackets⟩, hbytes⟩ := hcountable
    rw [enqueue_eq_tooLarge hlarge]
    exact counted_tooLarge h hcategory hlarge hunicast hpackets hbytes
  | false =>
    obtain ⟨queue, mark, max, heq, hsub⟩ := enqueue_eq_push hlarge
    have hfits : ∀ entry' ∈ p.queue ++ [entry], entry'.category = i ∧ p.isTooLarge entry' = false := by
      intro entry' hmem
      rcases List.mem_append.mp hmem with hqueue | hnew
      . exact h.fits entry' hqueue
      . rw [List.mem_singleton.mp hnew]
        exact ⟨hcategory, hlarge⟩
    have hnot : ∀ entry' ∈ (p.enqueue entry).1, entry'.category = i → p.isTooLarge entry' = false := by
      intro entry' hmem _
      have hwhole := (p.enqueue_perm entry).mem_iff.mp (List.mem_append_left _ hmem)
      exact (hfits entry' hwhole).2
    rw [heq]
    apply Counted.queue (h.append hnot)
    exact fun entry' hmem => hfits entry' (hsub.mem hmem)

end
end AccessCategory

namespace MACLayer

open AccessCategory

def Statistics (m : MACLayer) : Prop :=
  ∀ (i : Nat) (p : AccessCategory), m.queue.categories[i]? = some p
    → p.Counted (m.actions.filterMap Action.dropped) i

section

variable {cfg : MACConfig} {m : MACLayer}

theorem Statistics.of_eq {m' : MACLayer} (h : m.Statistics) (hqueue : m'.queue = m.queue)
    (hdropped : m'.actions.filterMap Action.dropped = m.actions.filterMap Action.dropped)
    : m'.Statistics := by
  unfold Statistics
  rw [hqueue, hdropped]
  exact h

theorem statistics_act (h : m.Statistics) {actions : List Action}
    (hdropped : ∀ a ∈ actions, a.dropped = none)
    : (m.act actions).Statistics := by
  apply h.of_eq
  . rfl
  . simp only [act, List.filterMap_append]
    rw [List.filterMap_eq_nil_iff.mpr hdropped, List.append_nil]

theorem statistics_processPending (tick : Tick) (entry : DownstreamQueueEntry) (h : m.Statistics)
    : (m.processPending cfg tick entry).Statistics := by
  obtain ⟨next, tokens, hactions⟩ := m.actions_processPending cfg tick entry
  have hdropped : (m.processPending cfg tick entry).actions.filterMap Action.dropped
      = m.actions.filterMap Action.dropped := by
    rw [hactions, List.filterMap_append, List.append_right_eq_self, List.filterMap_eq_nil_iff]
    intro a ha
    simp only [List.mem_append, List.mem_cons, List.mem_map] at ha
    rcases ha with rfl | ⟨_, -, rfl⟩ | ⟨_, -, rfl⟩ | ⟨_, -, rfl⟩ | ⟨_, -, rfl⟩
    . rfl
    . rfl
    . rfl
    . rfl
    . rfl
  rcases m.pending_processPending cfg tick entry with ⟨-, -, hqueue⟩ | ⟨-, -, hqueue⟩
  . exact h.of_eq hqueue hdropped
  . unfold Statistics
    rw [hdropped, hqueue]
    intro i p' hp'
    obtain ⟨p, queue, hp, rfl, hsub⟩ := getElem?_dequeue hp'
    have hcounted := h i p hp
    apply Counted.queue hcounted
    exact fun entry' hmem => hcounted.fits entry' (hsub.mem hmem)

theorem statistics_handle (env : Env) (sequenceNumber : Nat) (h : m.Statistics)
    : (m.handleDownstreamQueueEntry cfg env sequenceNumber).Statistics := by
  unfold handleDownstreamQueueEntry
  split
  . have hnone : ∀ (_ : Nat) (m : MACLayer), m.Statistics → m.pending = none
      → m.Statistics := fun _ _ h _ => h
    apply go_rule cfg env hnone
    . intro k m entry time h _ _ _
      have hturn : (m.processPending cfg (env.tick k) entry).Statistics :=
        statistics_processPending _ entry h
      exact hturn.of_eq rfl rfl
    . intro k m entry h _ _
      apply statistics_processPending _ entry h
    . exact Nat.le_refl _
    . exact h
  . exact h

theorem category_of_dropped (h : m.Statistics) {entry entry' : DownstreamQueueEntry}
    (hmem : entry' ∈ (m.queue.enqueue entry).1)
    : entry'.category = entry.category := by
  unfold DownstreamQueue.enqueue at hmem
  split at hmem
  . next p hp => exact category_of_mem_enqueue (h _ p hp) rfl hmem
  . rw [List.mem_singleton.mp hmem]

theorem statistics_enqueue (h : m.Statistics) {entry : DownstreamQueueEntry}
    (hcountable : ∀ p : AccessCategory, m.queue.categories[entry.category]? = some p
      → p.countable entry = true)
    : (m.enqueue cfg entry).Statistics := by
  obtain ⟨flowControl, actions, heq, hdropped, -⟩ := m.enqueue_eq cfg entry
  unfold Statistics
  rw [heq]
  simp only [List.filterMap_append, hdropped]
  intro i p' hp'
  rcases getElem?_enqueue hp' with ⟨hne, hsame⟩ | ⟨p, rfl, hp, rfl, hlist⟩
  . apply (h i p' hsame).append
    intro entry' hmem hcategory
    rw [category_of_dropped h hmem] at hcategory
    exact absurd hcategory.symm hne
  . rw [hlist]
    exact counted_enqueue (h _ p hp) rfl (hcountable p hp)

end

section

variable (cfg : MACConfig)

def countable (m : MACLayer) (e : Env × Event) : Bool :=
  match e.2, m.pending with
  | .downstreamPacket pkt, some _ =>
    !(m.removeToken cfg).1
      || (m.queue.categories[(createEntry cfg e.1.now pkt).category]?).all
        (fun p => p.countable (createEntry cfg e.1.now pkt))
  | _, _ => true

variable {cfg : MACConfig} {m : MACLayer}

theorem statistics_processDownstreamPacket (env : Env) (pkt : DownstreamPacket)
    (hcountable : m.countable cfg (env, .downstreamPacket pkt) = true) (h : m.Statistics)
    : (m.processDownstreamPacket cfg env pkt).Statistics := by
  obtain ⟨flowControl, heq⟩ := m.removeToken_eq cfg
  have hremove : (m.removeToken cfg).2.Statistics := by
    rw [heq]
    exact h.of_eq rfl rfl
  unfold processDownstreamPacket
  simp only
  split
  . next hstatus =>
    have haccept : ((m.removeToken cfg).2.act [.accept (createEntry cfg env.now pkt)]).Statistics := by
      apply statistics_act hremove
      simp [Action.dropped]
    split
    . next entry hpending =>
      have hpending' : m.pending = some entry := by
        rw [heq] at hpending
        exact hpending
      have henqueue : (((m.removeToken cfg).2.act [.accept (createEntry cfg env.now pkt)]).enqueue cfg
          (createEntry cfg env.now pkt)).Statistics := by
        apply statistics_enqueue haccept
        intro p hp
        rw [heq] at hp
        have hp' : m.queue.categories[(createEntry cfg env.now pkt).category]? = some p := hp
        simpa [MACLayer.countable, hpending', hstatus, hp'] using hcountable
      split
      . apply statistics_handle env _ henqueue
      . exact henqueue
    . have hpending : ({ (m.removeToken cfg).2.act [.accept (createEntry cfg env.now pkt)] with
          pending := some (createEntry cfg env.now pkt) } : MACLayer).Statistics := haccept.of_eq rfl rfl
      unfold startPending
      simp only
      split
      . exact hpending.of_eq rfl rfl
      . apply statistics_handle env _ hpending
  . apply statistics_act hremove
    simp [Action.dropped]

theorem statistics_step {m' : MACLayer} {e : Env × Event} (h : m.Statistics)
    (hcountable : m.countable cfg e = true)
    (hstep : step cfg m e = some m')
    : m'.Statistics := by
  obtain ⟨env, event⟩ := e
  cases event with
  | downstreamPacket pkt =>
    cases hstep
    apply statistics_processDownstreamPacket env pkt hcountable h
  | timer index =>
    simp only [step] at hstep
    split at hstep
    . split at hstep
      . cases hstep
        apply statistics_handle env
        exact h.of_eq rfl rfl
      . cases hstep
    . cases hstep
  | upstreamPacket pkt checks =>
    cases hstep
    obtain ⟨radio, duplicateMap, actions, heq, -, hkinds⟩ := m.processUpstreamPacket_eq cfg env checks pkt
    have hact : (m.act actions).Statistics := by
      apply statistics_act h
      intro a ha
      rcases hkinds a ha with ⟨transmission, rfl⟩ | ⟨pkt', rfl⟩
      . rfl
      . rfl
    rw [heq]
    exact hact.of_eq rfl rfl
  | flowControlMessage tokens =>
    cases hstep
    unfold processFlowControlMessage
    split
    . apply statistics_act
      . exact h.of_eq rfl rfl
      . intro a ha
        obtain ⟨tokens, -, rfl⟩ := List.mem_map.mp ha
        rfl
    . exact h

def ready (limits : List (Nat × Nat)) (tokens : UInt16) (entrySequenceNumber : UInt16) : MACLayer :=
  .init (limits.map (fun limit => .create limit.1 limit.2))
    (FlowControlManager.init.start tokens.toNat).2 entrySequenceNumber

variable (limits : List (Nat × Nat)) (tokens entrySequenceNumber : UInt16)

theorem entries_ready
    : entries (ready limits tokens entrySequenceNumber).queue.categories = [] := by
  simp only [ready, init, entries, List.flatMap_eq_nil_iff]
  intro p hp
  obtain ⟨limit, -, rfl⟩ := List.mem_map.mp hp
  rfl

theorem accounts_ready
    : (ready limits tokens entrySequenceNumber).Accounts tokens.toNat 0 [] := by
  have hentries := entries_ready limits tokens entrySequenceNumber
  constructor
  . rfl
  . rw [hentries]
    rfl
  . intro origin
    rw [hentries]
    rfl
  . intro p hp
    obtain ⟨limit, -, rfl⟩ := List.mem_map.mp hp
    apply List.nil_sublist
  . apply inOrder_nil

theorem statistics_ready
    : (ready limits tokens entrySequenceNumber).Statistics := by
  intro i p hp
  obtain ⟨limit, -, rfl⟩ := List.mem_map.mp (List.mem_of_getElem? hp)
  constructor
  . rfl
  . rfl
  . rfl
  . rfl
  . intro entry hentry
    cases hentry

theorem getDepth_eq (q : DownstreamQueue) : q.getDepth = (entries q.categories).length := by
  rw [DownstreamQueue.getDepth, entries, List.length_flatMap]

/--
In every run the tokens and the packets add up, a packet that was accepted is in one place or has
left, and what is taken from the queue is the oldest packet of the highest category.
-/
theorem run_conserves (henable : cfg.flowControlEnable = true) {limits : List (Nat × Nat)}
    {tokens entrySequenceNumber : UInt16}
    {es : List (Env × Event)} {m : MACLayer}
    (hrun : run (step cfg) (ready limits tokens entrySequenceNumber) es = some m)
    : m.flowControl.tokensAvailable + m.queue.getDepth + m.pending.toList.length = tokens.toNat
      ∧ (∀ origin, number origin (m.actions.filterMap Action.accepted)
          =
          number origin (m.actions.filterMap Action.departed) + number origin m.pending.toList
            + number origin (entries m.queue.categories))
      ∧ (∀ before categories entry after, m.actions = before ++ .dequeue categories entry :: after →
          IsNext categories entry ∧ ∀ p ∈ categories, p.queue.Sublist (before.filterMap Action.accepted))
      ∧ (Guarded (step cfg) (fun m e => m.countable cfg e = true)
        (ready limits tokens entrySequenceNumber) es →
          ∀ (i : Nat) (p : AccessCategory), m.queue.categories[i]? = some p →
            p.numUnicastPacketsTooLarge
              = (p.oversized i false (m.actions.filterMap Action.dropped)).length
            ∧ p.numUnicastBytesTooLarge = numBytes
              (p.oversized i false (m.actions.filterMap Action.dropped))
            ∧ p.numBroadcastPacketsTooLarge
              = (p.oversized i true (m.actions.filterMap Action.dropped)).length
            ∧ p.numBroadcastBytesTooLarge = numBytes
                (p.oversized i true (m.actions.filterMap Action.dropped))) := by
  have htotal := tokens.toNat_lt
  have haccounts : m.Accounts tokens.toNat 0 [] :=
    run_inv (fun _ _ _ h _ hstep => accounts_step henable htotal h hstep)
      (accounts_ready limits tokens entrySequenceNumber) (guarded_of_forall (fun _ _ => trivial)) hrun
  refine ⟨?_, ?_, ?_, ?_⟩
  . rw [getDepth_eq]
    exact haccounts.tokens
  . exact haccounts.custody
  . intro before categories entry after heq
    exact haccounts.inOrder before (.dequeue categories entry) after heq
  . intro hguarded i p hp
    have hstatistics : m.Statistics := run_inv (fun _ _ _ h hok hstep => statistics_step h hok hstep)
      (statistics_ready limits tokens entrySequenceNumber) hguarded hrun
    have hcounted := hstatistics i p hp
    exact ⟨hcounted.unicastPackets, hcounted.unicastBytes, hcounted.broadcastPackets,
      hcounted.broadcastBytes⟩

def shortDelay : Delay where
  preDelayMicroseconds := 1000
  postDelayMicroseconds := 0
  collision := false

def crowdedEvents (destination : NEMId) : List (Env × Event) :=
  [(.still 0 shortDelay, .flowControlMessage 10),
    (.still 1 shortDelay, .downstreamPacket (packetTo 2 [1])),
    (.still 2 shortDelay, .downstreamPacket (packetTo destination [1, 2, 3, 4, 5]))]

theorem run_conserves_crowded
    : ∃ m, run (step (mode80211b 1)) (ready [(255, 4)] 10 0) (crowdedEvents 3) = some m
        ∧ m.flowControl.tokensAvailable + m.queue.getDepth + m.pending.toList.length = 10
        ∧ m.queue.categories.map (fun p => (p.numUnicastPacketsTooLarge, p.numUnicastBytesTooLarge))
          = [(1, 5)]
        ∧ ∀ (i : Nat) (p : AccessCategory), m.queue.categories[i]? = some p →
            p.numUnicastBytesTooLarge = numBytes
                (p.oversized i false (m.actions.filterMap Action.dropped)) := by
  have hdefined : (run (step (mode80211b 1)) (ready [(255, 4)] 10 0) (crowdedEvents 3)).isSome
      = true := by
    decide +kernel
  have hguarded : Guarded (step (mode80211b 1)) (fun m e => m.countable (mode80211b 1) e = true)
    (ready [(255, 4)] 10 0)
      (crowdedEvents 3) := by
    decide +kernel
  have hcounted : (run (step (mode80211b 1)) (ready [(255, 4)] 10 0) (crowdedEvents 3)).map
      (fun m => m.queue.categories.map
          (fun p => (p.numUnicastPacketsTooLarge, p.numUnicastBytesTooLarge))) = some [(1, 5)] := by
    decide +kernel
  obtain ⟨m, hrun⟩ := Option.isSome_iff_exists.mp hdefined
  have hconserves := run_conserves rfl hrun
  rw [hrun] at hcounted
  exact ⟨m, hrun, hconserves.1, Option.some.inj hcounted,
    fun i p hp => (hconserves.2.2.2 hguarded i p hp).2.1⟩

theorem broadcast_bytes_not_counted
    : (run (step (mode80211b 1)) (ready [(255, 4)] 10 0) (crowdedEvents NEM_BROADCAST_MAC_ADDRESS)).map
        (fun m => m.queue.categories.zipIdx.map (fun p =>
          (p.1.numBroadcastBytesTooLarge,
            numBytes (p.1.oversized p.2 true (m.actions.filterMap Action.dropped)))))
      =
      some [(0, 5)] := by
  decide +kernel

end
end MACLayer
end Ieee80211abg
end Emane

import Emane.Tdma.Lemmas.Queue

/-!
This module contains the representation invariant of the packet queue and its proof for every run:
the maps agree, the byte count is right, and every packet that has been enqueued is in exactly one
place.
-/

namespace Emane
namespace Tdma

namespace Fifo

theorem bytes_eq_sum {es : List Entry} (h : ∀ e ∈ es, e.Valid)
    : (bytes es : Int) = (es.map (fun e => (e.packet.length - e.offset : Int))).sum := by
  induction es with
  | nil => rfl
  | cons e es ih =>
    have hle := (h e (by simp)).offset_le
    have ih := ih (fun e' he' => h e' (by simp [he']))
    rw [bytes_cons, List.map_cons, List.sum_cons]
    unfold Entry.remaining
    omega

variable {p : Request} {fs : Fates}

theorem Fates.valid_after (hallowed : fs.Allowed p)
    (hvalid : ∀ e ∈ fs.before, e.Valid)
    : ∀ e ∈ fs.after, e.Valid := by
  intro e he
  unfold Fates.after at he
  rw [List.mem_filterMap] at he
  obtain ⟨⟨e', f⟩, hmem, hafter⟩ := he
  have hvalid := hvalid e' (List.mem_map_of_mem hmem)
  have hallowed := hallowed _ hmem
  cases f with
  | kept =>
    simp only [Fate.after, Option.some.injEq] at hafter
    exact hafter ▸ hvalid
  | cut n =>
    simp only [Fate.after, Option.some.injEq] at hafter
    rw [← hafter]
    exact hvalid.advance hallowed.2
  | sent => simp [Fate.after] at hafter
  | dropped => simp [Fate.after] at hafter

theorem Fates.offset_after (hallowed : fs.Allowed p) (hfrag : p.fragment = false)
    (hoffset : ∀ e ∈ fs.before, e.offset = 0)
    : ∀ e ∈ fs.after, e.offset = 0 := by
  intro e he
  unfold Fates.after at he
  rw [List.mem_filterMap] at he
  obtain ⟨⟨e', f⟩, hmem, hafter⟩ := he
  have hallowed := hallowed _ hmem
  cases f with
  | kept =>
    simp only [Fate.after, Option.some.injEq] at hafter
    rw [← hafter]
    exact hoffset e' (List.mem_map_of_mem hmem)
  | cut n => simp [Fate.Allowed, hfrag] at hallowed
  | sent => simp [Fate.after] at hafter
  | dropped => simp [Fate.after] at hafter

theorem Fates.bytes_before (hallowed : fs.Allowed p)
    (hoffset : p.fragment = false → ∀ e ∈ fs.before, e.offset = 0)
    : bytes fs.before
        =
      bytes fs.after + MessageComponents.size (fs.components p.kind)
        + (fs.discarded.map (fun d => d.packet.length)).sum := by
  induction fs with
  | nil => rfl
  | cons ef fs ih =>
    obtain ⟨e, f⟩ := ef
    rw [Fates.allowed_cons] at hallowed
    have ih := ih hallowed.2 (fun hfrag e' he' => hoffset hfrag e' (by simp [he']))
    have hsize : ∀ n ≤ e.remaining, (e.component p.kind n).size = n := fun n hn =>
      e.size_component p.kind hn
    cases f with
    | kept =>
      simp only [Fates.before_cons, Fates.after_cons, Fates.components_cons,
        Fates.discarded_cons, Fate.after,
        Fate.component, Fate.discarded, Option.toList_some, Option.toList_none, List.singleton_append,
        List.nil_append, bytes_cons]
      omega
    | cut n =>
      have hn := hallowed.1.2
      simp only at hn
      have hsize := hsize n (by omega)
      have hadvance : (e.advance n).remaining = e.remaining - n := by
        simp only [Entry.remaining, Entry.advance]
        omega
      simp only [Fates.before_cons, Fates.after_cons, Fates.components_cons,
        Fates.discarded_cons, Fate.after,
        Fate.component, Fate.discarded, Option.toList_some, Option.toList_none, List.singleton_append,
        List.nil_append, bytes_cons, MessageComponents.size_cons]
      omega
    | sent =>
      have hsize := hsize e.remaining (Nat.le_refl _)
      simp only [Fates.before_cons, Fates.after_cons, Fates.components_cons,
        Fates.discarded_cons, Fate.after,
        Fate.component, Fate.discarded, Option.toList_some, Option.toList_none, List.singleton_append,
        List.nil_append, bytes_cons, MessageComponents.size_cons]
      omega
    | dropped =>
      have hzero := hoffset hallowed.1.1 e (by simp)
      have hremaining : e.remaining = e.owned.packet.length := by
        simp only [Entry.remaining, Entry.owned]
        omega
      simp only [Fates.before_cons, Fates.after_cons, Fates.components_cons,
        Fates.discarded_cons, Fate.after,
        Fate.component, Fate.discarded, Option.toList_some, Option.toList_none, List.singleton_append,
        List.nil_append, bytes_cons, List.map_cons, List.sum_cons]
      omega

abbrev Fates.of (seq : Nat) (fs : Fates) : Fates :=
  withKey (fun ef => ef.1.seq) seq fs

theorem Fates.withKey_before (seq : Nat) (fs : Fates)
    : withKey Entry.seq seq fs.before = (fs.of seq).before := by
  unfold Fates.before withKey
  rw [List.filter_map]
  rfl

theorem Fates.withKey_after (seq : Nat) (fs : Fates)
    : withKey Entry.seq seq fs.after = (fs.of seq).after := by
  apply withKey_filterMap
  intro ef e hef
  cases hf : ef.2 with
  | kept =>
    simp only [hf, Fate.after, Option.some.injEq] at hef
    rw [hef]
  | cut n =>
    simp only [hf, Fate.after, Option.some.injEq] at hef
    rw [← hef]
    rfl
  | sent => simp [hf, Fate.after] at hef
  | dropped => simp [hf, Fate.after] at hef

theorem Fates.withKey_components (kind : MessageComponent.Kind) (seq : Nat) (fs : Fates)
    : withKey MessageComponent.fragmentSequence seq (fs.components kind)
        = (fs.of seq).components kind := by
  apply withKey_filterMap
  intro ef c hef
  cases hf : ef.2 with
  | kept => simp [hf, Fate.component] at hef
  | cut n =>
    simp only [hf, Fate.component, Option.some.injEq] at hef
    rw [← hef]
    rfl
  | sent =>
    simp only [hf, Fate.component, Option.some.injEq] at hef
    rw [← hef]
    rfl
  | dropped => simp [hf, Fate.component] at hef

theorem Fates.withKey_discarded (seq : Nat) (fs : Fates)
    : withKey OwnedPacket.address seq fs.discarded = (fs.of seq).discarded := by
  apply withKey_filterMap
  intro ef d hef
  cases hf : ef.2 with
  | kept => simp [hf, Fate.discarded] at hef
  | cut n => simp [hf, Fate.discarded] at hef
  | sent => simp [hf, Fate.discarded] at hef
  | dropped =>
    simp only [hf, Fate.discarded, Option.some.injEq] at hef
    rw [← hef]
    rfl

end Fifo

namespace Queue

theorem Rep.entries_eq {q : Queue} {es : List Entry} (h : Rep q es) : q.entries = es := by
  unfold entries
  rw [h.queue]
  rw [List.filterMap_map]
  have hentry : ∀ e ∈ es,
      ((fun entry => (q.heap.read entry.2).map
        (fun cell => (⟨entry.1, cell.packet, cell.metaInfo.index, cell.metaInfo.offset⟩ : Entry)))
          ∘ keyOf) e
        = some e := by
    intro e he
    simp [keyOf, cellOf, h.heap e he]
  rw [List.filterMap_congr hentry]
  exact List.filterMap_some

structure Holds (q : Queue) (es : List Entry) : Prop extends Rep q es where
  valid : ∀ e ∈ es, e.Valid
  currentBytes : q.currentBytes = Fifo.bytes es
  unfragmented : q.fragment = false → ∀ e ∈ es, e.offset = 0

namespace Holds

theorem of_init (cfg : QueueConfig) : Holds (init cfg) [] where
  toRep := Rep.of_init cfg
  valid := by simp
  currentBytes := by rfl
  unfragmented := by simp

variable {q : Queue} {es : List Entry}

theorem append (h : Holds q es) (pkt : DownstreamPacket)
    : Holds (q.append pkt) (es ++ [⟨q.counter, pkt, 0, 0⟩]) where
  toRep := h.toRep.append pkt
  valid := by
    intro e he
    rw [List.mem_append, List.mem_singleton] at he
    cases he with
    | inl he => exact h.valid e he
    | inr he =>
      rw [he]
      exact Entry.Valid.of_new q.counter pkt
  currentBytes := by
    simp only [Queue.append, Fifo.bytes_append, Fifo.bytes_cons, Fifo.bytes_nil, Entry.remaining]
    rw [h.currentBytes]
    omega
  unfragmented := by
    intro hfrag e he
    rw [List.mem_append, List.mem_singleton] at he
    cases he with
    | inl he => exact h.unfragmented hfrag e he
    | inr he => rw [he]

theorem dequeue (h : Holds q es) (requestedBytes : Nat) (destination : NEMId)
    (drop : Bool)
    : let p := dequeue.request q.toQueueConfig requestedBytes destination drop
      let fs := Fifo.fates p es ⟨[], 0, []⟩
      let r := (Fifo.dequeue p es ⟨[], 0, []⟩).2
      ∃ q',
        q.dequeue requestedBytes destination drop = some (r, q')
          ∧ Holds q' fs.after
          ∧ q'.toQueueConfig = q.toQueueConfig
          ∧ q'.counter = q.counter
          ∧ Fifo.Decomposes p es ⟨[], 0, []⟩ fs.after r fs := by
  intro p fs r
  obtain ⟨q', heq, hrep, hconfig, hcounter, hbytes⟩ :=
    dequeue_eq h.toRep h.valid requestedBytes destination drop
  have hfs : Fifo.Decomposes p es ⟨[], 0, []⟩ _ _ fs := Fifo.dequeue_decomposes p es ⟨[], 0, []⟩
  rw [← hfs.after] at hrep
  have hdropped := hfs.dropped
  have htotal := hfs.totalBytes
  have hconserved := Fifo.Fates.bytes_before hfs.allowed (by rw [hfs.before]; exact h.unfragmented)
  rw [hfs.before] at hconserved
  refine ⟨q', heq, ?_, hconfig, hcounter, hfs.after ▸ hfs⟩
  constructor
  . exact hrep
  . apply Fifo.Fates.valid_after hfs.allowed
    rw [hfs.before]
    exact h.valid
  . have hold := h.currentBytes
    simp only [dequeue.Result.droppedBytes] at hbytes
    rw [hdropped, htotal] at hbytes
    simp only [List.nil_append] at hbytes
    omega
  . intro hfrag
    have hfrag' : q.fragment = false := by
      rw [← hconfig]
      exact hfrag
    apply Fifo.Fates.offset_after hfs.allowed hfrag'
    rw [hfs.before]
    exact h.unfragmented hfrag'

theorem enqueue_room (h : Holds q es) (hroom : es.length ≠ q.queueDepth)
    (pkt : DownstreamPacket)
    : q.enqueue pkt = some (none, q.append pkt) ∧ Holds (q.append pkt) (es ++ [⟨q.counter, pkt, 0, 0⟩]) :=
  ⟨enqueue_of_room h.toRep hroom pkt, h.append pkt⟩

theorem enqueue_full (h : Holds q es) (hdepth : 0 < q.queueDepth)
    (hfull : es.length = q.queueDepth) (pkt : DownstreamPacket)
    : ∃ pre v post q',
        es = pre ++ v :: post
          ∧ Victim pre v post
          ∧ q.enqueue pkt = some (some v.owned, q')
          ∧ Holds q' (pre ++ post ++ [⟨q.counter, pkt, 0, 0⟩])
          ∧ q'.toQueueConfig = q.toQueueConfig
          ∧ q'.counter = q.counter + 1 := by
  cases es with
  | nil =>
    simp only [List.length_nil] at hfull
    omega
  | cons e es =>
    obtain ⟨pre, v, post, q', heq, hvictim, henqueue, hrep, hconfig, hcounter, hbytes⟩ :=
      enqueue_of_full h.toRep hfull pkt
    have hmem : ∀ e' ∈ pre ++ post, e' ∈ e :: es := by
      intro e' he'
      grind
    have hholds : Holds q' (pre ++ post) := by
      constructor
      . exact hrep
      . intro e' he'
        exact h.valid e' (hmem e' he')
      . have hv := (h.valid v (by simp [heq])).offset_le
        have hold := h.currentBytes
        rw [heq] at hold
        simp only [Fifo.bytes_append, Fifo.bytes_cons, Entry.remaining] at hold ⊢
        omega
      . intro hfrag e' he'
        rw [hconfig] at hfrag
        exact h.unfragmented hfrag e' (hmem e' he')
    refine ⟨pre, v, post, q'.append pkt, heq, hvictim, henqueue, ?_, hconfig, ?_⟩
    . rw [← hcounter]
      exact hholds.append pkt
    . simp [Queue.append, hcounter]

theorem enqueue_of_depth_zero (h : Holds q []) (hdepth : q.queueDepth = 0) (pkt : DownstreamPacket)
    : q.enqueue pkt = none := by
  have hfull : q.queue.size = q.queueDepth := by
    rw [h.size_eq, hdepth]
    rfl
  have hfirst : q.queue.first? = none := by
    unfold SortedMap.first?
    rw [h.queue]
    rfl
  unfold Queue.enqueue
  rw [if_pos hfull]
  unfold discardOverflow
  rw [hfirst]
  rfl

theorem of_enqueue {q' : Queue} {pkt : DownstreamPacket} {dropped : Option OwnedPacket}
    (h : Holds q es) (henqueue : q.enqueue pkt = some (dropped, q'))
    : ∃ rest,
        Holds q' (rest ++ [⟨q.counter, pkt, 0, 0⟩])
          ∧ q'.toQueueConfig = q.toQueueConfig
          ∧ es.length = rest.length + dropped.toList.length
          ∧ rest ⊆ es
          ∧ q'.counter = q.counter + 1 := by
  by_cases hfull : es.length = q.queueDepth
  . cases es with
    | nil =>
      rw [h.enqueue_of_depth_zero hfull.symm] at henqueue
      simp at henqueue
    | cons e es =>
      obtain ⟨pre, v, post, q'', heq, _, hsome, hholds, hconfig, hcounter⟩ :=
        h.enqueue_full (by rw [← hfull]; simp) hfull pkt
      rw [hsome, Option.some.injEq, Prod.mk.injEq] at henqueue
      obtain ⟨rfl, rfl⟩ := henqueue
      refine ⟨pre ++ post, hholds, hconfig, ?_, ?_, hcounter⟩
      . rw [heq]
        simp
        omega
      . rw [heq]
        simp
  . obtain ⟨hsome, hholds⟩ := h.enqueue_room hfull pkt
    rw [hsome, Option.some.injEq, Prod.mk.injEq] at henqueue
    obtain ⟨rfl, rfl⟩ := henqueue
    exact ⟨es, hholds, rfl, by simp, fun _ he => he, rfl⟩

end Holds

inductive Fragments (kind : MessageComponent.Kind) (seq : Nat) (pkt : DownstreamPacket)
    : Nat → Nat → MessageComponents → Prop where
  | nil : Fragments kind seq pkt 0 0 []
  | cut {index offset : Nat} {cs : MessageComponents}
    (h : Fragments kind seq pkt index offset cs) {n : Nat}
    (hn : offset + n < pkt.length)
    : Fragments kind seq pkt (index + 1) (offset + n)
        (cs ++ [Entry.component kind ⟨seq, pkt, index, offset⟩ n])

namespace Fragments

variable {kind : MessageComponent.Kind} {seq index offset : Nat} {pkt : DownstreamPacket}
  {cs : MessageComponents}

theorem data (h : Fragments kind seq pkt index offset cs)
    : cs.flatMap MessageComponent.data = pkt.bytes.take offset := by
  induction h with
  | nil => rfl
  | cut h hn ih =>
    rw [List.flatMap_append]
    rw [ih]
    simp only [Entry.component, List.flatMap_cons, List.flatMap_nil, List.append_nil]
    rw [List.take_add]

theorem moreFragments_of_mem (h : Fragments kind seq pkt index offset cs)
    : ∀ c ∈ cs, c.moreFragments = true := by
  induction h with
  | nil => simp
  | cut h hn ih =>
    intro c hc
    rw [List.mem_append, List.mem_singleton] at hc
    cases hc with
    | inl hc => exact ih c hc
    | inr hc =>
      rw [hc]
      exact Entry.moreFragments_of_lt kind (Nat.lt_sub_iff_add_lt'.mpr hn)

theorem moreFragments (h : Fragments kind seq pkt index offset cs)
    : cs.filter (fun c => !c.moreFragments) = [] := by
  rw [List.filter_eq_nil_iff]
  intro c hc
  simp [h.moreFragments_of_mem c hc]

theorem offset_lt (h : Fragments kind seq pkt index offset cs) (hpos : 0 < pkt.length)
    : offset < pkt.length := by
  cases h with
  | nil => exact hpos
  | cut h hn => exact hn

theorem data_ne (h : Fragments kind seq pkt index offset cs) (hpos : 0 < pkt.length)
    : cs.flatMap MessageComponent.data ≠ pkt.bytes := by
  intro heq
  have hlt := h.offset_lt hpos
  rw [h.data] at heq
  have hlength := congrArg List.length heq
  rw [List.length_take, DownstreamPacket.length_bytes] at hlength
  omega

theorem data_append_last (h : Fragments kind seq pkt index offset cs) (hle : offset ≤ pkt.length)
    : (cs ++ [Entry.component kind ⟨seq, pkt, index, offset⟩ (pkt.length - offset)]).flatMap
        MessageComponent.data
        =
      pkt.bytes := by
  rw [List.flatMap_append]
  rw [h.data]
  simp only [Entry.component, List.flatMap_cons, List.flatMap_nil, List.append_nil]
  rw [← List.take_add]
  apply List.take_of_length_le
  rw [DownstreamPacket.length_bytes]
  omega

theorem moreFragments_last (_ : Fragments kind seq pkt index offset cs) (hle : offset ≤ pkt.length)
    : (Entry.component kind ⟨seq, pkt, index, offset⟩ (pkt.length - offset)).moreFragments = false :=
  Entry.moreFragments_of_remaining kind hle

theorem not_completed (h : Fragments kind seq pkt index offset cs) (accepts : NEMId → Bool)
    : cs.filter (fun c => !c.moreFragments && accepts c.destination) = [] := by
  rw [List.filter_eq_nil_iff]
  intro c hc
  simp [h.moreFragments_of_mem c hc]

end Fragments

inductive Place (kind : MessageComponent.Kind) (seq : Nat) (pkt : DownstreamPacket)
    : List Entry → MessageComponents → List OwnedPacket → List OwnedPacket → Prop where
  | queued {index offset : Nat} {cs : MessageComponents} (h : Fragments kind seq pkt index offset cs)
    : Place kind seq pkt [⟨seq, pkt, index, offset⟩] cs [] []
  | returned {index offset : Nat} {cs : MessageComponents} (h : Fragments kind seq pkt index offset cs)
    (hle : offset ≤ pkt.length)
    : Place kind seq pkt []
        (cs ++ [Entry.component kind ⟨seq, pkt, index, offset⟩ (pkt.length - offset)]) [] []
  | overflowed {index offset : Nat} {cs : MessageComponents} (h : Fragments kind seq pkt index offset cs)
    : Place kind seq pkt [] cs [⟨seq, pkt⟩] []
  | tooLarge {index offset : Nat} {cs : MessageComponents} (h : Fragments kind seq pkt index offset cs)
    : Place kind seq pkt [] cs [] [⟨seq, pkt⟩]

namespace Place

variable {kind : MessageComponent.Kind} {seq : Nat} {pkt : DownstreamPacket} {es : List Entry}
  {cs : MessageComponents} {os ts : List OwnedPacket}

theorem count (h : Place kind seq pkt es cs os ts)
    : es.length + (cs.filter (fun c => !c.moreFragments)).length + os.length + ts.length = 1 := by
  cases h with
  | queued h => simp [h.moreFragments]
  | returned h hle =>
    rw [List.filter_append]
    rw [h.moreFragments]
    rw [List.filter_cons_of_pos (by simp [h.moreFragments_last hle])]
    rfl
  | overflowed h => simp [h.moreFragments]
  | tooLarge h => simp [h.moreFragments]

theorem data_of_queued {e : Entry} (h : Place kind seq pkt es cs os ts) (he : e ∈ es)
    : e.packet = pkt ∧ cs.flatMap MessageComponent.data = pkt.bytes.take e.offset := by
  cases h with
  | queued h =>
    rw [List.mem_singleton] at he
    rw [he]
    exact ⟨rfl, h.data⟩
  | returned h hle => simp at he
  | overflowed h => simp at he
  | tooLarge h => simp at he

theorem data_of_returned (h : Place kind seq pkt es cs os ts)
    (hc : cs.filter (fun c => !c.moreFragments) ≠ [])
    : cs.flatMap MessageComponent.data = pkt.bytes := by
  cases h with
  | queued h => exact absurd h.moreFragments hc
  | returned h hle => exact h.data_append_last hle
  | overflowed h => exact absurd h.moreFragments hc
  | tooLarge h => exact absurd h.moreFragments hc

theorem packet_of_dropped {d : OwnedPacket} (h : Place kind seq pkt es cs os ts) (hd : d ∈ os ∨ d ∈ ts)
    : d.packet = pkt := by
  cases h with
  | queued h => simp at hd
  | returned h hle => simp at hd
  | overflowed h =>
    simp only [List.mem_singleton, List.not_mem_nil, or_false] at hd
    rw [hd]
  | tooLarge h =>
    simp only [List.mem_singleton, List.not_mem_nil, false_or] at hd
    rw [hd]

theorem completed (h : Place kind seq pkt es cs os ts) (hpos : 0 < pkt.length) {accepts : NEMId → Bool}
    (haccepts : accepts pkt.info.destination)
    : (cs.filter (fun c => !c.moreFragments && accepts c.destination)).length
        =
      if cs.flatMap MessageComponent.data = pkt.bytes then 1 else 0 := by
  cases h with
  | queued h =>
    rw [h.not_completed, if_neg (h.data_ne hpos)]
    rfl
  | returned h hle =>
    have hmore := h.moreFragments_last hle
    rw [if_pos (h.data_append_last hle)]
    rw [List.filter_append]
    rw [h.not_completed]
    rw [List.filter_cons_of_pos]
    . rfl
    . rw [hmore]
      exact haccepts
  | overflowed h =>
    rw [h.not_completed, if_neg (h.data_ne hpos)]
    rfl
  | tooLarge h =>
    rw [h.not_completed, if_neg (h.data_ne hpos)]
    rfl

theorem dequeue {p : Fifo.Request} {fs : Fifo.Fates} (h : Place p.kind seq pkt fs.before cs os ts)
    (hvalid : ∀ e ∈ fs.before, e.Valid) (hallowed : fs.Allowed p)
    : Place p.kind seq pkt fs.after (cs ++ fs.components p.kind) os (ts ++ fs.discarded) := by
  generalize hbefore : fs.before = es at h
  cases h with
  | queued h =>
    cases fs with
    | nil => simp [Fifo.Fates.before] at hbefore
    | cons ef fs =>
      obtain ⟨e, f⟩ := ef
      cases fs with
      | cons ef' fs => simp [Fifo.Fates.before] at hbefore
      | nil =>
        obtain ⟨rfl, _⟩ := hbefore
        have hle := (hvalid _ List.mem_cons_self).offset_le
        rw [Fifo.Fates.allowed_cons] at hallowed
        cases f with
        | kept => simpa [Fate.after, Fate.component, Fate.discarded] using Place.queued h
        | cut n =>
          have hn : _ + n < pkt.length := Nat.add_lt_of_lt_sub' hallowed.1.2
          simpa [Fate.after, Fate.component, Fate.discarded, Entry.advance] using Place.queued (h.cut hn)
        | sent => simpa [Fate.after, Fate.component, Fate.discarded,
          Entry.remaining] using Place.returned h hle
        | dropped => simpa [Fate.after, Fate.component, Fate.discarded,
          Entry.owned] using Place.tooLarge h
  | returned h hle =>
    have hnil : fs = [] := by simpa [Fifo.Fates.before] using hbefore
    simpa [hnil] using Place.returned h hle
  | overflowed h =>
    have hnil : fs = [] := by simpa [Fifo.Fates.before] using hbefore
    simpa [hnil] using Place.overflowed h
  | tooLarge h =>
    have hnil : fs = [] := by simpa [Fifo.Fates.before] using hbefore
    simpa [hnil] using Place.tooLarge h

theorem overflow {v : Entry} (h : Place kind seq pkt [v] cs os ts)
    : Place kind seq pkt [] cs (os ++ [v.owned]) ts := by
  cases h with
  | queued h => exact Place.overflowed h

end Place

namespace History

structure Inv (cfg : QueueConfig) (h : History) (es : List Entry) : Prop where
  holds : Holds h.queue es
  config : h.queue.toQueueConfig = cfg
  counter : h.queue.counter = h.enqueued.length
  depth : es.length ≤ cfg.queueDepth
  place : ∀ seq pkt, h.enqueued[seq]? = some pkt →
    Place cfg.kind seq pkt (withKey Entry.seq seq es) (h.componentsOf seq) (h.overflowedAt seq)
      (h.tooLargeAt seq)
  fresh : ∀ seq, h.enqueued.length ≤ seq →
    h.componentsOf seq = [] ∧ h.overflowedAt seq = [] ∧ h.tooLargeAt seq = []

theorem Inv.of_init (cfg : QueueConfig) : Inv cfg (init cfg) [] where
  holds := Holds.of_init cfg
  config := by rfl
  counter := by rfl
  depth := Nat.zero_le _
  place := by simp [init]
  fresh := by
    intro seq _
    exact ⟨rfl, rfl, rfl⟩

variable {cfg : QueueConfig} {h : History} {es : List Entry}

theorem Inv.seq_lt (hinv : Inv cfg h es)
    : ∀ e ∈ es, e.seq < h.enqueued.length := by
  rw [← hinv.counter]
  exact hinv.holds.fresh

theorem Inv.withKey_of_le (hinv : Inv cfg h es) {seq : Nat}
    (hseq : h.enqueued.length ≤ seq)
    : withKey Entry.seq seq es = [] := by
  apply withKey_eq_nil
  intro e he
  have := hinv.seq_lt e he
  omega

theorem Inv.data_of_queued (hinv : Inv cfg h es) {e : Entry}
    (he : e ∈ es)
    : h.enqueued[e.seq]? = some e.packet
        ∧ (h.componentsOf e.seq).flatMap MessageComponent.data = e.packet.bytes.take e.offset := by
  have hlt := hinv.seq_lt e he
  have hplace := hinv.place e.seq _ (List.getElem?_eq_getElem hlt)
  have hdata := hplace.data_of_queued (mem_withKey.mpr ⟨he, rfl⟩)
  rw [List.getElem?_eq_getElem hlt]
  rw [hdata.1]
  exact ⟨rfl, hdata.2⟩

theorem Inv.append {rest : List Entry} (hinv : Inv cfg h es)
    (hrest : ∀ e ∈ rest, e.seq < h.enqueued.length) {q' : Queue} {pkt : DownstreamPacket}
    (hholds : Holds q' (rest ++ [⟨h.queue.counter, pkt, 0, 0⟩]))
    (hconfig : q'.toQueueConfig = h.queue.toQueueConfig)
    (hcounter : q'.counter = h.queue.counter + 1) (hdepth : rest.length < cfg.queueDepth)
    (dropped : List OwnedPacket) (hdropped : ∀ d ∈ dropped, d.address < h.enqueued.length)
    (hplace : ∀ seq pkt, h.enqueued[seq]? = some pkt →
      Place cfg.kind seq pkt (withKey Entry.seq seq rest) (h.componentsOf seq)
        (h.overflowedAt seq ++ withKey OwnedPacket.address seq dropped) (h.tooLargeAt seq))
    : Inv cfg
        { h with queue := q', enqueued := h.enqueued ++ [pkt], overflowed := h.overflowed ++ dropped }
        (rest ++ [⟨h.queue.counter, pkt, 0, 0⟩]) := by
  have hnew := hinv.counter
  have hfreshDropped : ∀ seq, h.enqueued.length ≤ seq → withKey OwnedPacket.address seq dropped = [] := by
    intro seq hseq
    apply withKey_eq_nil
    intro d hd
    have := hdropped d hd
    omega
  constructor
  . exact hholds
  . rw [hconfig]
    exact hinv.config
  . simp [hcounter, hnew]
  . simp only [List.length_append, List.length_cons, List.length_nil]
    omega
  . intro seq pkt' hseq
    simp only [componentsOf, overflowedAt, tooLargeAt, withKey_append, withKey_cons, withKey_nil]
    by_cases hlt : seq < h.enqueued.length
    . rw [List.getElem?_append_left hlt] at hseq
      rw [if_neg (by omega)]
      rw [List.append_nil]
      exact hplace seq pkt' hseq
    . -- the new packet itself
      have hle : h.enqueued.length ≤ seq := Nat.le_of_not_lt hlt
      rw [List.getElem?_append_right hle] at hseq
      rw [List.getElem?_singleton] at hseq
      split at hseq
      . next hzero =>
        have hseq' : seq = h.queue.counter := by omega
        obtain ⟨hcomponents, hoverflowed, htooLarge⟩ := hinv.fresh seq hle
        unfold componentsOf at hcomponents
        unfold overflowedAt at hoverflowed
        unfold tooLargeAt at htooLarge
        have hrest' : withKey Entry.seq seq rest = [] := by
          apply withKey_eq_nil
          intro e he
          have := hrest e he
          omega
        rw [hcomponents, hoverflowed, htooLarge, hfreshDropped seq hle, hrest']
        rw [if_pos hseq'.symm]
        simp only [Option.some.injEq] at hseq
        rw [← hseq, ← hseq']
        exact Place.queued Fragments.nil
      . simp at hseq
  . intro seq hseq
    simp only [List.length_append, List.length_cons, List.length_nil] at hseq
    obtain ⟨hcomponents, hoverflowed, htooLarge⟩ := hinv.fresh seq (by omega)
    refine ⟨hcomponents, ?_, htooLarge⟩
    unfold overflowedAt at hoverflowed ⊢
    rw [withKey_append]
    rw [hoverflowed, hfreshDropped seq (by omega)]
    rfl

theorem Inv.enqueue {cfg : QueueConfig} {h : History} {es : List Entry} (hinv : Inv cfg h es)
    (hcfg : 0 < cfg.queueDepth) (pkt : DownstreamPacket)
    : ∃ h' rest,
        h.step (.enqueue pkt) = some h'
          ∧ Inv cfg h' (rest ++ [⟨h.enqueued.length, pkt, 0, 0⟩])
          ∧ (∀ e ∈ rest, e ∈ es)
          ∧ h'.enqueued = h.enqueued ++ [pkt]
          ∧ h'.components = h.components := by
  rw [← hinv.counter]
  have hdepth : h.queue.queueDepth = cfg.queueDepth := by rw [hinv.config]
  by_cases hfull : es.length = h.queue.queueDepth
  . obtain ⟨pre, v, post, q', hes, _, heq, hholds, hconfig, hcounter⟩ :=
      hinv.holds.enqueue_full (hdepth ▸ hcfg) hfull pkt
    have hrep : Rep h.queue (pre ++ v :: post) := hes ▸ hinv.holds.toRep
    have hmem : ∀ e ∈ pre ++ post, e ∈ es := by
      intro e he
      grind
    have hlt : ∀ e ∈ pre ++ post, e.seq < h.enqueued.length := fun e he => hinv.seq_lt e (hmem e he)
    refine ⟨_, _, ?_, hinv.append hlt hholds hconfig hcounter ?_ [v.owned] ?_ ?_, hmem, rfl, rfl⟩
    . simp [step, heq]
    . rw [hes] at hfull
      simp only [List.length_append, List.length_cons] at hfull ⊢
      omega
    . intro d hd
      rw [List.mem_singleton] at hd
      rw [hd]
      exact hinv.seq_lt v (by simp [hes])
    . intro seq pkt' hseq
      have hplace := hinv.place seq pkt' hseq
      rw [hes] at hplace
      rw [withKey_append, withKey_cons] at hplace
      rw [withKey_append, withKey_cons, withKey_nil]
      have howned : v.owned.address = v.seq := rfl
      rw [howned]
      by_cases hv : v.seq = seq
      . have hother : ∀ e ∈ pre ++ post, e.seq ≠ seq := hv ▸ hrep.seq_ne
        have hpre : withKey Entry.seq seq pre = [] := withKey_eq_nil (fun e he => hother e (by simp [he]))
        have hpost : withKey Entry.seq seq post = [] := withKey_eq_nil
          (fun e he => hother e (by simp [he]))
        rw [if_pos hv, hpre, hpost] at hplace
        rw [hpre, hpost, if_pos hv]
        exact hplace.overflow
      . rw [if_neg hv] at hplace
        rw [if_neg hv, List.append_nil]
        exact hplace
  . obtain ⟨heq, hholds⟩ := hinv.holds.enqueue_room hfull pkt
    have hle := hinv.depth
    refine ⟨_, _, ?_, hinv.append hinv.seq_lt hholds rfl rfl ?_ [] ?_ ?_, fun e he => he, rfl, rfl⟩
    . simp [step, heq]
    . omega
    . simp
    . intro seq pkt' hseq
      rw [withKey_nil, List.append_nil]
      exact hinv.place seq pkt' hseq

theorem Inv.dequeue (hinv : Inv cfg h es)
    (requestedBytes : Nat) (destination : NEMId) (drop : Bool)
    : let p := dequeue.request cfg requestedBytes destination drop
      let fs := Fifo.fates p es ⟨[], 0, []⟩
      ∃ r q',
        h.queue.dequeue requestedBytes destination drop = some (r, q')
          ∧ Inv cfg (h.dequeued r q') fs.after
          ∧ Fifo.Decomposes p es ⟨[], 0, []⟩ fs.after r fs := by
  intro p fs
  obtain ⟨q', heq, hholds, hconfig, hcounter, hfs⟩ := hinv.holds.dequeue requestedBytes destination drop
  rw [hinv.config] at heq hfs hholds
  refine ⟨_, q', heq, ?_, hfs⟩
  . constructor
    . exact hholds
    . rw [← hinv.config]
      exact hconfig
    . exact hcounter.trans hinv.counter
    . have hlength : fs.after.length ≤ fs.length := List.length_filterMap_le _ _
      have hbefore : fs.length = es.length := by
        rw [← hfs.before]
        simp [Fifo.Fates.before, fs, p]
      have := hinv.depth
      omega
    . intro seq pkt hseq
      have hplace := hinv.place seq pkt hseq
      rw [← hfs.before, Fifo.Fates.withKey_before] at hplace
      simp only [componentsOf, tooLargeAt, dequeued, withKey_append, hfs.components, hfs.dropped,
        List.nil_append]
      rw [Fifo.Fates.withKey_after, Fifo.Fates.withKey_components, Fifo.Fates.withKey_discarded]
      have hplace' : Place p.kind seq pkt (fs.of seq).before (h.componentsOf seq) (h.overflowedAt seq)
        (h.tooLargeAt seq) := hplace
      refine hplace'.dequeue ?_ ?_
      . intro e he
        apply hinv.holds.valid
        rw [← hfs.before]
        rw [← Fifo.Fates.withKey_before] at he
        exact (mem_withKey.mp he).1
      . intro ef hef
        exact hfs.allowed ef (mem_withKey.mp hef).1
    . intro seq hseq
      simp only [dequeued] at hseq
      obtain ⟨hcomponents, hoverflowed, htooLarge⟩ := hinv.fresh seq hseq
      have hnone : fs.of seq = [] := by
        apply withKey_eq_nil
        intro ef hef
        have := hinv.seq_lt ef.1 (by rw [← hfs.before]; exact List.mem_map_of_mem hef)
        omega
      simp only [componentsOf, overflowedAt, tooLargeAt, dequeued] at hcomponents hoverflowed htooLarge ⊢
      simp only [withKey_append, hfs.components, hfs.dropped, List.nil_append]
      rw [Fifo.Fates.withKey_components, Fifo.Fates.withKey_discarded]
      rw [hnone, hcomponents, hoverflowed, htooLarge]
      exact ⟨rfl, rfl, rfl⟩

theorem Inv.exists_step (hcfg : 0 < cfg.queueDepth) (h : History) (call : Call)
    (hinv : ∃ es, Inv cfg h es)
    : ∃ h', h.step call = some h' ∧ ∃ es', Inv cfg h' es' := by
  obtain ⟨es, hinv⟩ := hinv
  cases call with
  | enqueue pkt =>
    obtain ⟨h', rest, heq, hinv', _⟩ := hinv.enqueue hcfg pkt
    exact ⟨h', heq, _, hinv'⟩
  | dequeue requestedBytes destination drop =>
    obtain ⟨r, q', heq, hinv', _⟩ := hinv.dequeue requestedBytes destination drop
    refine ⟨h.dequeued r q', ?_, _, hinv'⟩
    simp [step, heq]

theorem Inv.exists_run (hcfg : 0 < cfg.queueDepth) (calls : List Call)
    : ∃ h, run History.step (init cfg) calls = some h ∧ ∃ es, Inv cfg h es := by
  apply run_total (fun h call hinv _ => Inv.exists_step hcfg h call hinv) ⟨[], Inv.of_init cfg⟩
  exact guarded_of_forall (fun call _ => trivial)

structure Sound (h : History) : Prop where
  -- the queues of the destinations partition the queue, which points to live packets only
  live : h.queue.entries.map Entry.seq = h.queue.queue.toList.map Prod.fst
  partition : ∀ dst,
    (h.queue.destQueueOf dst).toList
      =
    h.queue.queue.toList.filter (fun entry =>
      (h.queue.heap.read entry.2).any (fun cell => cell.packet.info.destination = dst))
  depth : h.queue.queue.size ≤ max h.queue.queueDepth 1
  currentBytes : h.queue.currentBytes
    = (h.queue.entries.map (fun e => (e.packet.length - e.offset : Int))).sum
  nonneg : 0 ≤ h.queue.currentBytes
  offset_le : ∀ e ∈ h.queue.entries, e.offset ≤ e.packet.length
  index_pos : ∀ e ∈ h.queue.entries, 0 < e.offset → 0 < e.index
  -- every packet is in exactly one place and nothing but packets that have been enqueued is anywhere
  places : ∀ seq, h.places seq = if seq < h.enqueued.length then 1 else 0
  queued : ∀ e ∈ h.queue.entries,
    h.enqueued[e.seq]? = some e.packet
      ∧ (h.componentsOf e.seq).flatMap MessageComponent.data = e.packet.bytes.take e.offset
  returned : ∀ seq, h.returnedAt seq ≠ [] →
    h.enqueued[seq]?.map DownstreamPacket.bytes = some
      ((h.componentsOf seq).flatMap MessageComponent.data)
  dropped : ∀ d ∈ h.overflowed ++ h.tooLarge, h.enqueued[d.address]? = some d.packet

theorem Inv.sound (hinv : Inv cfg h es) : h.Sound := by
  have hentries := hinv.holds.entries_eq
  have hqueued : ∀ seq, h.queuedAt seq = withKey Entry.seq seq es := by
    intro seq
    unfold queuedAt
    rw [hentries]
  constructor
  . rw [hentries, hinv.holds.queue]
    simp [keyOf, Function.comp_def]
  . intro dst
    rw [hinv.holds.dest, hinv.holds.queue]
    rw [List.filter_map]
    congr 1
    apply List.filter_congr
    intro e he
    simp [keyOf, cellOf, hinv.holds.heap e he]
  . rw [hinv.holds.size_eq, hinv.config]
    have := hinv.depth
    omega
  . rw [hentries, hinv.holds.currentBytes]
    exact Fifo.bytes_eq_sum hinv.holds.valid
  . rw [hinv.holds.currentBytes]
    omega
  . intro e he
    rw [hentries] at he
    exact (hinv.holds.valid e he).offset_le
  . intro e he hpos
    rw [hentries] at he
    exact ((hinv.holds.valid e he).started hpos).2
  . intro seq
    unfold places returnedAt
    rw [hqueued]
    split
    . next hlt => exact (hinv.place seq _ (List.getElem?_eq_getElem hlt)).count
    . next hlt =>
      have hle : h.enqueued.length ≤ seq := Nat.le_of_not_lt hlt
      have hnone := hinv.fresh seq hle
      rw [hinv.withKey_of_le hle, hnone.1, hnone.2.1, hnone.2.2]
      rfl
  . intro e he
    rw [hentries] at he
    exact hinv.data_of_queued he
  . intro seq hreturned
    by_cases hlt : seq < h.enqueued.length
    . have hplace := hinv.place seq _ (List.getElem?_eq_getElem hlt)
      rw [List.getElem?_eq_getElem hlt]
      rw [hplace.data_of_returned hreturned]
      rfl
    . have hnone := hinv.fresh seq (Nat.le_of_not_lt hlt)
      unfold returnedAt at hreturned
      rw [hnone.1] at hreturned
      simp at hreturned
  . intro d hd
    rw [List.mem_append] at hd
    have hmem : d ∈ h.overflowedAt d.address ∨ d ∈ h.tooLargeAt d.address := by
      cases hd with
      | inl hd => exact Or.inl (mem_withKey.mpr ⟨hd, rfl⟩)
      | inr hd => exact Or.inr (mem_withKey.mpr ⟨hd, rfl⟩)
    by_cases hlt : d.address < h.enqueued.length
    . have hplace := hinv.place d.address _ (List.getElem?_eq_getElem hlt)
      rw [List.getElem?_eq_getElem hlt]
      rw [hplace.packet_of_dropped hmem]
    . have hnone := hinv.fresh d.address (Nat.le_of_not_lt hlt)
      rw [hnone.2.1, hnone.2.2] at hmem
      simp at hmem

theorem run_of_depth_zero (hcfg : cfg.queueDepth = 0) (pkt : DownstreamPacket)
    : run step (init cfg) [.enqueue pkt] = none := by
  have hnone := (Holds.of_init cfg).enqueue_of_depth_zero hcfg pkt
  simp only [run_cons, step, init]
  rw [hnone]
  rfl

theorem sound_iff (cfg : QueueConfig)
    : (∀ calls, ∃ h, run step (init cfg) calls = some h ∧ h.Sound) ↔ 0 < cfg.queueDepth := by
  constructor
  . intro hall
    apply Nat.pos_of_ne_zero
    intro hzero
    obtain ⟨h, hrun, _⟩ := hall [.enqueue ⟨⟨0, 0, 0, 0, 0⟩, []⟩]
    rw [run_of_depth_zero hzero] at hrun
    simp at hrun
  . intro hcfg calls
    obtain ⟨h, hrun, es, hinv⟩ := Inv.exists_run hcfg calls
    exact ⟨h, hrun, hinv.sound⟩

theorem not_sound_of_depth_zero
    : ¬ ∃ h, run step (init ⟨0, true, true, false⟩) [.enqueue ⟨⟨1, 2, 0, 0, 0⟩, [[97]]⟩] = some h
        ∧ h.Sound := by
  rw [run_of_depth_zero rfl]
  simp

end History
end Queue
end Tdma
end Emane

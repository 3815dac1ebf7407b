import Emane.Tdma.Lemmas.Fifo
import Emane.Tdma.Lemmas.Fragment

/-!
This module contains the proof that the two maps of the packet queue and the packets they point to
implement a single list of entries: `Rep` relates the two and every operation keeps it.
-/

namespace Emane
namespace Tdma
namespace Queue

def keyOf (e : Entry) : Nat × Nat :=
  (e.seq, e.seq)

def cellOf (e : Entry) : Cell :=
  ⟨e.packet, ⟨e.index, e.offset⟩⟩

structure Rep (q : Queue) (es : List Entry) : Prop where
  queue : q.queue.toList = es.map keyOf
  heap : ∀ e ∈ es, q.heap.read e.seq = some (cellOf e)
  next : q.heap.next = q.counter
  fresh : ∀ e ∈ es, e.seq < q.counter
  dest : ∀ dst, (q.destQueueOf dst).toList = (es.filter (fun e => e.destination = dst)).map keyOf

namespace Rep

theorem of_init (cfg : QueueConfig) : Rep (init cfg) [] where
  queue := by rfl
  heap := by simp
  next := by rfl
  fresh := by simp
  dest := by
    intro dst
    rfl

variable {q : Queue} {es : List Entry}

theorem pairwise (h : Rep q es)
    : es.Pairwise (fun a b => a.seq < b.seq) := by
  have := q.queue.sorted
  rw [h.queue, List.pairwise_map] at this
  exact this

theorem size_eq (h : Rep q es) : q.queue.size = es.length := by
  unfold SortedMap.size
  rw [h.queue]
  rw [List.length_map]

variable {pre post : List Entry} {e : Entry}

theorem seq_ne (h : Rep q (pre ++ e :: post))
    : ∀ e' ∈ pre ++ post, e'.seq ≠ e.seq := by
  intro e' he'
  have hp := h.pairwise
  rw [List.pairwise_append, List.pairwise_cons] at hp
  rw [List.mem_append] at he'
  cases he' with
  | inl hpre => exact Nat.ne_of_lt (hp.2.2 e' hpre e (by simp))
  | inr hpost => exact Nat.ne_of_gt (hp.2.1.1 e' hpost)

theorem filter_seq_ne (h : Rep q (pre ++ e :: post))
    : (pre ++ e :: post).filter (fun e' => e'.seq ≠ e.seq) = pre ++ post := by
  have hne := h.seq_ne
  rw [List.filter_append]
  rw [List.filter_cons_of_neg (by simp)]
  rw [← List.filter_append]
  rw [List.filter_eq_self]
  intro e' he'
  simpa using hne e' he'

theorem filter_keyOf (es : List Entry) (seq : Nat)
    : (es.map keyOf).filter (fun k => k.1 ≠ seq) = (es.filter (fun e => e.seq ≠ seq)).map keyOf := by
  rw [List.filter_map]
  rfl

theorem destQueueOf_set (q : Queue) (dst dst' : NEMId) (pq : PacketQueue)
    : ((q.destQueue.set dst pq).find? dst').getD .empty =
        if dst' = dst then pq else q.destQueueOf dst' := by
  rw [SortedMap.find?_set]
  split
  . rfl
  . rfl

theorem remove (h : Rep q (pre ++ e :: post))
    : Rep (q.remove e.destination e.seq e.seq) (pre ++ post) where
  queue := by
    simp only [Queue.remove, SortedMap.toList_erase]
    rw [h.queue]
    rw [filter_keyOf]
    rw [h.filter_seq_ne]
  heap := by
    intro e' he'
    simp only [Queue.remove]
    rw [Heap.read_free]
    rw [if_neg (h.seq_ne e' he')]
    apply h.heap
    grind
  next := h.next
  fresh := by
    intro e' he'
    apply h.fresh
    grind
  dest := by
    intro dst
    simp only [Queue.remove, Queue.destQueueOf]
    rw [destQueueOf_set]
    split
    . next hdst =>
      subst hdst
      rw [SortedMap.toList_erase]
      have := h.dest e.destination
      unfold destQueueOf at this
      rw [this]
      rw [filter_keyOf]
      rw [← h.filter_seq_ne]
      rw [List.filter_filter, List.filter_filter]
      simp only [Bool.and_comm]
    . next hdst =>
      rw [h.dest dst]
      rw [List.filter_append, List.filter_append]
      rw [List.filter_cons_of_neg]
      simpa using Ne.symm hdst

theorem write (h : Rep q (pre ++ e :: post))
    (index offset : Nat)
    : Rep { q with heap := q.heap.write e.seq ⟨e.packet, ⟨index, offset⟩⟩ }
        (pre ++ { e with index := index, offset := offset } :: post) where
  queue := by
    rw [h.queue]
    simp [keyOf]
  heap := by
    intro e' he'
    rw [Heap.read_write]
    by_cases heq : e' = { e with index := index, offset := offset }
    . subst heq
      simp [cellOf]
    . have hmem : e' ∈ pre ++ post := by
        grind
      rw [if_neg (h.seq_ne e' hmem)]
      apply h.heap
      grind
  next := h.next
  fresh := by
    intro e' he'
    have := h.fresh
    simp only [List.mem_append, List.mem_cons] at he' this
    rcases he' with he' | he' | he'
    . exact this e' (Or.inl he')
    . rw [he']
      exact this e (Or.inr (Or.inl rfl))
    . exact this e' (Or.inr (Or.inr he'))
  dest := by
    intro dst
    have := h.dest dst
    simp only [destQueueOf] at this ⊢
    rw [this]
    rw [List.filter_append, List.filter_append]
    by_cases hdst : e.destination = dst
    . rw [List.filter_cons_of_pos (by simpa using hdst)]
      rw [List.filter_cons_of_pos (by simpa using hdst)]
      simp [keyOf]
    . rw [List.filter_cons_of_neg (by simpa using hdst)]
      rw [List.filter_cons_of_neg (by simpa using hdst)]

theorem append (h : Rep q es) (pkt : DownstreamPacket)
    : Rep (q.append pkt) (es ++ [⟨q.counter, pkt, 0, 0⟩]) where
  queue := by
    simp only [Queue.append]
    rw [SortedMap.toList_insert_of_forall_lt]
    . rw [h.queue]
      simp [keyOf, h.next]
    . intro k hk
      rw [h.queue, List.mem_map] at hk
      obtain ⟨e, he, rfl⟩ := hk
      exact h.fresh e he
  heap := by
    intro e he
    simp only [Queue.append]
    rw [Heap.read_alloc]
    rw [List.mem_append, List.mem_singleton] at he
    rcases he with he | he
    . have := h.fresh e he
      rw [if_neg (by rw [h.next]; omega)]
      exact h.heap e he
    . subst he
      simp [h.next, cellOf]
  next := by
    simp [Queue.append, h.next]
  fresh := by
    intro e he
    simp only [Queue.append]
    rw [List.mem_append, List.mem_singleton] at he
    rcases he with he | he
    . have := h.fresh e he
      omega
    . subst he
      simp
  dest := by
    intro dst
    simp only [Queue.append, destQueueOf]
    rw [destQueueOf_set]
    have hdest := h.dest dst
    split
    . next hdst =>
      subst hdst
      rw [SortedMap.toList_insert_of_forall_lt]
      . unfold destQueueOf at hdest
        rw [hdest]
        simp [Entry.destination, keyOf, h.next]
      . intro k hk
        unfold destQueueOf at hdest
        rw [hdest, List.mem_map] at hk
        obtain ⟨e, he, rfl⟩ := hk
        exact h.fresh e (List.mem_of_mem_filter he)
    . next hdst =>
      rw [hdest]
      rw [List.filter_append]
      rw [List.filter_cons_of_neg (by simpa using Ne.symm hdst)]
      simp

theorem front (h : Rep q es) (destination : NEMId)
    : dequeue.front q destination
        =
      (es.find? (Entry.selectedBy destination)).map keyOf := by
  unfold dequeue.front
  split
  . next hd =>
    have hfirst : (q.destQueue.find? destination).bind SortedMap.first?
        = (q.destQueueOf destination).toList.head? := by
      unfold destQueueOf
      cases q.destQueue.find? destination with
      | none => rfl
      | some pq => rfl
    rw [hfirst]
    rw [h.dest]
    rw [List.head?_map]
    rw [List.head?_filter]
    congr 2
    funext e
    simp [Entry.selectedBy, hd]
  . next hd =>
    simp only [ne_eq, not_not] at hd
    unfold SortedMap.first?
    rw [h.queue]
    cases es with
    | nil => rfl
    | cons e es => simp [Entry.selectedBy, hd]

end Rep

namespace dequeue

def request (cfg : QueueConfig) (requestedBytes : Nat) (destination : NEMId) (drop : Bool)
    : Fifo.Request where
  kind := cfg.kind
  fragment := cfg.fragment
  aggregate := cfg.aggregate
  requestedBytes := requestedBytes
  destination := destination
  drop := drop

def Result.droppedBytes (r : Result) : Nat :=
  (r.dropped.map (fun d => d.packet.length)).sum

structure Keeps (q q' : Queue) (r r' : Result) : Prop where
  config : q'.toQueueConfig = q.toQueueConfig
  counter : q'.counter = q.counter
  currentBytes : q'.currentBytes + r'.droppedBytes = q.currentBytes + r.droppedBytes

theorem Keeps.refl (q : Queue) (r : Result) : Keeps q q r r := by
  constructor
  . rfl
  . rfl
  . rfl

theorem Keeps.trans {q q' q'' : Queue} {r r' r'' : Result} (h : Keeps q q' r r')
    (h' : Keeps q' q'' r' r'')
    : Keeps q q'' r r'' := by
  constructor
  . rw [h'.config, h.config]
  . rw [h'.counter, h.counter]
  . rw [h'.currentBytes, h.currentBytes]

section

variable {q : Queue} {pre post : List Entry} {e : Entry} {destination : NEMId} {requestedBytes : Nat}
  {drop : Bool} {r : Result}

theorem dst_eq (hdest : destination ≠ 0 → e.destination = destination)
    : (if destination ≠ 0 then destination else e.packet.info.destination) = e.destination := by
  split
  . next hd => exact (hdest hd).symm
  . rfl

theorem turn_of_fits (drop : Bool) (h : Rep q (pre ++ e :: post))
    (hfront : front q destination = some (keyOf e))
    (hdest : destination ≠ 0 → e.destination = destination) (hvalid : e.Valid)
    (hfits : e.remaining ≤ requestedBytes - r.totalBytes)
    : turn q requestedBytes destination drop r
        =
      some (
        if q.aggregate then
          .next (q.remove e.destination e.seq e.seq)
            (Fifo.push r (e.component q.kind e.remaining) e.remaining)
        else
          .done (q.remove e.destination e.seq e.seq)
            (Fifo.push r (e.component q.kind e.remaining) e.remaining)
      ) := by
  have hread := h.heap e (by simp)
  have hoff := hvalid.offset_le
  unfold Entry.remaining at hfits ⊢
  unfold turn
  rw [hfront]
  simp only [keyOf, hread, Option.bind_eq_bind, Option.bind_some, cellOf, dst_eq hdest, hfits, ↓reduceIte]
  by_cases hzero : e.offset = 0
  . simp [hzero, wholePacket, Fifo.push, Entry.component, ← DownstreamPacket.length_bytes]
  . have hstarted := hvalid.started (Nat.pos_of_ne_zero hzero)
    have hmin : min (requestedBytes - r.totalBytes) (e.packet.length - e.offset)
        = e.packet.length - e.offset := by omega
    rw [fragmentPacket_eq _ _ _ _ _ hoff (by simp only; omega)]
    have htake : (e.packet.bytes.drop e.offset).take (requestedBytes - r.totalBytes)
        = (e.packet.bytes.drop e.offset).take (e.packet.length - e.offset) := by
      rw [List.take_of_length_le, List.take_of_length_le]
      . rw [List.length_drop, DownstreamPacket.length_bytes]
      . rw [List.length_drop, DownstreamPacket.length_bytes]
        omega
    simp [hzero, hmin, htake, Fifo.push, Entry.component]

theorem turn_of_fragment (drop : Bool) (h : Rep q (pre ++ e :: post))
    (hfront : front q destination = some (keyOf e))
    (hvalid : e.Valid) (hfits : ¬ e.remaining ≤ requestedBytes - r.totalBytes) (hfrag : q.fragment = true)
    : turn q requestedBytes destination drop r
        =
      some (
        .done
          { q with heap := q.heap.write e.seq (cellOf (e.advance (requestedBytes - r.totalBytes))) }
          (Fifo.push r (e.component q.kind (requestedBytes - r.totalBytes))
            (requestedBytes - r.totalBytes))
      ) := by
  have hread := h.heap e (by simp)
  have hoff := hvalid.offset_le
  unfold Entry.remaining at hfits
  have hmin : min (requestedBytes - r.totalBytes) (e.packet.length - e.offset)
      = requestedBytes - r.totalBytes := by omega
  unfold turn
  rw [hfront]
  simp only [keyOf, hread, Option.bind_eq_bind, Option.bind_some, cellOf, hfits, hfrag, ↓reduceIte]
  rw [fragmentPacket_eq _ _ _ _ _ hoff (by simp only; omega)]
  simp [hmin, Fifo.push, Entry.component, Entry.advance]

theorem turn_of_discard (h : Rep q (pre ++ e :: post)) (hfront : front q destination = some (keyOf e))
    (hdest : destination ≠ 0 → e.destination = destination)
    (hfits : ¬ e.remaining ≤ requestedBytes - r.totalBytes) (hfrag : q.fragment = false)
    (hdrop : drop && r.components.isEmpty)
    : turn q requestedBytes destination drop r
        =
      some (
        .next
          { q.remove e.destination e.seq e.seq with currentBytes := q.currentBytes - e.packet.length }
          (Fifo.discard r e)
      ) := by
  have hread := h.heap e (by simp)
  unfold Entry.remaining at hfits
  unfold turn
  rw [hfront]
  simp only [keyOf, hread, Option.bind_eq_bind, Option.bind_some, cellOf, dst_eq hdest, hfits,
    hfrag, hdrop,
    ↓reduceIte, Bool.false_eq_true]
  rfl

theorem turn_of_stop (h : Rep q (pre ++ e :: post)) (hfront : front q destination = some (keyOf e))
    (hfits : ¬ e.remaining ≤ requestedBytes - r.totalBytes) (hfrag : q.fragment = false)
    (hdrop : ¬ (drop && r.components.isEmpty))
    : turn q requestedBytes destination drop r = some (.done q r) := by
  have hread := h.heap e (by simp)
  unfold Entry.remaining at hfits
  unfold turn
  rw [hfront]
  simp only [keyOf, hread, Option.bind_eq_bind, Option.bind_some, cellOf, hfits, hfrag, hdrop,
    ↓reduceIte, Bool.false_eq_true]
  rfl

theorem loop_of_next {q' : Queue} {r' : Result} (hr : r.totalBytes ≤ requestedBytes)
    (h : turn q requestedBytes destination drop r = some (.next q' r')) (fuel : Nat)
    : loop requestedBytes destination drop (fuel + 1) q r
        = loop requestedBytes destination drop fuel q' r' := by
  simp [loop, hr, h]

theorem loop_of_done {q' : Queue} {r' : Result} (hr : r.totalBytes ≤ requestedBytes)
    (h : turn q requestedBytes destination drop r = some (.done q' r')) (fuel : Nat)
    : loop requestedBytes destination drop (fuel + 1) q r = some (q', r') := by
  simp [loop, hr, h]

end

theorem loop_eq (requestedBytes : Nat) (destination : NEMId) (drop : Bool)
    (es pre : List Entry) (q : Queue)
    (r : Result) (fuel : Nat) (h : Rep q (pre ++ es)) (hvalid : ∀ e ∈ es, e.Valid)
    (hpre : ∀ e ∈ pre, ¬ e.selectedBy destination)
    (hr : r.totalBytes ≤ requestedBytes) (hfuel : es.length < fuel)
    : ∃ q',
        loop requestedBytes destination drop fuel q r
          =
        some (q', (Fifo.dequeue (request q.toQueueConfig requestedBytes destination drop) es r).2)
          ∧ Rep q' (pre
            ++ (Fifo.dequeue (request q.toQueueConfig requestedBytes destination drop) es r).1)
          ∧ Keeps q q' r
              (Fifo.dequeue (request q.toQueueConfig requestedBytes destination drop) es r).2 := by
  induction es generalizing pre q r fuel with
  | nil =>
    cases fuel with
    | zero => simp at hfuel
    | succ fuel =>
      have hfront := h.front destination
      rw [List.append_nil] at hfront
      rw [List.find?_eq_none.mpr hpre] at hfront
      refine ⟨q, ?_, h, Keeps.refl _ _⟩
      apply loop_of_done hr
      simp [turn, hfront, Fifo.dequeue]
  | cons e es ih =>
    have hvalid' : ∀ e' ∈ es, e'.Valid := fun e' he' => hvalid e' (by simp [he'])
    by_cases hsel : e.selectedBy destination
    . cases fuel with
      | zero => simp at hfuel
      | succ fuel =>
        have hfuel' : es.length < fuel := by simpa using hfuel
        have hfront := h.front destination
        rw [List.find?_append] at hfront
        rw [List.find?_eq_none.mpr hpre] at hfront
        rw [List.find?_cons_of_pos hsel] at hfront
        have hdest : destination ≠ 0 → e.destination = destination := by
          intro hd
          simpa [Entry.selectedBy, hd] using hsel
        by_cases hfits : e.remaining ≤ requestedBytes - r.totalBytes
        . have hturn := turn_of_fits drop h hfront hdest (hvalid e (by simp)) hfits
          have hkeeps : Keeps q (q.remove e.destination e.seq e.seq) r
              (Fifo.push r (e.component q.kind e.remaining) e.remaining) := by
            constructor
            . rfl
            . rfl
            . rfl
          by_cases hagg : q.aggregate = true
          . rw [if_pos hagg] at hturn
            rw [loop_of_next hr hturn]
            rw [Fifo.dequeue_of_aggregate hsel hfits hagg]
            obtain ⟨q', hloop, hrep, hkeeps'⟩ := ih pre (q.remove e.destination e.seq e.seq)
              (Fifo.push r (e.component q.kind e.remaining) e.remaining) fuel h.remove hvalid' hpre
              (by simp only [Fifo.push]; omega) hfuel'
            exact ⟨q', hloop, hrep, hkeeps.trans hkeeps'⟩
          . rw [if_neg hagg] at hturn
            rw [Bool.not_eq_true] at hagg
            rw [loop_of_done hr hturn]
            rw [Fifo.dequeue_of_not_aggregate hsel hfits hagg]
            exact ⟨q.remove e.destination e.seq e.seq, rfl, h.remove, hkeeps⟩
        . by_cases hfrag : q.fragment = true
          . have hturn := turn_of_fragment drop h hfront (hvalid e (by simp)) hfits hfrag
            rw [loop_of_done hr hturn]
            rw [Fifo.dequeue_of_fragment hsel hfits hfrag]
            refine ⟨_, rfl, h.write _ _, ?_⟩
            constructor
            . rfl
            . rfl
            . rfl
          . rw [Bool.not_eq_true] at hfrag
            by_cases hdrop : drop && r.components.isEmpty
            . have hturn := turn_of_discard h hfront hdest hfits hfrag hdrop
              rw [loop_of_next hr hturn]
              rw [Fifo.dequeue_of_discard hsel hfits hfrag hdrop]
              have hkeeps : Keeps q
                  { q.remove e.destination e.seq e.seq with currentBytes :=
                    q.currentBytes - e.packet.length }
                  r (Fifo.discard r e) := by
                constructor
                . rfl
                . rfl
                . simp only [Fifo.discard, Result.droppedBytes, Entry.owned, List.map_append,
                    List.map_cons,
                    List.map_nil, List.sum_append, List.sum_cons, List.sum_nil]
                  omega
              obtain ⟨q', hloop, hrep, hkeeps'⟩ := ih pre
                { q.remove e.destination e.seq e.seq with currentBytes :=
                  q.currentBytes - e.packet.length }
                (Fifo.discard r e) fuel { h.remove with } hvalid' hpre hr hfuel'
              exact ⟨q', hloop, hrep, hkeeps.trans hkeeps'⟩
            . have hturn := turn_of_stop h hfront hfits hfrag hdrop
              rw [loop_of_done hr hturn]
              rw [Fifo.dequeue_of_stop hsel hfits hfrag hdrop]
              exact ⟨q, rfl, h, Keeps.refl _ _⟩
    . rw [Fifo.dequeue_of_not_selected hsel]
      have hpre' : ∀ e' ∈ pre ++ [e], ¬ e'.selectedBy destination := by
        intro e' he'
        rw [List.mem_append, List.mem_singleton] at he'
        cases he' with
        | inl he' => exact hpre e' he'
        | inr he' => exact he' ▸ hsel
      obtain ⟨q', hloop, hrep, hkeeps⟩ := ih (pre ++ [e]) q r fuel (by simpa using h) hvalid' hpre' hr
        (by simp only [List.length_cons] at hfuel; omega)
      refine ⟨q', hloop, ?_, hkeeps⟩
      simpa using hrep

end dequeue

variable {q : Queue} {es : List Entry}

theorem dequeue_eq (h : Rep q es) (hvalid : ∀ e ∈ es, e.Valid)
    (requestedBytes : Nat) (destination : NEMId) (drop : Bool)
    : let res := Fifo.dequeue (dequeue.request q.toQueueConfig requestedBytes destination drop)
        es ⟨[], 0, []⟩
      ∃ q',
        q.dequeue requestedBytes destination drop = some (res.2, q')
          ∧ Rep q' res.1
          ∧ q'.toQueueConfig = q.toQueueConfig
          ∧ q'.counter = q.counter
          ∧ q'.currentBytes + res.2.totalBytes + res.2.droppedBytes = q.currentBytes := by
  intro res
  have hfuel : es.length < q.queue.size + 1 := by
    rw [h.size_eq]
    omega
  obtain ⟨q', hloop, hrep, hkeeps⟩ := dequeue.loop_eq requestedBytes destination drop es [] q ⟨[], 0, []⟩
    (q.queue.size + 1) h hvalid (by simp) (Nat.zero_le _) hfuel
  refine ⟨{ q' with currentBytes := q'.currentBytes - res.2.totalBytes }, ?_, { hrep with },
    hkeeps.config, hkeeps.counter, ?_⟩
  . unfold dequeue
    rw [hloop]
    rfl
  . have hbytes : q'.currentBytes + res.2.droppedBytes = q.currentBytes + (0 : Nat) := hkeeps.currentBytes
    change q'.currentBytes - res.2.totalBytes + res.2.totalBytes + res.2.droppedBytes = q.currentBytes
    omega

inductive Victim : List Entry → Entry → List Entry → Prop where
  | unfragmented {pre post : List Entry} {e : Entry} (hpre : ∀ e' ∈ pre, e'.index ≠ 0) (he : e.index = 0)
    : Victim pre e post
  | oldest {post : List Entry} {e : Entry} (hpost : ∀ e' ∈ e :: post, e'.index ≠ 0) : Victim [] e post

theorem firstUnfragmented_eq (heap : Heap Cell) (es : List Entry)
    (h : ∀ e ∈ es, heap.read e.seq = some (cellOf e))
    : firstUnfragmented heap (es.map keyOf) = some ((es.find? (fun e => e.index = 0)).map keyOf) := by
  induction es with
  | nil => rfl
  | cons e es ih =>
    have hread := h e (by simp)
    have ih := ih (fun e' he' => h e' (by simp [he']))
    simp only [List.map_cons, firstUnfragmented]
    rw [show (keyOf e).2 = e.seq from rfl]
    rw [hread]
    by_cases hindex : e.index = 0
    . simp [cellOf, hindex]
    . simp [cellOf, hindex, ih]

theorem exists_victim (e : Entry) (es : List Entry)
    : ∃ pre v post,
        e :: es = pre ++ v :: post
          ∧ Victim pre v post
          ∧ (((e :: es).find? (fun e => e.index = 0)).map keyOf).getD (keyOf e) = keyOf v := by
  cases hfind : (e :: es).find? (fun e => e.index = 0) with
  | none =>
    rw [List.find?_eq_none] at hfind
    refine ⟨[], e, es, rfl, ?_, rfl⟩
    apply Victim.oldest
    intro e' he'
    simpa using hfind e' he'
  | some v =>
    rw [List.find?_eq_some_iff_append] at hfind
    obtain ⟨hindex, pre, post, heq, hpre⟩ := hfind
    refine ⟨pre, v, post, heq, ?_, rfl⟩
    apply Victim.unfragmented
    . intro e' he'
      simpa using hpre e' he'
    . simpa using hindex

theorem discardOverflow_eq {e : Entry} (h : Rep q (e :: es))
    : ∃ pre v post,
        e :: es = pre ++ v :: post
          ∧ Victim pre v post
          ∧ q.discardOverflow
          =
        some (
          v.owned,
          { q.remove v.destination v.seq v.seq with
            currentBytes := q.currentBytes - (v.packet.length - v.offset : Int) }
        ) := by
  obtain ⟨pre, v, post, heq, hvictim, hkey⟩ := exists_victim e es
  refine ⟨pre, v, post, heq, hvictim, ?_⟩
  have hread := h.heap v (by simp [heq])
  have hfirst : q.queue.first? = some (keyOf e) := by
    unfold SortedMap.first?
    rw [h.queue]
    rfl
  unfold discardOverflow
  rw [hfirst, h.queue, firstUnfragmented_eq q.heap (e :: es) h.heap]
  simp only [Option.bind_eq_bind, Option.bind_some]
  rw [hkey]
  simp only [keyOf, hread, Option.bind_some, cellOf]
  rfl

theorem enqueue_of_room (h : Rep q es) (hroom : es.length ≠ q.queueDepth)
    (pkt : DownstreamPacket)
    : q.enqueue pkt = some (none, q.append pkt) := by
  unfold enqueue
  rw [h.size_eq]
  rw [if_neg hroom]
  rfl

theorem enqueue_of_full {e : Entry} (h : Rep q (e :: es))
    (hfull : (e :: es).length = q.queueDepth) (pkt : DownstreamPacket)
    : ∃ pre v post q',
        e :: es = pre ++ v :: post
          ∧ Victim pre v post
          ∧ q.enqueue pkt = some (some v.owned, q'.append pkt)
          ∧ Rep q' (pre ++ post)
          ∧ q'.toQueueConfig = q.toQueueConfig
          ∧ q'.counter = q.counter
          ∧ q'.currentBytes = q.currentBytes - (v.packet.length - v.offset : Int) := by
  obtain ⟨pre, v, post, heq, hvictim, hdiscard⟩ := discardOverflow_eq h
  have hremove : Rep (q.remove v.destination v.seq v.seq) (pre ++ post) := by
    apply Rep.remove
    rw [← heq]
    exact h
  refine ⟨pre, v, post,
    { q.remove v.destination v.seq v.seq with
      currentBytes := q.currentBytes - (v.packet.length - v.offset : Int) },
    heq, hvictim, ?_, { hremove with }, rfl, rfl, rfl⟩
  unfold enqueue
  rw [h.size_eq]
  rw [if_pos hfull]
  rw [hdiscard]
  rfl

end Queue
end Tdma
end Emane

import Mathlib.Algebra.Ring.Int.Defs
import Emane.Tdma.Impl.Queue
import Emane.Lib.Machine
import Emane.Lib.KeyedList

/-!
This module contains what the downstream packet queue is for: a list of packets in the order of
their arrival. A dequeue walks over the list once and takes what its destination selects.
-/

namespace Emane
namespace Tdma

structure Entry where
  seq : Nat
  packet : DownstreamPacket
  index : Nat
  offset : Nat
  deriving DecidableEq

namespace Entry

abbrev destination (e : Entry) : NEMId :=
  e.packet.info.destination

def selectedBy (destination : NEMId) (e : Entry) : Bool :=
  destination = 0 || e.destination = destination

def remaining (e : Entry) : Nat :=
  e.packet.length - e.offset

def component (kind : MessageComponent.Kind) (e : Entry) (n : Nat) : MessageComponent where
  type := kind
  destination := e.packet.info.destination
  priority := e.packet.info.priority
  data := (e.packet.bytes.drop e.offset).take n
  fragmentIndex := e.index
  fragmentOffset := e.offset
  fragmentSequence := e.seq
  moreFragments := e.offset + n ≠ e.packet.length

def advance (e : Entry) (n : Nat) : Entry :=
  { e with index := e.index + 1, offset := e.offset + n }

def owned (e : Entry) : OwnedPacket :=
  ⟨e.seq, e.packet⟩

structure Valid (e : Entry) : Prop where
  offset_le : e.offset ≤ e.packet.length
  started : 0 < e.offset → e.offset < e.packet.length ∧ 0 < e.index

theorem Valid.of_new (seq : Nat) (pkt : DownstreamPacket) : Valid ⟨seq, pkt, 0, 0⟩ where
  offset_le := Nat.zero_le _
  started := by simp

theorem Valid.advance {e : Entry} (h : e.Valid) {n : Nat} (hn : n < e.remaining)
    : (e.advance n).Valid := by
  have := h.offset_le
  unfold remaining at hn
  constructor
  . simp only [Entry.advance]
    omega
  . intro _
    simp only [Entry.advance]
    omega

theorem size_component (kind : MessageComponent.Kind) (e : Entry) {n : Nat} (hn : n ≤ e.remaining)
    : (e.component kind n).size = n := by
  unfold remaining at hn
  simp only [component, MessageComponent.size, List.length_take, List.length_drop]
  rw [DownstreamPacket.length_bytes]
  omega

theorem moreFragments_of_lt (kind : MessageComponent.Kind) {e : Entry} {n : Nat} (hn : n < e.remaining)
    : (e.component kind n).moreFragments = true := by
  unfold remaining at hn
  have hne : e.offset + n ≠ e.packet.length := by omega
  simp [component, hne]

theorem moreFragments_of_remaining (kind : MessageComponent.Kind) {e : Entry}
    (h : e.offset ≤ e.packet.length)
    : (e.component kind e.remaining).moreFragments = false := by
  have heq : e.offset + (e.packet.length - e.offset) = e.packet.length := by omega
  simp [component, remaining, heq]

end Entry

namespace Fifo

def bytes (es : List Entry) : Nat :=
  (es.map Entry.remaining).sum

structure Request where
  kind : MessageComponent.Kind
  fragment : Bool
  aggregate : Bool
  requestedBytes : Nat
  destination : NEMId
  drop : Bool
  deriving DecidableEq

def push (r : Queue.dequeue.Result) (c : MessageComponent) (n : Nat) : Queue.dequeue.Result :=
  { r with components := r.components ++ [c], totalBytes := r.totalBytes + n }

def discard (r : Queue.dequeue.Result) (e : Entry) : Queue.dequeue.Result :=
  { r with dropped := r.dropped ++ [e.owned] }

def dequeue (p : Request) : List Entry → Queue.dequeue.Result → List Entry × Queue.dequeue.Result
  | [], r => ([], r)
  | e :: es, r =>
    if e.selectedBy p.destination then
      let room := p.requestedBytes - r.totalBytes
      if e.remaining ≤ room then
        let r' := push r (e.component p.kind e.remaining) e.remaining
        if p.aggregate then
          dequeue p es r'
        else
          (es, r')
      else if p.fragment then
        (e.advance room :: es, push r (e.component p.kind room) room)
      else if p.drop && r.components.isEmpty then
        dequeue p es (discard r e)
      else
        (e :: es, r)
    else
      let (es', r') := dequeue p es r
      (e :: es', r')

section

variable {p : Request} {e : Entry} {es : List Entry} {r : Queue.dequeue.Result}

theorem dequeue_of_not_selected (h : ¬ e.selectedBy p.destination)
    : dequeue p (e :: es) r = (e :: (dequeue p es r).1, (dequeue p es r).2) := by
  simp [dequeue, h]

theorem dequeue_of_aggregate (h : e.selectedBy p.destination)
    (hfits : e.remaining ≤ p.requestedBytes - r.totalBytes) (hagg : p.aggregate = true)
    : dequeue p (e :: es) r = dequeue p es (push r (e.component p.kind e.remaining) e.remaining) := by
  simp [dequeue, h, hfits, hagg]

theorem dequeue_of_not_aggregate (h : e.selectedBy p.destination)
    (hfits : e.remaining ≤ p.requestedBytes - r.totalBytes) (hagg : p.aggregate = false)
    : dequeue p (e :: es) r = (es, push r (e.component p.kind e.remaining) e.remaining) := by
  simp [dequeue, h, hfits, hagg]

theorem dequeue_of_fragment (h : e.selectedBy p.destination)
    (hfits : ¬ e.remaining ≤ p.requestedBytes - r.totalBytes) (hfrag : p.fragment = true)
    : dequeue p (e :: es) r
        =
      (
        e.advance (p.requestedBytes - r.totalBytes) :: es,
        push r (e.component p.kind (p.requestedBytes - r.totalBytes)) (p.requestedBytes - r.totalBytes)
      ) := by
  simp [dequeue, h, hfits, hfrag]

theorem dequeue_of_discard (h : e.selectedBy p.destination)
    (hfits : ¬ e.remaining ≤ p.requestedBytes - r.totalBytes) (hfrag : p.fragment = false)
    (hdrop : p.drop && r.components.isEmpty)
    : dequeue p (e :: es) r = dequeue p es (discard r e) := by
  simp only [dequeue, h, hfits, hfrag, hdrop, ↓reduceIte, Bool.false_eq_true]

theorem dequeue_of_stop (h : e.selectedBy p.destination)
    (hfits : ¬ e.remaining ≤ p.requestedBytes - r.totalBytes) (hfrag : p.fragment = false)
    (hdrop : ¬ (p.drop && r.components.isEmpty))
    : dequeue p (e :: es) r = (e :: es, r) := by
  simp only [dequeue, h, hfits, hfrag, hdrop, ↓reduceIte, Bool.false_eq_true]

end

end Fifo

namespace Queue

def entries (q : Queue) : List Entry :=
  q.queue.toList.filterMap (fun entry =>
    (q.heap.read entry.2).map
      (fun cell => ⟨entry.1, cell.packet, cell.metaInfo.index, cell.metaInfo.offset⟩))

inductive Call where
  | enqueue (pkt : DownstreamPacket)
  | dequeue (requestedBytes : Nat) (destination : NEMId) (drop : Bool)
  deriving DecidableEq

structure History where
  queue : Queue
  enqueued : List DownstreamPacket
  components : MessageComponents
  overflowed : List OwnedPacket
  tooLarge : List OwnedPacket

namespace History

def init (cfg : QueueConfig) : History where
  queue := .init cfg
  enqueued := []
  components := []
  overflowed := []
  tooLarge := []

def dequeued (h : History) (r : dequeue.Result) (queue : Queue) : History :=
  { h with
    queue := queue
    components := h.components ++ r.components
    tooLarge := h.tooLarge ++ r.dropped }

def step (h : History) : Call → Option History
  | .enqueue pkt => do
    let (dropped, queue) ← h.queue.enqueue pkt
    return { h with
      queue := queue
      enqueued := h.enqueued ++ [pkt]
      overflowed := h.overflowed ++ dropped.toList }
  | .dequeue requestedBytes destination drop => do
    let (r, queue) ← h.queue.dequeue requestedBytes destination drop
    return h.dequeued r queue

def queuedAt (h : History) (seq : Nat) : List Entry :=
  withKey Entry.seq seq h.queue.entries

def componentsOf (h : History) (seq : Nat) : MessageComponents :=
  withKey MessageComponent.fragmentSequence seq h.components

def overflowedAt (h : History) (seq : Nat) : List OwnedPacket :=
  withKey OwnedPacket.address seq h.overflowed

def tooLargeAt (h : History) (seq : Nat) : List OwnedPacket :=
  withKey OwnedPacket.address seq h.tooLarge

def returnedAt (h : History) (seq : Nat) : MessageComponents :=
  (h.componentsOf seq).filter (fun c => !c.moreFragments)

def places (h : History) (seq : Nat) : Nat :=
  (h.queuedAt seq).length + (h.returnedAt seq).length + (h.overflowedAt seq).length
    + (h.tooLargeAt seq).length

end History
end Queue
end Tdma
end Emane

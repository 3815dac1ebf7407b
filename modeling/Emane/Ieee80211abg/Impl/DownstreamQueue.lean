import Emane.Packet.Impl.Packet

/-!
This module contains the packets that wait to be sent: one queue for each access category, the
higher ones come first.
-/

namespace Emane
namespace Ieee80211abg

/--
Times are in microseconds. What is only there for metrics is left out.
-/
structure DownstreamQueueEntry where
  pkt : DownstreamPacket
  acquireTime : Nat
  txOpMicroseconds : Nat
  durationMicroseconds : Nat
  preTxDelayTime : Nat
  postTxDelayMicroseconds : Nat
  txTime : Nat
  seq : UInt16
  category : Nat
  numRetries : UInt8
  maxRetries : UInt8
  rtsCtsEnable : Bool
  collisionOccured : Bool
  deriving DecidableEq

def DownstreamQueueEntry.create (pkt : DownstreamPacket)
    (acquireTime txOpMicroseconds category : Nat) (maxRetries : UInt8)
    : DownstreamQueueEntry where
  pkt := pkt
  acquireTime := acquireTime
  txOpMicroseconds := txOpMicroseconds
  durationMicroseconds := 0
  preTxDelayTime := 0
  postTxDelayMicroseconds := 0
  txTime := 0
  seq := 0
  category := category
  numRetries := 0
  maxRetries := maxRetries
  rtsCtsEnable := false
  collisionOccured := false

/--
A statistic has 32 bits. The one for the bytes of broadcast packets that are too large is behind a
pointer, which is moved by `numBroadcastBytesTooLargeMoved`.
-/
structure AccessCategory where
  maxQueueCapacity : Nat
  maxPacketSize : Nat
  queue : List DownstreamQueueEntry
  numUnicastPacketsTooLarge : Nat
  numUnicastBytesTooLarge : Nat
  numBroadcastPacketsTooLarge : Nat
  numBroadcastBytesTooLarge : Nat
  numBroadcastBytesTooLargeMoved : Nat
  numHighWaterMark : Nat
  numHighWaterMax : Nat
  deriving DecidableEq

def AccessCategory.create (maxQueueCapacity maxPacketSize : Nat) : AccessCategory where
  maxQueueCapacity := maxQueueCapacity
  maxPacketSize := maxPacketSize
  queue := []
  numUnicastPacketsTooLarge := 0
  numUnicastBytesTooLarge := 0
  numBroadcastPacketsTooLarge := 0
  numBroadcastBytesTooLarge := 0
  numBroadcastBytesTooLargeMoved := 0
  numHighWaterMark := 0
  numHighWaterMax := 0

structure DownstreamQueue where
  categories : List AccessCategory
  numUnicastPacketsUnsupported : Nat
  numUnicastBytesUnsupported : Nat
  numBroadcastPacketsUnsupported : Nat
  numBroadcastBytesUnsupported : Nat
  deriving DecidableEq

def statistic (value n : Nat) : Nat :=
  (value + n) % 2^32

namespace AccessCategory

def tooLarge (p : AccessCategory) (pkt : DownstreamPacket) : AccessCategory :=
  if pkt.info.destination = NEM_BROADCAST_MAC_ADDRESS then
    { p with
      numBroadcastPacketsTooLarge := statistic p.numBroadcastPacketsTooLarge 1
      numBroadcastBytesTooLargeMoved := p.numBroadcastBytesTooLargeMoved + pkt.length }
  else
    { p with
      numUnicastPacketsTooLarge := statistic p.numUnicastPacketsTooLarge 1
      numUnicastBytesTooLarge := statistic p.numUnicastBytesTooLarge pkt.length }

def overflow (capacity : Nat)
    : List DownstreamQueueEntry → List DownstreamQueueEntry × List DownstreamQueueEntry
  | [] => ([], [])
  | e :: queue =>
    if (e :: queue).length ≥ capacity then
      let (dropped, kept) := overflow capacity queue
      (e :: dropped, kept)
    else
      ([], e :: queue)

def push (p : AccessCategory) (queue : List DownstreamQueueEntry) : AccessCategory :=
  if queue.length > p.numHighWaterMark then
    { p with queue := queue, numHighWaterMark := queue.length, numHighWaterMax := p.maxQueueCapacity }
  else
    { p with queue := queue }

def enqueue (p : AccessCategory) (entry : DownstreamQueueEntry)
    : List DownstreamQueueEntry × AccessCategory :=
  if p.maxQueueCapacity = 0 then
    ([entry], p)
  else if p.maxPacketSize ≠ 0 ∧ entry.pkt.length > p.maxPacketSize then
    ([entry], p.tooLarge entry.pkt)
  else
    let (dropped, kept) := overflow p.maxQueueCapacity p.queue
    (dropped, p.push (kept ++ [entry]))

end AccessCategory

namespace DownstreamQueue

def unsupported (q : DownstreamQueue) (pkt : DownstreamPacket) : DownstreamQueue :=
  if pkt.info.destination = NEM_BROADCAST_MAC_ADDRESS then
    { q with
      numBroadcastPacketsUnsupported := statistic q.numBroadcastPacketsUnsupported 1
      numBroadcastBytesUnsupported := statistic q.numBroadcastBytesUnsupported pkt.length }
  else
    { q with
      numUnicastPacketsUnsupported := statistic q.numUnicastPacketsUnsupported 1
      numUnicastBytesUnsupported := statistic q.numUnicastBytesUnsupported pkt.length }

def enqueue (q : DownstreamQueue) (entry : DownstreamQueueEntry)
    : List DownstreamQueueEntry × DownstreamQueue :=
  match q.categories[entry.category]? with
  | some p =>
    let (dropped, p') := p.enqueue entry
    (dropped, { q with categories := q.categories.set entry.category p' })
  | none => ([entry], q.unsupported entry.pkt)

def dequeue.go : List AccessCategory → Option (DownstreamQueueEntry × List AccessCategory)
  | [] => none
  | p :: ps =>
    match dequeue.go ps with
    | some (entry, ps') => some (entry, p :: ps')
    | none =>
      match p.queue with
      | [] => none
      | entry :: queue => some (entry, { p with queue := queue } :: ps)

def dequeue (q : DownstreamQueue) : Option DownstreamQueueEntry × DownstreamQueue :=
  match dequeue.go q.categories with
  | some (entry, categories) => (some entry, { q with categories := categories })
  | none => (none, q)

def getDepth (q : DownstreamQueue) : Nat :=
  (q.categories.map (fun p => p.queue.length)).sum

end DownstreamQueue

def MAX_ACCESS_CATEGORIES : Nat := 4
def QUEUE_SIZE_DEFAULT : Nat := 255
def MAX_PACKET_SIZE : Nat := 0xFFFF

namespace AccessCategory

def clearPast (maxEntries : Nat) : List DownstreamQueueEntry → List DownstreamQueueEntry
  | [] => []
  | e :: queue => if maxEntries < (e :: queue).length then clearPast maxEntries queue else e :: queue

def setMaxCapacity (p : AccessCategory) (maxEntries : UInt64) : AccessCategory :=
  -- the capacity has 8 bits, the limit that the entries are compared with has all of its 64
  { p with queue := clearPast maxEntries.toNat p.queue, maxQueueCapacity := maxEntries.toUInt8.toNat }

def setMaxEntrySize (p : AccessCategory) (maxEntrySize : UInt64) : AccessCategory :=
  { p with maxPacketSize := maxEntrySize.toUInt16.toNat }

def getAvailableSpace (p : AccessCategory) : UInt64 :=
  UInt64.ofNat p.maxQueueCapacity - UInt64.ofNat p.queue.length

end AccessCategory

structure CategoryArray where
  categories : Fin MAX_ACCESS_CATEGORIES → AccessCategory
  numActiveCategories : Nat
  numUnicastPacketsUnsupported : Nat
  numUnicastBytesUnsupported : Nat
  numBroadcastPacketsUnsupported : Nat
  numBroadcastBytesUnsupported : Nat
  active_pos : 0 < numActiveCategories
  active_le : numActiveCategories ≤ MAX_ACCESS_CATEGORIES

namespace CategoryArray

def create : CategoryArray where
  categories := fun _ => .create QUEUE_SIZE_DEFAULT MAX_PACKET_SIZE
  numActiveCategories := MAX_ACCESS_CATEGORIES
  numUnicastPacketsUnsupported := 0
  numUnicastBytesUnsupported := 0
  numBroadcastPacketsUnsupported := 0
  numBroadcastBytesUnsupported := 0
  active_pos := by decide
  active_le := by decide

def update (a : CategoryArray) (which : Fin MAX_ACCESS_CATEGORIES → Bool)
    (f : AccessCategory → AccessCategory) : CategoryArray :=
  { a with categories := fun i => if which i then f (a.categories i) else a.categories i }

def setMaxCapacityOf (a : CategoryArray) (maxEntries : UInt64) (category : UInt8) : CategoryArray :=
  a.update (fun i => category.toNat < a.numActiveCategories ∧ i.val = category.toNat)
    (fun p => p.setMaxCapacity maxEntries)

def setMaxCapacity (a : CategoryArray) (maxEntries : UInt64) : CategoryArray :=
  a.update (fun i => i.val < a.numActiveCategories) (fun p => p.setMaxCapacity maxEntries)

def setMaxEntrySizeOf (a : CategoryArray) (maxEntrySize : UInt64)
    (category : Fin MAX_ACCESS_CATEGORIES) : CategoryArray :=
  a.update (fun i => i = category) (fun p => p.setMaxEntrySize maxEntrySize)

def setMaxEntrySize (a : CategoryArray) (maxEntrySize : UInt64) : CategoryArray :=
  a.update (fun i => i.val < a.numActiveCategories) (fun p => p.setMaxEntrySize maxEntrySize)

def active (a : CategoryArray) : List AccessCategory :=
  ((List.finRange MAX_ACCESS_CATEGORIES).filter (fun i => i.val < a.numActiveCategories)).map a.categories

def getMaxCapacity (a : CategoryArray) : UInt64 :=
  a.active.foldl (fun result p => result + UInt64.ofNat p.maxQueueCapacity) 0

def getDepth (a : CategoryArray) : UInt64 :=
  a.active.foldl (fun result p => result + UInt64.ofNat p.queue.length) 0

def getAvailableSpace (a : CategoryArray) : UInt64 :=
  a.active.foldl (fun result p => result + p.getAvailableSpace) 0

def getAvailableSpaceOf (a : CategoryArray) (category : UInt8) : UInt64 :=
  if h : category.toNat < a.numActiveCategories then
    (a.categories ⟨category.toNat, Nat.lt_of_lt_of_le h a.active_le⟩).getAvailableSpace
  else
    0

def cleared (numActive num : Nat) : List Nat :=
  (List.range' num (numActive - num)).map (fun category => numActive - category)

def setCategories (a : CategoryArray) (numCategories : UInt8) : CategoryArray :=
  if h : numCategories.toNat > 0 ∧ numCategories.toNat ≤ MAX_ACCESS_CATEGORIES then
    { a.update (fun i => i.val ∈ cleared a.numActiveCategories numCategories.toNat)
        (fun p => { p with queue := [] }) with
      numActiveCategories := numCategories.toNat
      active_pos := h.1
      active_le := h.2 }
  else
    a

def unsupported (a : CategoryArray) (pkt : DownstreamPacket) : CategoryArray :=
  if pkt.info.destination = NEM_BROADCAST_MAC_ADDRESS then
    { a with
      numBroadcastPacketsUnsupported := statistic a.numBroadcastPacketsUnsupported 1
      numBroadcastBytesUnsupported := statistic a.numBroadcastBytesUnsupported pkt.length }
  else
    { a with
      numUnicastPacketsUnsupported := statistic a.numUnicastPacketsUnsupported 1
      numUnicastBytesUnsupported := statistic a.numUnicastBytesUnsupported pkt.length }

def enqueue (a : CategoryArray) (entry : DownstreamQueueEntry)
    : List DownstreamQueueEntry × CategoryArray :=
  if h : entry.category < a.numActiveCategories then
    let i : Fin MAX_ACCESS_CATEGORIES := ⟨entry.category, Nat.lt_of_lt_of_le h a.active_le⟩
    (((a.categories i).enqueue entry).1, a.update (fun j => j = i) (fun p => (p.enqueue entry).2))
  else
    ([entry], a.unsupported entry.pkt)

def dequeue (a : CategoryArray) : Option DownstreamQueueEntry × CategoryArray :=
  match (List.finRange MAX_ACCESS_CATEGORIES).reverse.find?
      (fun i => i.val < a.numActiveCategories && !(a.categories i).queue.isEmpty) with
  | some i => ((a.categories i).queue.head?, a.update (fun j => j = i)
    (fun p => { p with queue := p.queue.tail }))
  | none => (none, a)

inductive Call where
  | setCategories (numCategories : UInt8)
  | setMaxCapacity (maxEntries : UInt64)
  | setMaxCapacityOf (maxEntries : UInt64) (category : UInt8)
  | setMaxEntrySize (maxEntrySize : UInt64)
  | setMaxEntrySizeOf (maxEntrySize : UInt64) (category : Fin MAX_ACCESS_CATEGORIES)
  | enqueue (entry : DownstreamQueueEntry)
  | dequeue

def step (a : CategoryArray) : Call → Option CategoryArray
  | .setCategories numCategories => some (a.setCategories numCategories)
  | .setMaxCapacity maxEntries => some (a.setMaxCapacity maxEntries)
  | .setMaxCapacityOf maxEntries category => some (a.setMaxCapacityOf maxEntries category)
  | .setMaxEntrySize maxEntrySize => some (a.setMaxEntrySize maxEntrySize)
  | .setMaxEntrySizeOf maxEntrySize category => some (a.setMaxEntrySizeOf maxEntrySize category)
  | .enqueue entry => some (a.enqueue entry).2
  | .dequeue => some a.dequeue.2

end CategoryArray
end Ieee80211abg
end Emane

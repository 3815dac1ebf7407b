import Mathlib.Order.Nat
import Emane.Lib.SortedMap
import Emane.Lib.Memory
import Emane.Tdma.Impl.Packet

/-!
This module contains the downstream packet queue of the TDMA radio model: one map over all packets
and one map per destination, both holding pointers to the same packets.
-/

namespace Emane
namespace Tdma

structure MetaInfo where
  index : Nat
  offset : Nat
  deriving DecidableEq

structure Cell where
  packet : DownstreamPacket
  metaInfo : MetaInfo
  deriving DecidableEq

structure OwnedPacket where
  address : Nat
  packet : DownstreamPacket
  deriving DecidableEq

abbrev PacketQueue := SortedMap Nat Nat

structure QueueConfig where
  queueDepth : Nat
  fragment : Bool
  aggregate : Bool
  isControl : Bool
  deriving DecidableEq

def QueueConfig.kind (cfg : QueueConfig) : MessageComponent.Kind :=
  if cfg.isControl then .control else .data

/--
`currentBytes` is an integer, so that a subtraction that would wrap around shows as a negative
value.
-/
structure Queue extends QueueConfig where
  counter : Nat
  currentBytes : Int
  queue : PacketQueue
  destQueue : SortedMap NEMId PacketQueue
  heap : Heap Cell

namespace Queue

def init (cfg : QueueConfig) : Queue where
  toQueueConfig := cfg
  counter := 0
  currentBytes := 0
  queue := .empty
  destQueue := .empty
  heap := .empty

def kind (q : Queue) : MessageComponent.Kind :=
  q.toQueueConfig.kind

def destQueueOf (q : Queue) (dst : NEMId) : PacketQueue :=
  (q.destQueue.find? dst).getD .empty

def remove (q : Queue) (dst : NEMId) (seq address : Nat) : Queue :=
  { q with
    queue := q.queue.erase seq
    destQueue := q.destQueue.set dst ((q.destQueueOf dst).erase seq)
    heap := q.heap.free address }

def firstUnfragmented (heap : Heap Cell) : List (Nat × Nat) → Option (Option (Nat × Nat))
  | [] => some none
  | entry :: entries => do
    let cell ← heap.read entry.2
    if cell.metaInfo.index = 0 then
      return some entry
    else
      firstUnfragmented heap entries

def discardOverflow (q : Queue) : Option (OwnedPacket × Queue) := do
  -- Make room for one packet. Dereferencing `begin()` of an empty queue is undefined and gives
  -- `none`.
  let oldest ← q.queue.first?
  let candidate ← firstUnfragmented q.heap q.queue.toList
  let entry := candidate.getD oldest
  let cell ← q.heap.read entry.2
  let dst := cell.packet.info.destination
  let q' := q.remove dst entry.1 entry.2
  return (
    ⟨entry.2, cell.packet⟩,
    { q' with currentBytes := q'.currentBytes - (cell.packet.length - cell.metaInfo.offset : Int) }
  )

def append (q : Queue) (pkt : DownstreamPacket) : Queue :=
  let dest := pkt.info.destination
  let address := q.heap.next
  { q with
    heap := q.heap.alloc ⟨pkt, ⟨0, 0⟩⟩
    queue := q.queue.insert q.counter address
    destQueue := q.destQueue.set dest ((q.destQueueOf dest).insert q.counter address)
    currentBytes := q.currentBytes + pkt.length
    counter := q.counter + 1 }

def enqueue (q : Queue) (pkt : DownstreamPacket) : Option (Option OwnedPacket × Queue) :=
  if q.queue.size = q.queueDepth then do
    let (dropped, q') ← q.discardOverflow
    return (some dropped, q'.append pkt)
  else
    return (none, q.append pkt)

namespace fragmentPacket

structure Cursor where
  totalBytesVisited : Nat
  totalBytesCopied : Nat
  offset : Nat
  vectorIOs : List Bytes
  deriving DecidableEq

def go (bytes : Nat) : List Bytes → Cursor → Cursor
  | [], c => c
  | entry :: entries, c =>
    if c.totalBytesCopied < bytes then
      if c.totalBytesVisited + entry.length < c.offset then
        go bytes entries { c with totalBytesVisited := c.totalBytesVisited + entry.length }
      else
        -- where are we in the current entry and how much of it is left
        let offset := c.offset - c.totalBytesVisited
        let remainder := entry.length - offset
        let visited := if c.totalBytesVisited < c.offset then c.offset else c.totalBytesVisited
        let amountToCopy :=
          if remainder > bytes - c.totalBytesCopied then
            bytes - c.totalBytesCopied
          else
            remainder
        go bytes entries {
          totalBytesVisited := visited + amountToCopy
          totalBytesCopied := c.totalBytesCopied + amountToCopy
          offset := c.offset + amountToCopy
          vectorIOs := c.vectorIOs ++ [(entry.drop offset).take amountToCopy]
        }
    else
      c

end fragmentPacket

def fragmentPacket (kind : MessageComponent.Kind) (pkt : DownstreamPacket) (metaInfo : MetaInfo)
    (seq bytes : Nat)
    : MessageComponent × Nat × MetaInfo :=
  let c := fragmentPacket.go bytes pkt.vectorIO ⟨0, 0, metaInfo.offset, []⟩
  let component := {
    type := kind
    destination := pkt.info.destination
    priority := pkt.info.priority
    data := c.vectorIOs.flatten
    fragmentIndex := metaInfo.index
    fragmentOffset := c.offset - c.totalBytesCopied
    fragmentSequence := seq
    moreFragments := c.totalBytesVisited ≠ pkt.length
  }
  (component, c.totalBytesCopied, ⟨metaInfo.index + 1, c.offset⟩)

def wholePacket (kind : MessageComponent.Kind) (pkt : DownstreamPacket) (metaInfo : MetaInfo)
    (seq : Nat)
    : MessageComponent where
  type := kind
  destination := pkt.info.destination
  priority := pkt.info.priority
  data := pkt.bytes
  fragmentIndex := metaInfo.index
  fragmentOffset := metaInfo.offset
  fragmentSequence := seq
  moreFragments := false

namespace dequeue

structure Result where
  components : MessageComponents
  totalBytes : Nat
  dropped : List OwnedPacket
  deriving DecidableEq

inductive Turn where
  | next (q : Queue) (r : Result)
  | done (q : Queue) (r : Result)

def front (q : Queue) (destination : NEMId) : Option (Nat × Nat) :=
  if destination ≠ 0 then
    (q.destQueue.find? destination).bind SortedMap.first?
  else
    q.queue.first?

def turn (q : Queue) (requestedBytes : Nat) (destination : NEMId) (drop : Bool) (r : Result)
    : Option Turn :=
  -- One turn of the loop. The source spells the body out twice, for the queue of one destination
  -- and for the queue over all of them; they differ in where the entry is found and which
  -- destination queue it is erased from. `none` is a read through a dangling pointer.
  match front q destination with
  | none => some (.done q r)
  | some (seq, address) => do
    let ⟨pkt, metaInfo⟩ ← q.heap.read address
    let dst := if destination ≠ 0 then destination else pkt.info.destination
    if pkt.length - metaInfo.offset ≤ requestedBytes - r.totalBytes then
      let (component, bytes) :=
        if metaInfo.offset ≠ 0 then
          let (component, bytes, _) :=
            fragmentPacket q.kind pkt metaInfo seq (requestedBytes - r.totalBytes)
          (component, bytes)
        else
          (wholePacket q.kind pkt metaInfo seq, pkt.length - metaInfo.offset)
      let r' := {
        r with
        components := r.components ++ [component]
        totalBytes := r.totalBytes + bytes
      }
      let q' := q.remove dst seq address
      -- if aggregation is disabled don't look further
      return if q.aggregate then .next q' r' else .done q' r'
    else if q.fragment then
      let (component, bytes, metaInfo') :=
        fragmentPacket q.kind pkt metaInfo seq (requestedBytes - r.totalBytes)
      let r' := {
        r with
        components := r.components ++ [component]
        totalBytes := r.totalBytes + bytes
      }
      return .done { q with heap := q.heap.write address ⟨pkt, metaInfo'⟩ } r'
    else if drop && r.components.isEmpty then
      -- too large and fragmentation is disabled
      let q' := q.remove dst seq address
      return .next
        { q' with currentBytes := q'.currentBytes - pkt.length }
        { r with dropped := r.dropped ++ [⟨address, pkt⟩] }
    else
      return .done q r

def loop (requestedBytes : Nat) (destination : NEMId) (drop : Bool)
    : Nat → Queue → Result → Option (Queue × Result)
  | 0, _, _ => none
  | fuel + 1, q, r =>
    if r.totalBytes ≤ requestedBytes then do
      match ← turn q requestedBytes destination drop r with
      | .next q' r' => loop requestedBytes destination drop fuel q' r'
      | .done q' r' => return (q', r')
    else
      return (q, r)

end dequeue

def dequeue (q : Queue) (requestedBytes : Nat) (destination : NEMId) (drop : Bool)
    : Option (dequeue.Result × Queue) := do
  let (q', r) ← dequeue.loop requestedBytes destination drop (q.queue.size + 1) q ⟨[], 0, []⟩
  return (r, { q' with currentBytes := q'.currentBytes - r.totalBytes })

end Queue
end Tdma
end Emane

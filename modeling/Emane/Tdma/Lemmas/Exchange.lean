import Emane.Lib.Outcome
import Emane.Tdma.Impl.BaseModel
import Emane.Tdma.Lemmas.Link
import Emane.Tdma.Lemmas.BasicQueueManager

/-!
This module contains the uniqueness of the keys that fragments are assembled under.
-/

namespace Emane
namespace Tdma

theorem getElem?_concat_eq_some_iff {α : Type u} (as : List α) (a b : α) (n : Nat)
    : (as ++ [a])[n]? = some b ↔ as[n]? = some b ∨ n = as.length ∧ a = b := by
  rw [List.getElem?_append]
  split
  . next hlt =>
    have hne : n ≠ as.length := by omega
    simp [hne]
  . next hge =>
    have hnone : as[n]? = none := by
      rw [List.getElem?_eq_none_iff]
      omega
    rw [hnone, List.getElem?_singleton]
    by_cases heq : n = as.length
    . simp [heq]
    . have hpos : n - as.length ≠ 0 := by omega
      simp [heq, hpos]

namespace Queue

variable {q : Queue} {requestedBytes : Nat} {destination : NEMId} {drop : Bool} {r : dequeue.Result}

theorem counter_turn
    {t : dequeue.Turn} (h : dequeue.turn q requestedBytes destination drop r = some t)
    : match t with
      | .next q' _ => q'.counter = q.counter
      | .done q' _ => q'.counter = q.counter := by
  unfold dequeue.turn at h
  split at h
  . cases h
    rfl
  . next seq address hfront =>
    simp only [Option.bind_eq_bind, Option.bind_eq_some_iff] at h
    obtain ⟨⟨pkt, metaInfo⟩, _, h⟩ := h
    split at h
    . split at h
      . cases h
        rfl
      . cases h
        rfl
    . split at h
      . cases h
        rfl
      . split at h
        . cases h
          rfl
        . cases h
          rfl

theorem counter_loop {fuel : Nat} {q' : Queue}
    {r' : dequeue.Result} (h : dequeue.loop requestedBytes destination drop fuel q r = some (q', r'))
    : q'.counter = q.counter := by
  induction fuel generalizing q r with
  | zero => simp [dequeue.loop] at h
  | succ fuel ih =>
    unfold dequeue.loop at h
    split at h
    . rw [Option.bind_eq_bind, Option.bind_eq_some_iff] at h
      obtain ⟨t, hturn, h⟩ := h
      have hcounter := counter_turn hturn
      cases t with
      | next q'' r'' =>
        have hrest := ih h
        rw [hrest]
        exact hcounter
      | done q'' r'' =>
        simp only [Option.pure_def, Option.some.injEq, Prod.mk.injEq] at h
        rw [← h.1]
        exact hcounter
    . simp only [Option.pure_def, Option.some.injEq, Prod.mk.injEq] at h
      rw [h.1]

theorem counter_dequeue {q' : Queue}
    (h : q.dequeue requestedBytes destination drop = some (r, q'))
    : q'.counter = q.counter := by
  unfold dequeue at h
  simp only [Option.bind_eq_bind, Option.bind_eq_some_iff, Option.pure_def, Option.some.injEq,
    Prod.mk.injEq] at h
  obtain ⟨⟨q'', r''⟩, hloop, _, rfl⟩ := h
  change q''.counter = q.counter
  exact counter_loop hloop

end Queue

namespace BasicQueueManager

theorem counter_record {s : dequeue.State} {q i : QueueIndex} {r : Queue.dequeue.Result} {queue : Queue}
    (h : queue.counter = (s.queues i).counter) (j : QueueIndex)
    : ((dequeue.record q i r queue s).queues j).counter = (s.queues j).counter := by
  rw [dequeue.queues_record]
  by_cases hj : j = i
  . rw [hj, Function.update_self]
    exact h
  . rw [Function.update_of_ne hj]

theorem counter_others {cfg : QueueManagerConfig} {q : QueueIndex} {requestedBytes : Nat}
    {destination : NEMId}
    {is : List QueueIndex} {s s' : dequeue.State}
    (h : dequeue.others cfg q requestedBytes destination is s = some s') (j : QueueIndex)
    : (s'.queues j).counter = (s.queues j).counter := by
  induction is generalizing s with
  | nil =>
    cases h
    rfl
  | cons i is ih =>
    unfold dequeue.others at h
    split at h
    . split at h
      . simp only [Option.bind_eq_bind, Option.bind_eq_some_iff] at h
        obtain ⟨⟨r, queue⟩, hdequeue, h⟩ := h
        rw [ih h]
        exact counter_record (Queue.counter_dequeue hdequeue) j
      . exact ih h
    . cases h
      rfl

theorem counter_dequeue {m m' : BasicQueueManager} {queueIndex requestedBytes : Nat}
    {destination : NEMId} {d : Dequeued}
    (h : m.dequeue queueIndex requestedBytes destination = some (d, m')) (j : QueueIndex)
    : (m'.queues j).counter = (m.queues j).counter := by
  unfold BasicQueueManager.dequeue at h
  simp only [Option.bind_eq_bind, Option.bind_eq_some_iff, Option.pure_def, Option.some.injEq,
    Prod.mk.injEq] at h
  obtain ⟨s, hcollect, _, rfl⟩ := h
  unfold dequeue.collect at hcollect
  split at hcollect
  . next hlt =>
    simp only [Option.bind_eq_bind, Option.bind_eq_some_iff] at hcollect
    obtain ⟨⟨r, queue⟩, hdequeue, hcollect⟩ := hcollect
    have hrecord := counter_record (Queue.counter_dequeue hdequeue) (s := ⟨m.queues, [], 0, []⟩)
      (q := ⟨queueIndex, hlt⟩)
      (r := r) j
    split at hcollect
    . cases hcollect
      exact hrecord
    . rw [counter_others hcollect]
      exact hrecord
  . cases hcollect
    rfl

end BasicQueueManager

namespace ReceiveManager

structure Part (P : NEMId → MessageComponent → Prop) (key : FragmentKey) (part : Nat × Bytes)
    (c : MessageComponent) : Prop where
  heard : P (ofLex key).1 c
  key_eq : fragmentKey (ofLex key).1 c = key
  isFragment : c.isFragment
  part_eq : part = (c.fragmentOffset, c.data)

structure DrawnAssembly (P : NEMId → MessageComponent → Prop) (key : FragmentKey)
    (assembly : FragmentInfo) : Prop where
  parts : ∀ part ∈ assembly.parts.toList, ∃ c, Part P key part c
  nonempty : assembly.parts.toList ≠ []

structure Drawn (P : NEMId → MessageComponent → Prop) (m : ReceiveManager) : Prop where
  pending : ∀ c ∈ m.pendingInfo.message.messages, P m.pendingInfo.info.source c
  store : ∀ key assembly, m.fragmentStore.find? key = some assembly → DrawnAssembly P key assembly

section

variable {P : NEMId → MessageComponent → Prop} {m : ReceiveManager}

theorem Drawn.of_init (id : NEMId) (promiscuousMode : Bool) (check timeout : Nat)
    : Drawn P (init id promiscuousMode check timeout) where
  pending := by simp [init]
  store := by
    intro key assembly h
    simp [init] at h

theorem Drawn.mono {Q : NEMId → MessageComponent → Prop} (h : Drawn P m)
    (himp : ∀ source c, P source c → Q source c)
    : Drawn Q m where
  pending := fun c hc => himp _ c (h.pending c hc)
  store := by
    intro key assembly hfind
    have hassembly := h.store key assembly hfind
    refine ⟨?_, hassembly.nonempty⟩
    intro part hpart
    obtain ⟨c, hc⟩ := hassembly.parts part hpart
    exact ⟨c, himp _ c hc.heard, hc.key_eq, hc.isFragment, hc.part_eq⟩

variable {c : MessageComponent}

theorem DrawnAssembly.insert {source : NEMId} (hc : P source c) (hfrag : c.isFragment)
    {parts : FragmentParts} (hparts : ∀ part ∈ parts.toList, ∃ c', Part P (fragmentKey source c) part c')
    {indexSet : Finset Nat} {now : Nat} {destination : NEMId} {priority : Priority}
    : DrawnAssembly P (fragmentKey source c)
        ⟨indexSet, parts.insert c.fragmentOffset c.data, now, destination, priority⟩ where
  parts := by
    intro part hpart
    cases SortedMap.mem_toList_insert hpart with
    | inl hold => exact hparts part hold
    | inr hnew => exact ⟨c, hc, rfl, hfrag, hnew⟩
  nonempty := SortedMap.toList_insert_ne_nil parts c.fragmentOffset c.data

variable {info : PacketInfo}

theorem drawn_receiveFragment {store : FragmentStore} {now : Nat} {metaInfo : PacketMetaInfo}
    (hstore : ∀ key assembly, store.find? key = some assembly → DrawnAssembly P key assembly)
    (hc : P info.source c) (hfrag : c.isFragment)
    : ∀ key assembly, (receiveFragment store now info metaInfo c).1.find? key = some assembly →
        DrawnAssembly P key assembly := by
  intro key assembly h
  unfold receiveFragment at h
  simp only at h
  split at h
  . next old hold =>
    split at h
    . exact hstore key assembly h
    . split at h
      . split at h
        . rw [SortedMap.find?_set] at h
          split at h
          . next hkey =>
            cases h
            rw [hkey]
            exact DrawnAssembly.insert hc hfrag (hstore _ _ hold).parts
          . exact hstore key assembly h
        . rw [SortedMap.find?_erase] at h
          split at h
          . simp at h
          . exact hstore key assembly h
      . rw [SortedMap.find?_erase] at h
        split at h
        . simp at h
        . exact hstore key assembly h
  . next hnone =>
    split at h
    . rw [SortedMap.find?_insert, hnone] at h
      split at h
      . next hkey =>
        rw [Option.getD_none, Option.some.injEq] at h
        rw [hkey, ← h]
        exact DrawnAssembly.insert hc hfrag (by simp)
      . exact hstore key assembly h
    . exact hstore key assembly h

theorem Drawn.receive (h : Drawn P m) (hc : P info.source c) (now : Nat)
    (metaInfo : PacketMetaInfo)
    : Drawn P (m.receive now info metaInfo c).1 := by
  unfold ReceiveManager.receive
  split
  . split
    . next hfrag => exact ⟨h.pending, drawn_receiveFragment h.store hc hfrag⟩
    . exact h
  . exact h

theorem Drawn.receiveAll (h : Drawn P m) {cs : MessageComponents} (hcs : ∀ c ∈ cs, P info.source c)
    (now : Nat) (metaInfo : PacketMetaInfo)
    : Drawn P (m.receiveAll now info metaInfo cs).1 := by
  induction cs generalizing m with
  | nil => exact h
  | cons c cs ih =>
    have hnext := h.receive (hcs c (by simp)) now metaInfo
    exact ih hnext (fun c' hc' => hcs c' (by simp [hc']))

theorem find?_foldl_erase {store : FragmentStore} {entries : List (FragmentKey × FragmentInfo)}
    {key : FragmentKey}
    {assembly : FragmentInfo}
    (h : (entries.foldl (fun store entry => store.erase entry.1) store).find? key = some assembly)
    : store.find? key = some assembly := by
  induction entries generalizing store with
  | nil => exact h
  | cons entry entries ih =>
    have hrest := ih h
    rw [SortedMap.find?_erase] at hrest
    split at hrest
    . simp at hrest
    . exact hrest

theorem Drawn.checkFragments (h : Drawn P m) (now : Nat) : Drawn P (m.checkFragments now).1 := by
  unfold ReceiveManager.checkFragments
  split
  . exact ⟨h.pending, fun key assembly hfind => h.store key assembly (find?_foldl_erase hfind)⟩
  . exact h

theorem Drawn.process (h : Drawn P m) (absoluteSlotIndex now : Nat) (reception : Reception)
    : Drawn P (m.process absoluteSlotIndex now reception).1 := by
  unfold ReceiveManager.process
  split
  . have hidle : Drawn P { m with pendingAbsoluteSlotIndex := 0 } := ⟨h.pending, h.store⟩
    cases reception with
    | spectrumServiceError => exact hidle
    | lost => exact hidle
    | received => exact (hidle.receiveAll h.pending now _).checkFragments now
  . exact h.checkFragments now

theorem Drawn.enqueue (h : Drawn P m) {pending : PendingInfo}
    (hpending : ∀ c ∈ pending.message.messages, P pending.info.source c)
    (now : Nat) (reception : Reception)
    : Drawn P (m.enqueue pending now reception).2.1 := by
  unfold ReceiveManager.enqueue
  simp only
  split
  . exact ⟨hpending, h.store⟩
  . split
    . exact ⟨hpending, (h.process _ now reception).store⟩
    . split
      . exact ⟨hpending, h.store⟩
      . split
        . exact ⟨hpending, h.store⟩
        . exact h

end

end ReceiveManager

structure MessageComponent.CutFrom (i : QueueIndex) (n : Nat) (pkt : DownstreamPacket)
    (c : MessageComponent) : Prop where
  type : c.type = BasicQueueManager.kind i
  destination : c.destination = pkt.info.destination
  priority : c.priority = pkt.info.priority
  fragmentSequence : c.fragmentSequence = n
  data : c.data = (pkt.bytes.drop c.fragmentOffset).take c.size

theorem Entry.cutFrom_component (i : QueueIndex) (e : Entry) (n : Nat)
    : (e.component (BasicQueueManager.kind i) n).CutFrom i e.seq e.packet where
  type := by rfl
  destination := by rfl
  priority := by rfl
  fragmentSequence := by rfl
  data := by
    simp only [Entry.component, MessageComponent.size, List.length_take]
    rw [← List.take_eq_take_min]

namespace BasicQueueManager

theorem Spends.exists_cutFrom {m m' : BasicQueueManager} {queueIndex requestedBytes : Nat}
    {destination : NEMId}
    {d : Dequeued} {fs : QueueIndex → Fifo.Fates}
    (h : Spends m m' queueIndex requestedBytes destination d fs)
    {c : MessageComponent} (hc : c ∈ d.components)
    : ∃ i, ∃ e ∈ (m.queues i).entries, c.CutFrom i e.seq e.packet := by
  rw [h.components, List.mem_flatMap] at hc
  obtain ⟨i, _, hc⟩ := hc
  have hmem : c ∈ (fs i).components (kind i) := by
    unfold given at hc
    split at hc
    . simp at hc
    . exact hc
  unfold Fifo.Fates.components at hmem
  rw [List.mem_filterMap] at hmem
  obtain ⟨⟨e, f⟩, hef, hcomponent⟩ := hmem
  refine ⟨i, e, ?_, ?_⟩
  . rw [← h.before i]
    exact List.mem_map_of_mem hef
  . cases f with
    | kept => simp [Fate.component] at hcomponent
    | cut n =>
      cases hcomponent
      exact e.cutFrom_component i n
    | sent =>
      cases hcomponent
      exact e.cutFrom_component i e.remaining
    | dropped => simp [Fate.component] at hcomponent

end BasicQueueManager

namespace Fifo.Fates

theorem mem_after {fs : Fates} {e : Entry} (h : e ∈ fs.after)
    : ∃ e' ∈ fs.before, e.seq = e'.seq ∧ e.packet = e'.packet := by
  unfold after at h
  rw [List.mem_filterMap] at h
  obtain ⟨⟨e', f⟩, hmem, hafter⟩ := h
  refine ⟨e', List.mem_map_of_mem hmem, ?_⟩
  cases f with
  | kept =>
    cases hafter
    exact ⟨rfl, rfl⟩
  | cut n =>
    cases hafter
    exact ⟨rfl, rfl⟩
  | sent => simp [Fate.after] at hafter
  | dropped => simp [Fate.after] at hafter

end Fifo.Fates

namespace BaseModel

def target (b : BaseModel) : Event → Option (QueueIndex × DownstreamPacket)
  | .downstreamPacket pkt =>
    if b.flowControlEnable && !b.flowControlManager.removeToken.1 then
      none
    else
      (b.queueMapping.priorityToQueue pkt.info.priority).toOption.map (fun queue => (queue.castSucc, pkt))
  | .schedulerPacket pkt => some (4, pkt)
  | .txOpportunity _ => none
  | .flowControlMessage _ => none

structure SameQueues (b b' : BaseModel) : Prop where
  id : b'.id = b.id
  queueMapping : b'.queueMapping = b.queueMapping
  queueManager : b'.queueManager = b.queueManager

theorem SameQueues.replaceTokens (b : BaseModel) (packetsDropped : Nat)
    : SameQueues b (b.replaceTokens packetsDropped).2
        ∧ (b.replaceTokens packetsDropped).1.filterMap Output.message = [] := by
  induction packetsDropped generalizing b with
  | zero => exact ⟨⟨rfl, rfl, rfl⟩, rfl⟩
  | succ packetsDropped ih =>
    obtain ⟨hsame, hmessages⟩ := ih (b.addToken 1).2
    refine ⟨⟨hsame.id, hsame.queueMapping, hsame.queueManager⟩, ?_⟩
    unfold BaseModel.replaceTokens
    simp only [List.filterMap_append, hmessages, List.append_nil]
    simp [addToken, List.filterMap_map, Function.comp_def, Output.message]

structure Enqueues (b : BaseModel) (i : QueueIndex) (pkt : DownstreamPacket) (outputs : List Output)
    (b' : BaseModel)
    : Prop where
  id : b'.id = b.id
  queueMapping : b'.queueMapping = b.queueMapping
  queue : ∃ dropped queue,
    (b.queueManager.queues i).enqueue pkt = some (dropped, queue)
      ∧ b'.queueManager = { b.queueManager with queues := Function.update b.queueManager.queues i queue }
  report : outputs.findSome? Output.enqueuedIn = some i
  messages : outputs.filterMap Output.message = []

structure Drains (b : BaseModel) (outputs : List Output) (b' : BaseModel) : Prop where
  id : b'.id = b.id
  queueMapping : b'.queueMapping = b.queueMapping
  queue : b'.queueManager = b.queueManager ∧ outputs.filterMap Output.message = []
    ∨ ∃ queueIndex requestedBytes destination d,
      b.queueManager.dequeue queueIndex requestedBytes destination = some (d, b'.queueManager)
        ∧ ∀ message ∈ outputs.filterMap Output.message, message.messages = d.components

theorem findSome?_reports (dropped : Option OwnedPacket) (i : QueueIndex) (outputs : List Output)
    : ((dropped.toList.flatMap
        (fun d : OwnedPacket =>
          [Report.drop i .DROP_OVERFLOW 1, BasicQueueManager.outbound d.packet .DROP_OVERFLOW])
        ++ [Report.enqueue i]).map Output.report ++ outputs).findSome? Output.enqueuedIn
        =
      some i := by
  cases dropped with
  | none => rfl
  | some d => rfl

theorem filterMap_message_reports (reports : List Report)
    : (reports.map Output.report).filterMap Output.message = [] := by
  simp [List.filterMap_map, Function.comp_def, Output.message]

variable {b b' : BaseModel} {pkt : DownstreamPacket} {outputs : List Output}

theorem Enqueues.of_processSchedulerPacket
    (h : b.processSchedulerPacket pkt = some (outputs, b'))
    : Enqueues b 4 pkt outputs b' := by
  unfold processSchedulerPacket at h
  simp only [Option.bind_eq_bind, Option.bind_eq_some_iff, Option.pure_def, Option.some.injEq,
    Prod.mk.injEq] at h
  obtain ⟨⟨n, reports, queueManager⟩, henqueue, rfl, rfl⟩ := h
  obtain ⟨dropped, queue, hqueue, _, hreports, hmanager⟩ :=
    @BasicQueueManager.enqueue_eq_some _ _ 4 _ _ _ henqueue
  constructor
  . rfl
  . rfl
  . exact ⟨dropped, queue, hqueue, hmanager⟩
  . simp only [hreports]
    have hfind := findSome?_reports dropped 4 []
    rw [List.append_nil] at hfind
    exact hfind
  . exact filterMap_message_reports reports

theorem Enqueues.of_processDownstreamPacket {target : Fin 4}
    (h : b.processDownstreamPacket pkt = some (outputs, b'))
    (hpass : ¬ (b.flowControlEnable && !b.flowControlManager.removeToken.1))
    (htarget : b.queueMapping.priorityToQueue pkt.info.priority = .ok target)
    : Enqueues b target.castSucc pkt outputs b' := by
  unfold processDownstreamPacket at h
  cases henable : b.flowControlEnable with
  | true =>
    have hstatus : b.flowControlManager.removeToken.1 = true := by simpa [henable] using hpass
    simp only [henable, ↓reduceIte, hstatus, htarget, Option.bind_eq_bind, Option.bind_eq_some_iff,
      Option.pure_def,
      Option.some.injEq, Prod.mk.injEq] at h
    obtain ⟨⟨n, reports, queueManager⟩, henqueue, rfl, rfl⟩ := h
    obtain ⟨dropped, queue, hqueue, _, hreports, hmanager⟩ :=
      @BasicQueueManager.enqueue_eq_some _ _ target.castSucc _ _ _ henqueue
    obtain ⟨hsame, hmessages⟩ := SameQueues.replaceTokens
      ⟨b.id, b.queueMapping, true, b.flowControlManager.removeToken.2, queueManager, b.sequenceNumber⟩ n
    constructor
    . exact hsame.id
    . exact hsame.queueMapping
    . refine ⟨dropped, queue, hqueue, ?_⟩
      rw [hsame.queueManager]
      exact hmanager
    . simp only [hreports]
      exact findSome?_reports dropped _ _
    . rw [List.filterMap_append, hmessages, filterMap_message_reports, List.append_nil]
  | false =>
    simp only [henable, Bool.false_eq_true, ↓reduceIte, htarget, Option.bind_eq_bind,
      Option.bind_eq_some_iff, Option.pure_def,
      Option.some.injEq, Prod.mk.injEq] at h
    obtain ⟨⟨n, reports, queueManager⟩, henqueue, rfl, rfl⟩ := h
    obtain ⟨dropped, queue, hqueue, _, hreports, hmanager⟩ :=
      @BasicQueueManager.enqueue_eq_some _ _ target.castSucc _ _ _ henqueue
    constructor
    . rfl
    . rfl
    . exact ⟨dropped, queue, hqueue, hmanager⟩
    . simp only [hreports]
      have hfind := findSome?_reports dropped target.castSucc []
      rw [List.append_nil] at hfind
      exact hfind
    . exact filterMap_message_reports reports

theorem Drains.of_sendDownstreamPacket {slot : TxSlotInfo}
    (h : b.sendDownstreamPacket slot = some (outputs, b'))
    : Drains b outputs b' := by
  unfold sendDownstreamPacket at h
  simp only [Option.bind_eq_bind, Option.bind_eq_some_iff] at h
  obtain ⟨⟨d, queueManager⟩, hdequeue, h⟩ := h
  split at h
  . obtain ⟨rfl, rfl⟩ := h
    split
    . constructor
      . rfl
      . rfl
      . refine Or.inr ⟨_, _, _, d, hdequeue, ?_⟩
        simp [List.filterMap_append, List.filterMap_map, Function.comp_def, Output.message, addToken]
    . constructor
      . rfl
      . rfl
      . refine Or.inr ⟨_, _, _, d, hdequeue, ?_⟩
        simp [List.filterMap_append, List.filterMap_map, Function.comp_def, Output.message]
  . obtain ⟨rfl, rfl⟩ := h
    constructor
    . rfl
    . rfl
    . refine Or.inr ⟨_, _, _, d, hdequeue, ?_⟩
      rw [filterMap_message_reports]
      simp

theorem Drains.of_processFlowControlMessage (b : BaseModel) (tokens : Nat)
    : Drains b (b.processFlowControlMessage tokens).1 (b.processFlowControlMessage tokens).2 := by
  unfold processFlowControlMessage
  split
  . constructor
    . rfl
    . rfl
    . refine Or.inl ⟨rfl, ?_⟩
      simp [List.filterMap_map, Function.comp_def, Output.message]
  . exact ⟨rfl, rfl, Or.inl ⟨rfl, rfl⟩⟩

theorem Enqueues.of_react {event : Event} {i : QueueIndex}
    (h : b.react event = some (outputs, b')) (htarget : b.target event = some (i, pkt))
    : event.packet = some pkt ∧ Enqueues b i pkt outputs b' := by
  cases event with
  | downstreamPacket pkt' =>
    simp only [target] at htarget
    split at htarget
    . simp at htarget
    . next hpass =>
      obtain ⟨queue, hqueue, heq⟩ := Option.map_eq_some_iff.mp htarget
      cases heq
      exact ⟨rfl, Enqueues.of_processDownstreamPacket h hpass (toOption_eq_some_iff.mp hqueue)⟩
  | schedulerPacket pkt' =>
    obtain ⟨rfl, rfl⟩ := htarget
    exact ⟨rfl, Enqueues.of_processSchedulerPacket h⟩
  | txOpportunity slot => simp [target] at htarget
  | flowControlMessage tokens => simp [target] at htarget

theorem Drains.of_react {event : Event}
    (h : b.react event = some (outputs, b')) (htarget : b.target event = none)
    : Drains b outputs b' ∧ (event.packet = none ∨ outputs.findSome? Output.enqueuedIn = none) := by
  cases event with
  | downstreamPacket pkt =>
    simp only [target] at htarget
    split at htarget
    . next hpass =>
      -- the packet is dropped by flow control
      rw [Bool.and_eq_true, Bool.not_eq_true'] at hpass
      simp only [react, processDownstreamPacket, hpass.1, hpass.2, ↓reduceIte, Bool.false_eq_true,
        Option.pure_def,
        Option.some.injEq, Prod.mk.injEq] at h
      obtain ⟨rfl, rfl⟩ := h
      exact ⟨⟨rfl, rfl, Or.inl ⟨rfl, rfl⟩⟩, Or.inr rfl⟩
    . next hpass =>
      have hstatus : (if b.flowControlEnable then b.flowControlManager.removeToken else (true,
          b.flowControlManager)).1 = true := by
        cases henable : b.flowControlEnable with
        | true => simpa [henable] using hpass
        | false => rfl
      cases hqueue : b.queueMapping.priorityToQueue pkt.info.priority with
      | ok queue =>
        rw [hqueue] at htarget
        cases htarget
      | error fault =>
        -- the token is gone, nothing else has happened
        simp only [react, processDownstreamPacket, hstatus, hqueue, if_true, Option.pure_def,
          Option.some.injEq,
          Prod.mk.injEq] at h
        obtain ⟨rfl, rfl⟩ := h
        exact ⟨⟨rfl, rfl, Or.inl ⟨rfl, rfl⟩⟩, Or.inr rfl⟩
  | schedulerPacket pkt => simp [target] at htarget
  | txOpportunity slot => exact ⟨Drains.of_sendDownstreamPacket h, Or.inl rfl⟩
  | flowControlMessage tokens =>
    obtain ⟨rfl, rfl⟩ := Prod.mk.inj (Option.some.inj h)
    exact ⟨Drains.of_processFlowControlMessage b tokens, Or.inl rfl⟩

end BaseModel

namespace Exchange

variable {i : QueueIndex} {pkt : DownstreamPacket}

theorem noteEnqueued_of_enqueues {b b' : BaseModel} {event : BaseModel.Event}
    {outputs : List BaseModel.Output} (hpacket : event.packet = some pkt)
    (h : b.Enqueues i pkt outputs b')
    (enqueued : QueueIndex → List DownstreamPacket)
    : noteEnqueued enqueued event outputs = Function.update enqueued i (enqueued i ++ [pkt]) := by
  simp only [noteEnqueued, hpacket, h.report]

theorem noteEnqueued_of_none {event : BaseModel.Event} {outputs : List BaseModel.Output}
    (h : event.packet = none ∨ outputs.findSome? BaseModel.Output.enqueuedIn = none)
    (enqueued : QueueIndex → List DownstreamPacket)
    : noteEnqueued enqueued event outputs = enqueued := by
  cases h with
  | inl hpacket => simp only [noteEnqueued, hpacket]
  | inr hreport => simp [noteEnqueued, hreport]

structure Inv (id : NEMId) (mapping : QueueTexts) (s : Exchange) (es : QueueIndex → List Entry)
    : Prop where
  id_eq : s.model.id = id
  queueMapping : s.model.queueMapping = mapping
  manages : BasicQueueManager.Manages s.model.queueManager.toQueueManagerConfig
    s.model.queueManager.queues es
  counter : ∀ i, (s.model.queueManager.queues i).counter = (s.enqueued i).length
  entries : ∀ i, ∀ e ∈ es i, (s.enqueued i)[e.seq]? = some e.packet
  -- the packets of a priority are all in one queue
  mapped : ∀ i : Fin 4, ∀ pkt ∈ s.enqueued i.castSucc, mapping.priorityToQueue pkt.info.priority = .ok i
  origin : ∀ c ∈ s.sent, ∃ i n pkt, (s.enqueued i)[n]? = some pkt ∧ c.CutFrom i n pkt
  drawn : s.receiver.Drawn (fun source c => source = id → c ∈ s.sent)

theorem Inv.of_init (id : NEMId) (mapping : QueueTexts) (flowControlEnable : Bool)
    (cfg : QueueManagerConfig)
    (flowControlTokens : Nat) (receiver : NEMId) (promiscuousMode : Bool) (check timeout : Nat)
    : Inv id mapping
        (init ((BaseModel.configure id mapping flowControlEnable cfg).postStart flowControlTokens).2
          (.init receiver promiscuousMode check timeout))
        (fun _ => []) := by
  have hstart : BaseModel.SameQueues (BaseModel.configure id mapping flowControlEnable cfg)
      ((BaseModel.configure id mapping flowControlEnable cfg).postStart flowControlTokens).2 := by
    unfold BaseModel.postStart
    split
    . exact ⟨rfl, rfl, rfl⟩
    . exact ⟨rfl, rfl, rfl⟩
  constructor
  . exact hstart.id
  . exact hstart.queueMapping
  . simp only [init, hstart.queueManager]
    exact BasicQueueManager.Manages.of_configure id cfg
  . intro i
    simp only [init, hstart.queueManager]
    rfl
  . simp
  . simp [init]
  . simp [init, sent]
  . exact ReceiveManager.Drawn.of_init receiver promiscuousMode check timeout

variable {j : QueueIndex} {pkt' : DownstreamPacket}

theorem getElem?_update {enqueued : QueueIndex → List DownstreamPacket} (i : QueueIndex)
    (pkt : DownstreamPacket) {n : Nat} (h : (enqueued j)[n]? = some pkt')
    : (Function.update enqueued i (enqueued i ++ [pkt]) j)[n]? = some pkt' := by
  by_cases hj : j = i
  . subst hj
    rw [Function.update_self, getElem?_concat_eq_some_iff]
    exact Or.inl h
  . rw [Function.update_of_ne hj]
    exact h

section

variable {id : NEMId} {mapping : QueueTexts} {s : Exchange} {es : QueueIndex → List Entry}
  {outputs : List BaseModel.Output}
  {model : BaseModel}

theorem Inv.enqueues {i : QueueIndex} {pkt : DownstreamPacket} (h : Inv id mapping s es)
    (henqueues : s.model.Enqueues i pkt outputs model)
    (hmapped : ∀ j : Fin 4, i = j.castSucc → mapping.priorityToQueue pkt.info.priority = .ok j)
    : ∃ es', Inv id mapping { s with model := model, enqueued := Function.update s.enqueued i (s.enqueued i ++ [pkt]) } es' := by
  obtain ⟨dropped, queue, hqueue, hmanager⟩ := henqueues.queue
  obtain ⟨rest, hholds, hconfig, _, hrest, hcounter⟩ := (h.manages.holds i).of_enqueue hqueue
  rw [h.manages.config] at hconfig
  refine ⟨Function.update es i (rest ++ [⟨(s.model.queueManager.queues i).counter, pkt, 0, 0⟩]), ?_⟩
  constructor
  . rw [← h.id_eq]
    exact henqueues.id
  . rw [← h.queueMapping]
    exact henqueues.queueMapping
  . simp only [hmanager]
    exact h.manages.update hholds hconfig
  . intro j
    simp only [hmanager]
    by_cases hj : j = i
    . subst hj
      simp only [Function.update_self, List.length_append, List.length_singleton]
      rw [hcounter, h.counter]
    . simp only [Function.update_of_ne hj]
      exact h.counter j
  . intro j e he
    by_cases hj : j = i
    . subst hj
      simp only [Function.update_self, List.mem_append, List.mem_singleton] at he ⊢
      rw [getElem?_concat_eq_some_iff]
      cases he with
      | inl hold => exact Or.inl (h.entries j e (hrest hold))
      | inr hnew =>
        rw [hnew]
        exact Or.inr ⟨h.counter j, rfl⟩
    . simp only [Function.update_of_ne hj] at he ⊢
      exact h.entries j e he
  . intro j pkt' hpkt'
    by_cases hj : j.castSucc = i
    . simp only [← hj, Function.update_self, List.mem_append, List.mem_singleton] at hpkt'
      cases hpkt' with
      | inl hold => exact h.mapped j pkt' hold
      | inr hnew =>
        rw [hnew]
        exact hmapped j hj.symm
    . simp only [Function.update_of_ne hj] at hpkt'
      exact h.mapped j pkt' hpkt'
  . intro c hc
    obtain ⟨j, n, pkt', hpkt', hcut⟩ := h.origin c hc
    exact ⟨j, n, pkt', getElem?_update i pkt hpkt', hcut⟩
  . exact h.drawn

theorem Inv.drains (h : Inv id mapping s es) (hdrains : s.model.Drains outputs model)
    : ∃ es',
        Inv id mapping
          { s with model := model, messages :=
              s.messages ++ outputs.filterMap BaseModel.Output.message } es' := by
  have hsent : ∀ c ∈ s.sent,
      c ∈ (s.messages ++ outputs.filterMap BaseModel.Output.message).flatMap
          BaseModelMessage.messages := by
    intro c hc
    rw [List.flatMap_append]
    exact List.mem_append_left _ hc
  have hdrawn := h.drawn.mono (fun source c (hc : source = id → c ∈ s.sent) heq => hsent c (hc heq))
  cases hdrains.queue with
  | inl hsame =>
    refine ⟨es, ?_⟩
    constructor
    . rw [← h.id_eq]
      exact hdrains.id
    . rw [← h.queueMapping]
      exact hdrains.queueMapping
    . simp only [hsame.1]
      exact h.manages
    . simp only [hsame.1]
      exact h.counter
    . exact h.entries
    . exact h.mapped
    . intro c hc
      simp only [sent, hsame.2, List.append_nil] at hc
      exact h.origin c hc
    . exact hdrawn
  | inr hdequeue =>
    obtain ⟨queueIndex, requestedBytes, destination, d, hdequeue, hmessages⟩ := hdequeue
    obtain ⟨d', queueManager, fs, heq, hspends⟩ :=
      BasicQueueManager.exists_spends h.manages queueIndex requestedBytes destination
    rw [hdequeue, Option.some.injEq, Prod.mk.injEq] at heq
    obtain ⟨rfl, rfl⟩ := heq
    have hentries : ∀ i, ∀ e ∈ (s.model.queueManager.queues i).entries,
        (s.enqueued i)[e.seq]? = some e.packet := by
      intro i e he
      rw [(h.manages.holds i).entries_eq] at he
      exact h.entries i e he
    refine ⟨fun i => (fs i).after, ?_⟩
    constructor
    . rw [← h.id_eq]
      exact hdrains.id
    . rw [← h.queueMapping]
      exact hdrains.queueMapping
    . simp only [hspends.config]
      exact hspends.manages
    . intro i
      rw [BasicQueueManager.counter_dequeue hdequeue]
      exact h.counter i
    . intro i e he
      obtain ⟨e', he', hseq, hpacket⟩ := Fifo.Fates.mem_after he
      rw [hspends.before] at he'
      rw [hseq, hpacket]
      exact hentries i e' he'
    . exact h.mapped
    . intro c hc
      simp only [sent, List.flatMap_append, List.mem_append] at hc
      cases hc with
      | inl hold => exact h.origin c hold
      | inr hnew =>
        rw [List.mem_flatMap] at hnew
        obtain ⟨message, hmessage, hc⟩ := hnew
        rw [hmessages message hmessage] at hc
        obtain ⟨i, e, he, hcut⟩ := hspends.exists_cutFrom hc
        exact ⟨i, e.seq, e.packet, hentries i e he, hcut⟩
    . exact hdrawn

theorem Inv.receive (h : Inv id mapping s es) {pending : PendingInfo}
    (hpending : pending.info.source = id → ∀ c ∈ pending.message.messages, c ∈ s.sent) (now : Nat)
    (reception : Reception)
    : Inv id mapping (s.receive pending now reception) es where
  id_eq := h.id_eq
  queueMapping := h.queueMapping
  manages := h.manages
  counter := h.counter
  entries := h.entries
  mapped := h.mapped
  origin := h.origin
  drawn := h.drawn.enqueue (fun c hc heq => hpending heq c hc) now reception

theorem target_mapped (h : Inv id mapping s es) {event : BaseModel.Event} {i : QueueIndex}
    {pkt : DownstreamPacket}
    (htarget : s.model.target event = some (i, pkt))
    : ∀ j : Fin 4, i = j.castSucc → mapping.priorityToQueue pkt.info.priority = .ok j := by
  intro j hj
  cases event with
  | downstreamPacket pkt' =>
    simp only [BaseModel.target] at htarget
    split at htarget
    . simp at htarget
    . obtain ⟨queue, hqueue, heq⟩ := Option.map_eq_some_iff.mp htarget
      cases heq
      rw [← h.queueMapping, ← Fin.castSucc_inj.mp hj]
      exact toOption_eq_some_iff.mp hqueue
  | schedulerPacket pkt' =>
    simp only [BaseModel.target, Option.some.injEq, Prod.mk.injEq] at htarget
    rw [← htarget.1] at hj
    have hlt := Fin.castSucc_lt_last j
    rw [← hj] at hlt
    exact absurd hlt (by decide)
  | txOpportunity slot => simp [BaseModel.target] at htarget
  | flowControlMessage tokens => simp [BaseModel.target] at htarget

end

def target (s : Exchange) : Event → Option (QueueIndex × DownstreamPacket)
  | .model event => s.model.target event
  | .arrival _ _ _ _ _ => none
  | .foreignArrival _ _ _ => none
  | .process _ _ _ => none

variable {s s' : Exchange} {event : Event}

theorem enqueued_step (h : s.step event = some s')
    : s'.enqueued
        =
      match s.target event with
      | some (i, pkt) => Function.update s.enqueued i (s.enqueued i ++ [pkt])
      | none => s.enqueued := by
  cases event with
  | model event =>
    simp only [step, Option.bind_eq_bind, Option.bind_eq_some_iff, Option.pure_def,
      Option.some.injEq] at h
    obtain ⟨⟨outputs, model⟩, hreact, rfl⟩ := h
    simp only [target]
    cases htarget : s.model.target event with
    | none => exact noteEnqueued_of_none (BaseModel.Drains.of_react hreact htarget).2 s.enqueued
    | some target =>
      obtain ⟨hpacket, henqueues⟩ := BaseModel.Enqueues.of_react hreact htarget
      exact noteEnqueued_of_enqueues hpacket henqueues s.enqueued
  | arrival index info startOfReception now reception =>
    simp only [step, Option.bind_eq_bind, Option.bind_eq_some_iff, Option.pure_def,
      Option.some.injEq] at h
    obtain ⟨message, _, rfl⟩ := h
    rfl
  | foreignArrival pending now reception =>
    simp only [step] at h
    split at h
    . simp at h
    . cases h
      rfl
  | process absoluteSlotIndex now reception =>
    cases h
    rfl

variable {id : NEMId} {mapping : QueueTexts} {es : QueueIndex → List Entry}

theorem Inv.step
    (hinv : Inv id mapping s es) (h : s.step event = some s')
    : ∃ es', Inv id mapping s' es' := by
  have henqueued := enqueued_step h
  cases event with
  | model event =>
    simp only [Exchange.step, Option.bind_eq_bind, Option.bind_eq_some_iff, Option.pure_def, Option.some.injEq] at h
    obtain ⟨⟨outputs, model⟩, hreact, rfl⟩ := h
    simp only [target] at henqueued ⊢
    rw [henqueued]
    cases htarget : s.model.target event with
    | none => exact hinv.drains (BaseModel.Drains.of_react hreact htarget).1
    | some target =>
      obtain ⟨_, henqueues⟩ := BaseModel.Enqueues.of_react hreact htarget
      rw [henqueues.messages, List.append_nil]
      exact hinv.enqueues henqueues (target_mapped hinv htarget)
  | arrival index info startOfReception now reception =>
    simp only [Exchange.step, Option.bind_eq_bind, Option.bind_eq_some_iff,
      Option.pure_def, Option.some.injEq] at h
    obtain ⟨message, hmessage, rfl⟩ := h
    refine ⟨es, hinv.receive ?_ now reception⟩
    intro _ c hc
    exact List.mem_flatMap.mpr ⟨message, List.mem_of_getElem? hmessage, hc⟩
  | foreignArrival pending now reception =>
    simp only [Exchange.step] at h
    split at h
    . simp at h
    . next hsource =>
      cases h
      rw [hinv.id_eq] at hsource
      exact ⟨es, hinv.receive (fun heq => absurd heq hsource) now reception⟩
  | process absoluteSlotIndex now reception =>
    cases h
    exact ⟨es, {
      id_eq := hinv.id_eq
      queueMapping := hinv.queueMapping
      manages := hinv.manages
      counter := hinv.counter
      entries := hinv.entries
      mapped := hinv.mapped
      origin := hinv.origin
      drawn := hinv.drawn.process absoluteSlotIndex now reception
    }⟩

/--
The key of a packet is new if no packet of the other kind has its number and its priority.
-/
def TakesFreshKey (s : Exchange) (event : Event) : Prop :=
  match s.target event with
  | some (i, pkt) =>
    ∀ j, BasicQueueManager.kind j ≠ BasicQueueManager.kind i →
      (s.enqueued j)[(s.model.queueManager.queues i).counter]?.all
        (fun pkt' => pkt'.info.priority ≠ pkt.info.priority)
  | none => True

instance (s : Exchange) (event : Event) : Decidable (s.TakesFreshKey event) := by
  unfold TakesFreshKey
  split
  . infer_instance
  . infer_instance

def KeysDistinct (s : Exchange) : Prop :=
  ∀ (i j : QueueIndex) (n : Nat) (pkt pkt' : DownstreamPacket), (s.enqueued i)[n]? = some pkt →
    (s.enqueued j)[n]? = some pkt' → pkt.info.priority = pkt'.info.priority → i = j

theorem Inv.queue_eq
    (h : Inv id mapping s es) (hpkt : pkt ∈ s.enqueued i)
    (hpkt' : pkt' ∈ s.enqueued j) (hkind : BasicQueueManager.kind i = BasicQueueManager.kind j)
    (hpriority : pkt.info.priority = pkt'.info.priority)
    : i = j := by
  unfold BasicQueueManager.kind at hkind
  by_cases hi : i = 4
  . by_cases hj : j = 4
    . rw [hi, hj]
    . simp [hi, hj] at hkind
  . by_cases hj : j = 4
    . simp [hi, hj] at hkind
    . obtain ⟨i', rfl⟩ := Fin.exists_castSucc_eq.mpr hi
      obtain ⟨j', rfl⟩ := Fin.exists_castSucc_eq.mpr hj
      have hmapped := h.mapped i' pkt hpkt
      rw [hpriority, h.mapped j' pkt' hpkt'] at hmapped
      rw [Except.ok.inj hmapped]

theorem getElem?_update_eq_some {enqueued : QueueIndex → List DownstreamPacket} {n : Nat}
    (h : (Function.update enqueued i (enqueued i ++ [pkt]) j)[n]? = some pkt')
    : (enqueued j)[n]? = some pkt' ∨ j = i ∧ n = (enqueued i).length ∧ pkt' = pkt := by
  by_cases hj : j = i
  . subst hj
    rw [Function.update_self, getElem?_concat_eq_some_iff] at h
    cases h with
    | inl hold => exact Or.inl hold
    | inr hnew => exact Or.inr ⟨rfl, hnew.1, hnew.2.symm⟩
  . rw [Function.update_of_ne hj] at h
    exact Or.inl h

theorem keysDistinct_step
    (hinv : Inv id mapping s es) (h : s.step event = some s')
    : s'.KeysDistinct ↔ s.KeysDistinct ∧ s.TakesFreshKey event := by
  obtain ⟨es', hinv'⟩ := hinv.step h
  have henqueued := enqueued_step h
  unfold TakesFreshKey
  cases htarget : s.target event with
  | none =>
    rw [htarget] at henqueued
    unfold KeysDistinct
    rw [henqueued]
    simp
  | some target =>
    obtain ⟨i, pkt⟩ := target
    rw [htarget] at henqueued
    simp only at henqueued ⊢
    have hnew : (s'.enqueued i)[(s.enqueued i).length]? = some pkt := by
      rw [henqueued, Function.update_self, getElem?_concat_eq_some_iff]
      exact Or.inr ⟨rfl, rfl⟩
    have hold : ∀ {j : QueueIndex} {n : Nat} {pkt' : DownstreamPacket},
        (s.enqueued j)[n]? = some pkt' → (s'.enqueued j)[n]? = some pkt' := by
      intro j n pkt' hpkt'
      rw [henqueued]
      exact getElem?_update i pkt hpkt'
    rw [hinv.counter]
    constructor
    . intro hdistinct
      constructor
      . intro j k n pkt₁ pkt₂ hpkt₁ hpkt₂
        exact hdistinct j k n pkt₁ pkt₂ (hold hpkt₁) (hold hpkt₂)
      . intro j hkind
        rw [Option.all_eq_true]
        intro pkt' hpkt'
        apply decide_eq_true
        intro hpriority
        have heq := hdistinct j i _ pkt' pkt (hold hpkt') hnew hpriority
        exact hkind (by rw [heq])
    . rintro ⟨hdistinct, hfresh⟩
      -- a packet with the key of the new one is of its kind, so it is in its queue
      have hother : ∀ (j : QueueIndex) (pkt' : DownstreamPacket),
        (s.enqueued j)[(s.enqueued i).length]? = some pkt' →
          pkt'.info.priority = pkt.info.priority → j = i := by
        intro j pkt' hpkt' hpriority
        by_cases hkind : BasicQueueManager.kind j = BasicQueueManager.kind i
        . exact hinv'.queue_eq (List.mem_of_getElem? (hold hpkt'))
            (List.mem_of_getElem? hnew) hkind hpriority
        . have hne := hfresh j hkind
          rw [hpkt', Option.all_some, decide_eq_true_eq] at hne
          exact absurd hpriority hne
      intro j k n pkt₁ pkt₂ hpkt₁ hpkt₂ hpriority
      rw [henqueued] at hpkt₁ hpkt₂
      rcases getElem?_update_eq_some hpkt₁ with hold₁ | ⟨rfl, rfl, rfl⟩
      . rcases getElem?_update_eq_some hpkt₂ with hold₂ | ⟨rfl, rfl, rfl⟩
        . exact hdistinct j k n pkt₁ pkt₂ hold₁ hold₂ hpriority
        . exact hother j pkt₁ hold₁ hpriority
      . rcases getElem?_update_eq_some hpkt₂ with hold₂ | ⟨rfl, _, _⟩
        . exact (hother k pkt₂ hold₂ hpriority.symm).symm
        . rfl

structure Fragment (s : Exchange) (i : QueueIndex) (n : Nat) (pkt : DownstreamPacket)
    (c : MessageComponent) : Prop where
  enqueued : (s.enqueued i)[n]? = some pkt
  sent : c ∈ s.sent
  isFragment : c.isFragment
  cutFrom : c.CutFrom i n pkt

/--
Fragments of different packets have different keys, and what the receiver has assembled under a key
are fragments of one packet.
-/
structure KeysUnique (s : Exchange) : Prop where
  origin : ∀ c ∈ s.sent, ∃ i n pkt, (s.enqueued i)[n]? = some pkt ∧ c.CutFrom i n pkt
  keys : ∀ i n pkt c j m pkt' d, s.Fragment i n pkt c → s.Fragment j m pkt' d →
    ReceiveManager.fragmentKey s.model.id c = ReceiveManager.fragmentKey s.model.id d → i = j ∧ n = m
  assemblies : ∀ key assembly, s.receiver.fragmentStore.find? key = some assembly
    → (ofLex key).1 = s.model.id →
    ∃ i n pkt, ∀ part ∈ assembly.parts.toList, ∃ c, s.Fragment i n pkt c
      ∧ part = (c.fragmentOffset, c.data)

theorem eq_of_fragmentKey_eq {source : NEMId} {c d : MessageComponent}
    (h : ReceiveManager.fragmentKey source c = ReceiveManager.fragmentKey source d)
    : c.priority = d.priority ∧ c.fragmentSequence = d.fragmentSequence := by
  unfold ReceiveManager.fragmentKey at h
  simpa only [EmbeddingLike.apply_eq_iff_eq, Prod.mk.injEq, true_and] using h

theorem Inv.keysUnique
    (hinv : Inv id mapping s es) (hdistinct : s.KeysDistinct)
    : s.KeysUnique := by
  have hkeys : ∀ i n pkt c j m pkt' d, s.Fragment i n pkt c → s.Fragment j m pkt' d →
      ReceiveManager.fragmentKey s.model.id c = ReceiveManager.fragmentKey s.model.id d → i = j
          ∧ n = m := by
    intro i n pkt c j m pkt' d hc hd hkey
    obtain ⟨hpriority, hseq⟩ := eq_of_fragmentKey_eq hkey
    rw [hc.cutFrom.priority, hd.cutFrom.priority] at hpriority
    rw [hc.cutFrom.fragmentSequence, hd.cutFrom.fragmentSequence] at hseq
    have henqueued := hd.enqueued
    rw [← hseq] at henqueued
    exact ⟨hdistinct i j n pkt pkt' hc.enqueued henqueued hpriority, hseq⟩
  refine ⟨hinv.origin, hkeys, ?_⟩
  intro key assembly hfind hsource
  have hassembly := hinv.drawn.store key assembly hfind
  have hfragment : ∀ part ∈ assembly.parts.toList, ∃ c, ReceiveManager.fragmentKey s.model.id c = key
      ∧ part = (c.fragmentOffset, c.data) ∧ ∃ i n pkt, s.Fragment i n pkt c := by
    intro part hpart
    obtain ⟨c, hc⟩ := hassembly.parts part hpart
    have hsent : c ∈ s.sent := by
      apply hc.heard
      rw [hsource]
      exact hinv.id_eq
    obtain ⟨i, n, pkt, henqueued, hcut⟩ := hinv.origin c hsent
    refine ⟨c, ?_, hc.part_eq, i, n, pkt, henqueued, hsent, hc.isFragment, hcut⟩
    rw [← hsource]
    exact hc.key_eq
  obtain ⟨part₀, hpart₀⟩ := List.exists_mem_of_ne_nil _ hassembly.nonempty
  obtain ⟨c₀, hkey₀, _, i, n, pkt, hc₀⟩ := hfragment part₀ hpart₀
  refine ⟨i, n, pkt, ?_⟩
  intro part hpart
  obtain ⟨c, hkey, heq, j, m, pkt', hc⟩ := hfragment part hpart
  obtain ⟨rfl, rfl⟩ := hkeys _ _ _ _ _ _ _ _ hc₀ hc (hkey₀.trans hkey.symm)
  have hpkt := hc.enqueued
  rw [hc₀.enqueued, Option.some.injEq] at hpkt
  rw [hpkt]
  exact ⟨c, hc, heq⟩

section

variable (id : NEMId) (mapping : QueueTexts) (flowControlEnable : Bool) (cfg : QueueManagerConfig)
  (flowControlTokens : Nat)
  (receiver : NEMId) (promiscuousMode : Bool) (check timeout : Nat)

def start : Exchange :=
  init ((BaseModel.configure id mapping flowControlEnable cfg).postStart flowControlTokens).2
    (.init receiver promiscuousMode check timeout)

variable {id mapping flowControlEnable cfg flowControlTokens receiver promiscuousMode check timeout}
  {events : List Event}
  {s : Exchange}

theorem run_inv
    (hrun : run step (start id mapping flowControlEnable cfg flowControlTokens receiver
      promiscuousMode check timeout) events
      = some s)
    : ∃ es, Inv id mapping s es := by
  have hstep : ∀ (s : Exchange) (event : Event) (s' : Exchange), (∃ es, Inv id mapping s es) → True
    → s.step event = some s' →
      ∃ es, Inv id mapping s' es := by
    intro s event s' ⟨es, hinv⟩ _ h
    exact hinv.step h
  apply Emane.run_inv hstep _ (guarded_of_forall (fun _ _ => trivial)) hrun
  exact ⟨_, Inv.of_init id mapping flowControlEnable cfg flowControlTokens receiver promiscuousMode
    check timeout⟩

theorem run_keysDistinct_iff
    (hrun : run step (start id mapping flowControlEnable cfg flowControlTokens receiver
      promiscuousMode check timeout) events
      = some s)
    : s.KeysDistinct
        ↔
      Guarded step TakesFreshKey
        (start id mapping flowControlEnable cfg flowControlTokens receiver promiscuousMode check
            timeout) events := by
  have hgood := run_good_iff (fun (s : Exchange) event s' (hinv : ∃ es, Inv id mapping s es) h =>
    hinv.elim (fun _ hinv => hinv.step h))
    (fun (s : Exchange) event s' (hinv : ∃ es, Inv id mapping s es) h => hinv.elim
      (fun _ hinv => keysDistinct_step hinv h))
    ⟨_, Inv.of_init id mapping flowControlEnable cfg flowControlTokens receiver promiscuousMode
      check timeout⟩ hrun
  rw [hgood]
  apply and_iff_right
  intro i j n pkt pkt' hpkt
  simp [init] at hpkt

/--
As long as no packet of the scheduler takes the key of a packet from the transport, or the other
way round, fragments of two packets are never merged.
-/
theorem run_keysUnique
    (hrun : run step (start id mapping flowControlEnable cfg flowControlTokens receiver
      promiscuousMode check timeout) events
      = some s)
    (hfresh : Guarded step TakesFreshKey
      (start id mapping flowControlEnable cfg flowControlTokens receiver promiscuousMode check
        timeout) events)
    : s.KeysUnique := by
  obtain ⟨es, hinv⟩ := run_inv hrun
  exact hinv.keysUnique ((run_keysDistinct_iff hrun).mpr hfresh)

end

theorem run_keysUnique_example
    : ∃ s,
        run step (start 1 .empty false ⟨10, true, true, true, fun n => n⟩ 0 2 false 2 10) [
          .model (.downstreamPacket ⟨⟨1, 2, 0, 0, 0⟩, [[1, 2, 3]]⟩),
            .model (.schedulerPacket ⟨⟨1, 2, 1, 0, 0⟩, [[4, 5, 6]]⟩),
          .model (.txOpportunity ⟨1, 1000, 0, 0, 2⟩), .arrival 0 ⟨1, 2, 0, 0, 0⟩ 1 1 .received,
            .process 2 2 .received,
          .model (.txOpportunity ⟨3, 1000, 4, 0, 2⟩), .arrival 1 ⟨1, 2, 0, 0, 0⟩ 3 3 .received,
            .process 4 4 .received
        ] = some s
          ∧ s.KeysUnique := by
  have hsome : (run step (start 1 .empty false ⟨10, true, true, true, fun n => n⟩ 0 2 false 2 10) [
      .model (.downstreamPacket ⟨⟨1, 2, 0, 0, 0⟩, [[1, 2, 3]]⟩),
        .model (.schedulerPacket ⟨⟨1, 2, 1, 0, 0⟩, [[4, 5, 6]]⟩),
      .model (.txOpportunity ⟨1, 1000, 0, 0, 2⟩), .arrival 0 ⟨1, 2, 0, 0, 0⟩ 1 1 .received,
        .process 2 2 .received,
      .model (.txOpportunity ⟨3, 1000, 4, 0, 2⟩), .arrival 1 ⟨1, 2, 0, 0, 0⟩ 3 3 .received,
        .process 4 4 .received
    ]).isSome := by decide
  obtain ⟨s, hrun⟩ := Option.isSome_iff_exists.mp hsome
  exact ⟨s, hrun, run_keysUnique hrun (by decide)⟩

theorem not_keysUnique_of_shared_priority
    : ∃ s,
        run step (start 1 .empty false ⟨10, true, true, true, fun n => n⟩ 0 2 false 2 10) [
          .model (.downstreamPacket ⟨⟨1, 2, 0, 0, 0⟩, [[1, 2, 3]]⟩),
            .model (.schedulerPacket ⟨⟨1, 2, 0, 0, 0⟩, [[4, 5, 6]]⟩),
          .model (.txOpportunity ⟨1, 1000, 0, 0, 2⟩), .arrival 0 ⟨1, 2, 0, 0, 0⟩ 1 1 .received,
            .process 2 2 .received,
          .model (.txOpportunity ⟨3, 1000, 4, 0, 2⟩), .arrival 1 ⟨1, 2, 0, 0, 0⟩ 3 3 .received,
            .process 4 4 .received,
          .model (.txOpportunity ⟨5, 1000, 4, 0, 2⟩), .arrival 2 ⟨1, 2, 0, 0, 0⟩ 5 5 .received
        ] = some s
          ∧ ¬ s.KeysUnique
          ∧ (s.receiver.process 6 6 .received).2.filterMap ReceiveManager.Output.delivery
              = [⟨.control, 2, 0, [1, 2, 6]⟩] := by
  have hall : (run step (start 1 .empty false ⟨10, true, true, true, fun n => n⟩ 0 2 false 2 10) [
      .model (.downstreamPacket ⟨⟨1, 2, 0, 0, 0⟩, [[1, 2, 3]]⟩),
        .model (.schedulerPacket ⟨⟨1, 2, 0, 0, 0⟩, [[4, 5, 6]]⟩),
      .model (.txOpportunity ⟨1, 1000, 0, 0, 2⟩), .arrival 0 ⟨1, 2, 0, 0, 0⟩ 1 1 .received,
        .process 2 2 .received,
      .model (.txOpportunity ⟨3, 1000, 4, 0, 2⟩), .arrival 1 ⟨1, 2, 0, 0, 0⟩ 3 3 .received,
        .process 4 4 .received,
      .model (.txOpportunity ⟨5, 1000, 4, 0, 2⟩), .arrival 2 ⟨1, 2, 0, 0, 0⟩ 5 5 .received
    ]).any (fun s =>
      (∃ c ∈ s.sent, ∃ d ∈ s.sent, c.isFragment ∧ d.isFragment ∧ c.type ≠ d.type
        ∧ ReceiveManager.fragmentKey s.model.id c = ReceiveManager.fragmentKey s.model.id d)
        ∧ (s.receiver.process 6 6 .received).2.filterMap ReceiveManager.Output.delivery
            = [⟨.control, 2, 0, [1, 2, 6]⟩]) := by
    decide
  rw [Option.any_eq_true] at hall
  obtain ⟨s, hrun, hall⟩ := hall
  obtain ⟨⟨c, hc, d, hd, hcfrag, hdfrag, htype, hkey⟩, hdelivery⟩ := of_decide_eq_true hall
  refine ⟨s, hrun, ?_, hdelivery⟩
  intro hunique
  obtain ⟨i, n, pkt, henqueued, hcut⟩ := hunique.origin c hc
  obtain ⟨j, m, pkt', henqueued', hcut'⟩ := hunique.origin d hd
  have heq := hunique.keys i n pkt c j m pkt' d ⟨henqueued, hc, hcfrag, hcut⟩
    ⟨henqueued', hd, hdfrag, hcut'⟩ hkey
  rw [hcut.type, hcut'.type, heq.1] at htype
  exact htype rfl

end Exchange

end Tdma
end Emane

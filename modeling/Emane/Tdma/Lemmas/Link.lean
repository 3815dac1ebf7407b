import Emane.Tdma.Lemmas.History
import Emane.Tdma.Lemmas.ReceiveManager

/-!
This module contains the round trip from the queue of one radio to the deliveries of another: as
long as no empty fragment is cut, every packet whose bytes have all been sent is delivered once
and unchanged.
-/

namespace Emane
namespace Tdma

namespace Link

def Tracks (source : NEMId) (m : ReceiveManager) (es : List Entry) : Prop :=
  ∀ e ∈ es, m.accepts e.destination →
    ReceiveManager.Assembles e.packet e.index e.offset (m.fragmentStore.find? (e.fragmentKey source))

variable {source : NEMId}

theorem fragmentKey_ne {e : Entry} {c : MessageComponent} (h : c.fragmentSequence ≠ e.seq)
    : e.fragmentKey source ≠ ReceiveManager.fragmentKey source c := by
  intro heq
  unfold Entry.fragmentKey ReceiveManager.fragmentKey at heq
  simp only [EmbeddingLike.apply_eq_iff_eq, Prod.mk.injEq, true_and] at heq
  exact h heq.2.symm

section

variable {m : ReceiveManager} {info : PacketInfo} {e : Entry} {es : List Entry} (now : Nat)
  (metaInfo : PacketMetaInfo)

theorem Tracks.receive (h : Tracks info.source m es) {c : MessageComponent}
    (hother : ∀ e ∈ es, c.fragmentSequence ≠ e.seq)
    : Tracks info.source (m.receive now info metaInfo c).1 es := by
  intro e he haccepts
  rw [ReceiveManager.accepts_receive] at haccepts
  rw [ReceiveManager.find?_receive_of_ne _ _ _ _ _ (fragmentKey_ne (hother e he))]
  exact h e he haccepts

theorem Tracks.cons (hes : Tracks info.source m es)
    (he : m.accepts e.destination →
      ReceiveManager.Assembles e.packet e.index e.offset
        (m.fragmentStore.find? (e.fragmentKey info.source)))
    : Tracks info.source m (e :: es) := by
  intro e' he'
  rw [List.mem_cons] at he'
  cases he' with
  | inl heq =>
    rw [heq]
    exact he
  | inr hmem => exact hes e' hmem

theorem accepts_receiveAll (m : ReceiveManager) (cs : MessageComponents) (dst : NEMId)
    : (m.receiveAll now info metaInfo cs).1.accepts dst = m.accepts dst := by
  rw [ReceiveManager.receiveAll_eq]
  rfl

end

theorem delivery_receive_cut {m : ReceiveManager} {info : PacketInfo} {e : Entry} (now : Nat)
    (metaInfo : PacketMetaInfo)
    (kind : MessageComponent.Kind) {n : Nat} (hpos : 0 < n) (hn : n < e.remaining)
    (hassembles : m.accepts e.destination →
      ReceiveManager.Assembles e.packet e.index e.offset
        (m.fragmentStore.find? (e.fragmentKey info.source)))
    : (m.receive now info metaInfo (e.component kind n)).2.filterMap ReceiveManager.Output.delivery
        = [] := by
  by_cases haccepts : m.accepts e.destination
  . exact (ReceiveManager.receive_cut now metaInfo kind haccepts hpos hn (hassembles haccepts)).2
  . rw [ReceiveManager.receive_of_not_accepts m now info metaInfo haccepts]
    rfl

theorem receiveAll_fates (m : ReceiveManager) (now : Nat) (info : PacketInfo) (metaInfo : PacketMetaInfo)
    {p : Fifo.Request} {fs : Fifo.Fates} {enqueued : List DownstreamPacket}
    (hdistinct : fs.before.Pairwise (fun a b => a.seq ≠ b.seq)) (hvalid : ∀ e ∈ fs.before, e.Valid)
    (hallowed : fs.Allowed p) (hcut : ∀ ef ∈ fs, ∀ n, ef.2 = .cut n → 0 < n)
    (hpackets : ∀ e ∈ fs.before, enqueued[e.seq]? = some e.packet)
    (htracks : Tracks info.source m fs.before)
    : let res := m.receiveAll now info metaInfo (fs.components p.kind)
      Tracks info.source res.1 fs.after
        ∧ res.2.filterMap ReceiveManager.Output.delivery
        =
      ((fs.components p.kind).filter (fun c => !c.moreFragments && m.accepts c.destination)).filterMap
        (deliveryOf enqueued) := by
  induction fs generalizing m with
  | nil => simp [Tracks, ReceiveManager.receiveAll]
  | cons ef fs ih =>
    obtain ⟨e, f⟩ := ef
    rw [Fifo.Fates.before_cons, List.pairwise_cons] at hdistinct
    rw [Fifo.Fates.allowed_cons] at hallowed
    have hvalid' : ∀ e' ∈ Fifo.Fates.before fs, e'.Valid := fun e' he' => hvalid e' (by simp [he'])
    have hcut' : ∀ ef ∈ fs, ∀ n, ef.2 = .cut n → 0 < n := fun ef hef => hcut ef (by simp [hef])
    have hpackets' : ∀ e' ∈ Fifo.Fates.before fs, enqueued[e'.seq]? = some e'.packet :=
      fun e' he' => hpackets e' (by simp [he'])
    have htracks' : Tracks info.source m (Fifo.Fates.before fs) := fun e' he' => htracks e'
      (by simp [he'])
    have hassembles := htracks e (by simp)
    have hpacket := hpackets e (by simp)
    have hother : ∀ n, ∀ e' ∈ Fifo.Fates.before fs, (e.component p.kind n).fragmentSequence ≠ e'.seq :=
      fun n e' he' => hdistinct.1 e' he'
    -- the components behind the one of `e` belong to other packets
    have hframe : ∀ m' : ReceiveManager,
        (m'.receiveAll now info metaInfo (Fifo.Fates.components p.kind fs)).1.fragmentStore.find?
          (e.fragmentKey info.source)
          = m'.fragmentStore.find? (e.fragmentKey info.source) := by
      intro m'
      apply ReceiveManager.find?_receiveAll_of_ne
      intro c hc
      obtain ⟨e', he', hseq⟩ := Fifo.Fates.mem_components hc
      apply fragmentKey_ne
      rw [hseq]
      exact (hdistinct.1 e' he').symm
    cases f with
    | kept =>
      obtain ⟨ihtracks, ihdelivery⟩ := ih _ hdistinct.2 hvalid' hallowed.2 hcut' hpackets' htracks'
      simp only [Fifo.Fates.components_cons, Fifo.Fates.after_cons, Fate.component, Fate.after,
        Option.toList_none,
        Option.toList_some, List.nil_append, List.singleton_append]
      refine ⟨ihtracks.cons ?_, ihdelivery⟩
      rw [accepts_receiveAll, hframe]
      exact hassembles
    | dropped =>
      obtain ⟨ihtracks, ihdelivery⟩ := ih _ hdistinct.2 hvalid' hallowed.2 hcut' hpackets' htracks'
      simp only [Fifo.Fates.components_cons, Fifo.Fates.after_cons, Fate.component, Fate.after,
        Option.toList_none,
        List.nil_append]
      exact ⟨ihtracks, ihdelivery⟩
    | cut n =>
      have hpos := hcut _ List.mem_cons_self n rfl
      have hn : n < e.remaining := hallowed.1.2
      obtain ⟨ihtracks, ihdelivery⟩ := ih _ hdistinct.2 hvalid' hallowed.2 hcut' hpackets'
        (htracks'.receive now metaInfo (hother n))
      have hmore := Entry.moreFragments_of_lt p.kind hn
      simp only [Fifo.Fates.components_cons, Fifo.Fates.after_cons, Fate.component, Fate.after,
        Option.toList_some,
        List.singleton_append, ReceiveManager.receiveAll]
      constructor
      . apply ihtracks.cons
        rw [accepts_receiveAll, ReceiveManager.accepts_receive]
        intro (haccepts : m.accepts e.destination)
        have hreceive :=
          (ReceiveManager.receive_cut now metaInfo p.kind haccepts hpos hn (hassembles haccepts)).1
        rw [← hframe] at hreceive
        exact hreceive
      . rw [List.filterMap_append, ihdelivery]
        rw [delivery_receive_cut now metaInfo p.kind hpos hn hassembles]
        rw [List.filter_cons_of_neg (by simp [hmore])]
        simp only [ReceiveManager.accepts_receive, List.nil_append]
    | sent =>
      have hvalid := hvalid e (by simp)
      obtain ⟨ihtracks, ihdelivery⟩ := ih _ hdistinct.2 hvalid' hallowed.2 hcut' hpackets'
        (htracks'.receive now metaInfo (hother e.remaining))
      have hmore := Entry.moreFragments_of_remaining p.kind hvalid.offset_le
      have hdelivery : deliveryOf enqueued (e.component p.kind e.remaining)
          = some ⟨p.kind, e.destination, e.packet.info.priority, e.packet.bytes⟩ := by
        simp [deliveryOf, Entry.component, hpacket]
      simp only [Fifo.Fates.components_cons, Fifo.Fates.after_cons, Fate.component, Fate.after,
        Option.toList_some,
        Option.toList_none, List.nil_append, List.singleton_append, ReceiveManager.receiveAll]
      refine ⟨ihtracks, ?_⟩
      rw [List.filterMap_append, ihdelivery]
      simp only [ReceiveManager.accepts_receive]
      by_cases haccepts : m.accepts e.destination
      . rw [ReceiveManager.receive_sent now metaInfo p.kind haccepts hvalid (hassembles haccepts)]
        rw [List.filter_cons_of_pos]
        . rw [List.filterMap_cons_some hdelivery]
          rfl
        . rw [hmore]
          exact haccepts
      . rw [ReceiveManager.receive_of_not_accepts m now info metaInfo haccepts]
        rw [List.filter_cons_of_neg]
        . rfl
        . rw [hmore]
          exact haccepts

structure Inv (cfg : QueueConfig) (source : NEMId) (l : Link) (es : List Entry) : Prop where
  history : Queue.History.Inv cfg l.history es
  pending : l.receiver.pendingAbsoluteSlotIndex = 0
  tracks : Tracks source l.receiver es
  fresh : ∀ priority seq, l.history.enqueued.length ≤ seq →
    l.receiver.fragmentStore.find? (toLex (source, toLex (priority, seq))) = none
  nonempty : ∀ pkt ∈ l.history.enqueued, 0 < pkt.length
  delivered : l.delivered = l.completed.filterMap (deliveryOf l.history.enqueued)

theorem Inv.of_init (cfg : QueueConfig) (source id : NEMId) (promiscuousMode : Bool) (check timeout : Nat)
    : Inv cfg source (init cfg (.init id promiscuousMode check timeout)) [] where
  history := Queue.History.Inv.of_init cfg
  pending := by rfl
  tracks := by simp [Tracks]
  fresh := by
    intro priority seq _
    exact SortedMap.find?_empty _
  nonempty := by simp [init, Queue.History.init]
  delivered := by rfl

def Undisturbed (cfg : QueueConfig) (l : Link) : Event → Prop
  | .enqueue pkt => 0 < pkt.length
  | .transmit requestedBytes destination drop _ _ now _ =>
    0 < requestedBytes
      ∧ ¬ Fifo.ExactFit (Queue.dequeue.request cfg requestedBytes destination drop)
        l.history.queue.entries
      ∧ l.receiver.Young now

instance (cfg : QueueConfig) (l : Link) : (event : Event) → Decidable (l.Undisturbed cfg event)
  | .enqueue pkt => inferInstanceAs (Decidable (0 < pkt.length))
  | .transmit _ _ _ _ _ _ _ => inferInstanceAs (Decidable (_ ∧ _))

variable {cfg : QueueConfig} {l : Link} {es : List Entry}

theorem Inv.fragmentSequence_lt
    (hinv : Inv cfg source l es)
    : ∀ c ∈ l.history.components, c.fragmentSequence < l.history.enqueued.length := by
  intro c hc
  apply Nat.lt_of_not_le
  intro hle
  have hnone := (hinv.history.fresh c.fragmentSequence hle).1
  have hmem : c ∈ l.history.componentsOf c.fragmentSequence := mem_withKey.mpr ⟨hc, rfl⟩
  rw [hnone] at hmem
  simp at hmem

theorem Inv.enqueue {cfg : QueueConfig} {source : NEMId} {l : Link} {es : List Entry}
    (hinv : Inv cfg source l es)
    (hcfg : 0 < cfg.queueDepth) {pkt : DownstreamPacket} (hpkt : 0 < pkt.length)
    : ∃ l' es', l.step source (.enqueue pkt) = some l' ∧ Inv cfg source l' es' := by
  obtain ⟨h', rest, heq, hhistory, hrest, henqueued, hcomponents⟩ := hinv.history.enqueue hcfg pkt
  refine ⟨{ l with history := h' }, rest ++ [⟨l.history.enqueued.length, pkt, 0, 0⟩], ?_, ?_⟩
  . simp [step, heq]
  . constructor
    . exact hhistory
    . exact hinv.pending
    . intro e he haccepts
      rw [List.mem_append, List.mem_singleton] at he
      cases he with
      | inl he => exact hinv.tracks e (hrest e he) haccepts
      | inr he =>
        rw [he]
        unfold Entry.fragmentKey
        rw [hinv.fresh pkt.info.priority l.history.enqueued.length (Nat.le_refl _)]
        exact ⟨rfl, rfl⟩
    . intro priority seq hseq
      simp only [henqueued, List.length_append] at hseq
      exact hinv.fresh priority seq (by omega)
    . intro pkt' hpkt'
      simp only [henqueued, List.mem_append, List.mem_singleton] at hpkt'
      cases hpkt' with
      | inl hpkt' => exact hinv.nonempty pkt' hpkt'
      | inr hpkt' => exact hpkt' ▸ hpkt
    . simp only [completed, hcomponents, henqueued]
      rw [hinv.delivered]
      apply List.filterMap_congr
      intro c hc
      have hlt := hinv.fragmentSequence_lt c (List.mem_of_mem_filter hc)
      unfold deliveryOf
      rw [List.getElem?_append_left hlt]

theorem step_transmit (source : NEMId) {requestedBytes : Nat} {destination : NEMId} {drop : Bool}
    (slot dataRate : Nat) {now : Nat} (info : PacketInfo) {r : Queue.dequeue.Result} {queue : Queue}
    (heq : l.history.queue.dequeue requestedBytes destination drop = some (r, queue))
    (hpending : l.receiver.pendingAbsoluteSlotIndex = 0) (hyoung : l.receiver.Young now)
    : ∃ pendingInfo : PendingInfo,
        let res := ({ l.receiver with pendingInfo := pendingInfo } : ReceiveManager).receiveAll now
          { info with source := source } ⟨source, slot, dataRate⟩ r.components
        l.step source (.transmit requestedBytes destination drop slot dataRate now info)
          =
        some ⟨l.history.dequeued r queue, res.1,
            l.delivered ++ res.2.filterMap ReceiveManager.Output.delivery⟩ := by
  obtain ⟨henqueue, hprocess⟩ := ReceiveManager.process_enqueue hpending hyoung slot dataRate
    { info with source := source } r.components
  refine ⟨⟨⟨slot, dataRate, r.components⟩, { info with source := source }, now⟩, ?_⟩
  simp only [step, heq, Option.bind_eq_bind, Option.bind_some, henqueue, hprocess, List.nil_append]
  rfl

theorem Inv.transmit (hinv : Inv cfg source l es)
    {requestedBytes : Nat} {destination : NEMId} {drop : Bool} {slot dataRate now : Nat}
    {info : PacketInfo}
    (hok : l.Undisturbed cfg (.transmit requestedBytes destination drop slot dataRate now info))
    : ∃ l' es',
        l.step source (.transmit requestedBytes destination drop slot dataRate now info) = some l'
          ∧ Inv cfg source l' es' := by
  obtain ⟨hpos, hfit, hyoung⟩ := hok
  rw [hinv.history.holds.entries_eq] at hfit
  obtain ⟨r, queue, heq, hhistory, hfs⟩ := hinv.history.dequeue requestedBytes destination drop
  have hcut := Fifo.cut_pos_of_not_exactFit hpos hfit
  generalize Queue.dequeue.request cfg requestedBytes destination drop = p at hfs hhistory hcut
  generalize Fifo.fates p es ⟨[], 0, []⟩ = fs at hfs hhistory hcut
  have hcomponents : r.components = fs.components p.kind := by
    rw [hfs.components]
    rfl
  have hdistinct : fs.before.Pairwise (fun a b => a.seq ≠ b.seq) := by
    rw [hfs.before]
    exact hinv.history.holds.pairwise.imp (fun hlt => Nat.ne_of_lt hlt)
  have hbefore : ∀ e ∈ fs.before, e ∈ es := by
    rw [hfs.before]
    exact fun e he => he
  obtain ⟨pendingInfo, hstep⟩ := step_transmit source slot dataRate info heq hinv.pending hyoung
  have hreceive := receiveAll_fates { l.receiver with pendingInfo := pendingInfo } now
    { info with source := source }
    ⟨source, slot, dataRate⟩ hdistinct (fun e he => hinv.history.holds.valid e (hbefore e he))
      hfs.allowed hcut
    (fun e he => (hinv.history.data_of_queued (hbefore e he)).1)
      (fun e he => hinv.tracks e (hbefore e he))
  rw [← hcomponents] at hreceive
  refine ⟨_, fs.after, hstep, ?_⟩
  constructor
  . exact hhistory
  . rw [ReceiveManager.receiveAll_eq]
    exact hinv.pending
  . exact hreceive.1
  . intro priority seq hseq
    simp only [Queue.History.dequeued] at hseq ⊢
    rw [ReceiveManager.find?_receiveAll_of_ne]
    . exact hinv.fresh priority seq hseq
    . intro c hc heq
      rw [hcomponents] at hc
      obtain ⟨e, he, hc⟩ := Fifo.Fates.mem_components hc
      have hlt := hinv.history.seq_lt e (hbefore e he)
      unfold ReceiveManager.fragmentKey at heq
      simp only [EmbeddingLike.apply_eq_iff_eq, Prod.mk.injEq, true_and] at heq
      omega
  . exact hinv.nonempty
  . simp only [completed, Queue.History.dequeued, accepts_receiveAll]
    rw [List.filter_append, List.filterMap_append]
    rw [hinv.delivered, hreceive.2]
    rfl

theorem Inv.reassembled (hinv : Inv cfg source l es)
    : l.Reassembled where
  delivered := hinv.delivered
  completed := by
    intro seq pkt hseq haccepts
    have hfilter : withKey MessageComponent.fragmentSequence seq l.completed
        = (l.history.componentsOf seq).filter
            (fun c => !c.moreFragments && l.receiver.accepts c.destination) := by
      unfold completed Queue.History.componentsOf withKey
      rw [List.filter_filter, List.filter_filter]
      simp only [Bool.and_comm]
    rw [hfilter]
    have hpos := hinv.nonempty pkt (List.mem_of_getElem? hseq)
    exact (hinv.history.place seq pkt hseq).completed hpos haccepts

theorem reassembled_of_undisturbed {cfg : QueueConfig} (hdepth : 0 < cfg.queueDepth) (source id : NEMId)
    (promiscuousMode : Bool) (check timeout : Nat) (events : List Event)
    (hok : Guarded (step source) (Undisturbed cfg)
      (init cfg (.init id promiscuousMode check timeout)) events)
    : ∃ l, run (step source) (init cfg (.init id promiscuousMode check timeout)) events = some l
        ∧ l.Reassembled := by
  have hstep : ∀ (l : Link) (event : Event), (∃ es, Inv cfg source l es) → l.Undisturbed cfg event →
      ∃ l', l.step source event = some l' ∧ ∃ es, Inv cfg source l' es := by
    intro l event hinv hok
    obtain ⟨es, hinv⟩ := hinv
    cases event with
    | enqueue pkt =>
      obtain ⟨l', es', heq, hinv'⟩ := hinv.enqueue hdepth hok
      exact ⟨l', heq, es', hinv'⟩
    | transmit requestedBytes destination drop slot dataRate now info =>
      obtain ⟨l', es', heq, hinv'⟩ := hinv.transmit hok
      exact ⟨l', heq, es', hinv'⟩
  obtain ⟨l, hrun, es, hinv⟩ := run_total hstep
    ⟨[], Inv.of_init cfg source id promiscuousMode check timeout⟩ hok
  exact ⟨l, hrun, hinv.reassembled⟩

theorem reassembled_of_undisturbed_example
    : ∃ l,
        run (step 1) (init ⟨10, true, true, false⟩ (.init 2 false 2 5)) [
          .enqueue ⟨⟨1, 2, 0, 0, 0⟩, [[1], [2, 3]]⟩, .enqueue ⟨⟨1, 2, 0, 0, 0⟩, [[4, 5, 6, 7]]⟩,
          .transmit 5 0 true 1 0 1 ⟨1, 2, 0, 0, 0⟩, .transmit 1 2 true 2 0 2 ⟨1, 2, 0, 0, 0⟩,
          .transmit 3 0 true 3 0 3 ⟨1, 2, 0, 0, 0⟩
        ] = some l
          ∧ l.Reassembled :=
  reassembled_of_undisturbed (by decide) 1 2 false 2 5 _ (by decide)

theorem not_reassembled_of_exact_fit
    : ¬ ∃ l,
        run (step 1) (init ⟨10, true, true, false⟩ (.init 2 false 2 5)) [
          .enqueue ⟨⟨1, 2, 0, 0, 0⟩, [[1, 2, 3]]⟩, .enqueue ⟨⟨1, 2, 0, 0, 0⟩, [[4, 5, 6, 7]]⟩,
          .transmit 3 0 true 1 0 1 ⟨1, 2, 0, 0, 0⟩, .transmit 3 0 true 2 0 2 ⟨1, 2, 0, 0, 0⟩,
          .transmit 3 0 true 3 0 3 ⟨1, 2, 0, 0, 0⟩
        ] = some l
          ∧ l.Reassembled := by
  intro ⟨l, hrun, hreassembled⟩
  have hdelivered : (run (step 1) (init ⟨10, true, true, false⟩ (.init 2 false 2 5)) [
          .enqueue ⟨⟨1, 2, 0, 0, 0⟩, [[1, 2, 3]]⟩, .enqueue ⟨⟨1, 2, 0, 0, 0⟩, [[4, 5, 6, 7]]⟩,
          .transmit 3 0 true 1 0 1 ⟨1, 2, 0, 0, 0⟩, .transmit 3 0 true 2 0 2 ⟨1, 2, 0, 0, 0⟩,
          .transmit 3 0 true 3 0 3 ⟨1, 2, 0, 0, 0⟩
        ]).map (fun l => (l.delivered.map Delivery.data,
          (l.completed.filterMap (deliveryOf l.history.enqueued)).map Delivery.data))
      = some ([[1, 2, 3], [7]], [[1, 2, 3], [4, 5, 6, 7]]) := by decide
  rw [hrun] at hdelivered
  simp only [Option.map_some, Option.some.injEq, Prod.mk.injEq] at hdelivered
  rw [← hreassembled.delivered] at hdelivered
  rw [hdelivered.1] at hdelivered
  simp at hdelivered

end Link
end Tdma
end Emane

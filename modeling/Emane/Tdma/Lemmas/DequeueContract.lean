import Emane.Tdma.Lemmas.Completion

/-!
This module contains the contract of a dequeue: what it returns are ranges of bytes of the packets
at the front of what is selected, in their order, and no more than was asked for.
-/

namespace Emane
namespace Tdma
namespace Fifo

variable {p : Request} {es : List Entry} {r : Queue.dequeue.Result}

theorem order_fates (kind : MessageComponent.Kind)
    : ∃ rest,
        (es.filter (Entry.selectedBy p.destination)).map Entry.seq
          =
        (fates p es r).discarded.map OwnedPacket.address
          ++ ((fates p es r).components kind).map MessageComponent.fragmentSequence ++ rest := by
  induction es generalizing r with
  | nil => exact ⟨[], rfl⟩
  | cons e es ih =>
    unfold fates
    split
    . next hsel =>
      rw [List.filter_cons_of_pos hsel, List.map_cons]
      simp only
      split
      . split
        . -- nothing is dropped behind a component
          have hdiscarded : (fates p es
              (push r (e.component p.kind e.remaining) e.remaining)).discarded = [] :=
            discarded_of_components (by simp [push])
          obtain ⟨rest, hrest⟩ := @ih (push r (e.component p.kind e.remaining) e.remaining)
          refine ⟨rest, ?_⟩
          simp only [Fates.discarded_cons, Fates.components_cons, Fate.discarded, Fate.component,
            hdiscarded, hrest]
          rfl
        . refine ⟨(es.filter (Entry.selectedBy p.destination)).map Entry.seq, ?_⟩
          simp only [Fates.discarded_cons, Fates.components_cons, Fate.discarded, Fate.component,
            Fates.discarded_allKept,
            Fates.components_allKept]
          rfl
      . split
        . refine ⟨(es.filter (Entry.selectedBy p.destination)).map Entry.seq, ?_⟩
          simp only [Fates.discarded_cons, Fates.components_cons, Fate.discarded, Fate.component,
            Fates.discarded_allKept,
            Fates.components_allKept]
          rfl
        . split
          . obtain ⟨rest, hrest⟩ := @ih (discard r e)
            refine ⟨rest, ?_⟩
            simp only [Fates.discarded_cons, Fates.components_cons, Fate.discarded, Fate.component, hrest]
            rfl
          . refine ⟨e.seq :: (es.filter (Entry.selectedBy p.destination)).map Entry.seq, ?_⟩
            simp only [Fates.discarded_cons, Fates.components_cons, Fate.discarded, Fate.component,
              Fates.discarded_allKept,
              Fates.components_allKept]
            rfl
    . next hsel =>
      obtain ⟨rest, hrest⟩ := @ih r
      refine ⟨rest, ?_⟩
      rw [List.filter_cons_of_neg hsel, hrest]
      rfl

theorem moreFragments_dropLast (kind : MessageComponent.Kind)
    (hvalid : ∀ e ∈ es, e.offset ≤ e.packet.length)
    : ∀ c ∈ ((fates p es r).components kind).dropLast, c.moreFragments = false := by
  induction es generalizing r with
  | nil => simp [fates]
  | cons e es ih =>
    rw [List.forall_mem_cons] at hvalid
    have hlast := Entry.moreFragments_of_remaining kind hvalid.1
    unfold fates
    split
    . simp only
      split
      . split
        . intro c hc
          rw [Fates.components_cons] at hc
          simp only [Fate.component, Option.toList_some, List.singleton_append] at hc
          generalize hcs : (fates p es
            (push r (e.component p.kind e.remaining) e.remaining)).components kind = cs at hc
          cases cs with
          | nil => simp at hc
          | cons c' cs =>
            rw [List.dropLast_cons_cons, List.mem_cons] at hc
            cases hc with
            | inl heq => exact heq ▸ hlast
            | inr hmem => exact ih hvalid.2 c (hcs ▸ hmem)
        . simp [Fate.component]
      . split
        . simp [Fate.component]
        . split
          . intro c hc
            exact ih hvalid.2 c hc
          . simp [Fate.component]
    . intro c hc
      exact ih hvalid.2 c hc

theorem lt_remaining_of_dropped (htotal : r.totalBytes = 0)
    : ∀ ef ∈ fates p es r, ef.2 = .dropped → p.requestedBytes < ef.1.remaining := by
  induction es generalizing r with
  | nil => simp [fates]
  | cons e es ih =>
    have hkept : ∀ ef ∈ Fates.allKept es, ef.2 = .dropped → p.requestedBytes < ef.1.remaining := by
      intro ef hef hdropped
      unfold Fates.allKept at hef
      rw [List.mem_map] at hef
      obtain ⟨e', -, rfl⟩ := hef
      cases hdropped
    unfold fates
    split
    . simp only
      split
      . split
        . rw [List.forall_mem_cons]
          refine ⟨by simp, ?_⟩
          intro ef hef hdropped
          -- nothing is dropped behind a component
          have hdiscarded : (fates p es
              (push r (e.component p.kind e.remaining) e.remaining)).discarded = [] :=
            discarded_of_components (by simp [push])
          unfold Fates.discarded at hdiscarded
          rw [List.filterMap_eq_nil_iff] at hdiscarded
          have hnone := hdiscarded ef hef
          rw [hdropped] at hnone
          cases hnone
        . rw [List.forall_mem_cons]
          exact ⟨by simp, hkept⟩
      . next hfits =>
        split
        . rw [List.forall_mem_cons]
          exact ⟨by simp, hkept⟩
        . split
          . rw [List.forall_mem_cons]
            refine ⟨?_, ih htotal⟩
            intro _
            simp only
            omega
          . rw [List.forall_mem_cons]
            exact ⟨by simp, hkept⟩
    . rw [List.forall_mem_cons]
      exact ⟨by simp, ih htotal⟩

/--
The selected packets up to some packet fill the request to the last byte, and that packet has
bytes left. The loop takes one more turn then.
-/
def CutsNothing (p : Request) (es : List Entry) : Prop :=
  p.fragment = true
    ∧ ∃ n < (es.filter (Entry.selectedBy p.destination)).length,
    (p.aggregate = true ∨ n = 0)
      ∧ bytes ((es.filter (Entry.selectedBy p.destination)).take n) = p.requestedBytes
      ∧ ∃ e ∈ (es.filter (Entry.selectedBy p.destination))[n]?, 0 < e.remaining

instance CutsNothing.decidable (p : Request) (es : List Entry) : Decidable (CutsNothing p es) :=
  inferInstanceAs (Decidable (_ ∧ _))

theorem cut_zero_iff (hfrag : p.fragment = true) (hr : r.totalBytes ≤ p.requestedBytes)
    : (∃ ef ∈ fates p es r, ef.2 = .cut 0)
        ↔
      ∃ n < (es.filter (Entry.selectedBy p.destination)).length,
        (p.aggregate = true ∨ n = 0)
          ∧ r.totalBytes + bytes ((es.filter (Entry.selectedBy p.destination)).take n) = p.requestedBytes
          ∧ ∃ e ∈ (es.filter (Entry.selectedBy p.destination))[n]?, 0 < e.remaining := by
  induction es generalizing r with
  | nil => simp [fates]
  | cons e es ih =>
    have hkept : ¬ ∃ ef ∈ Fates.allKept es, ef.2 = .cut 0 := by
      rintro ⟨ef, hef, hcut⟩
      exact Fates.not_cut_of_allKept hef 0 hcut
    unfold fates
    split
    . next hsel =>
      rw [List.filter_cons_of_pos hsel]
      simp only
      split
      . next hfits =>
        have hnot : ¬ (r.totalBytes + bytes [] = p.requestedBytes ∧ 0 < e.remaining) := by
          rw [bytes_nil]
          omega
        split
        . next hagg =>
          have hr' : (push r (e.component p.kind e.remaining) e.remaining).totalBytes
              ≤ p.requestedBytes := by
            simp only [push]
            omega
          rw [List.exists_mem_cons_iff, ih hr']
          simp only [push, reduceCtorEq, false_or, hagg, true_or, true_and, List.length_cons]
          constructor
          . rintro ⟨n, hn, hbytes, hrest⟩
            refine ⟨n + 1, by omega, ?_, hrest⟩
            rw [List.take_succ_cons, bytes_cons]
            omega
          . rintro ⟨n, hn, hbytes, hrest⟩
            cases n with
            | zero =>
              obtain ⟨e', he', hpos⟩ := hrest
              cases he'
              exact absurd ⟨hbytes, hpos⟩ hnot
            | succ n =>
              rw [List.take_succ_cons, bytes_cons] at hbytes
              exact ⟨n, by omega, by omega, hrest⟩
        . next hagg =>
          refine iff_of_false (by simpa using hkept) ?_
          rintro ⟨n, hn, hcase, hbytes, e', he', hpos⟩
          obtain rfl : n = 0 := hcase.resolve_left hagg
          cases he'
          exact hnot ⟨hbytes, hpos⟩
      . next hfits =>
        rw [List.exists_mem_cons_iff]
        simp only [hkept, or_false, Fate.cut.injEq]
        constructor
        . intro hroom
          refine ⟨0, by simp, Or.inr rfl, ?_, e, rfl, by omega⟩
          rw [List.take_zero, bytes_nil]
          omega
        . rintro ⟨n, hn, hcase, hbytes, hrest⟩
          cases n with
          | zero =>
            rw [List.take_zero, bytes_nil] at hbytes
            omega
          | succ n =>
            rw [List.take_succ_cons, bytes_cons] at hbytes
            omega
    . next hsel =>
      rw [List.filter_cons_of_neg hsel, List.exists_mem_cons_iff, ih hr]
      simp

theorem cutsNothing_iff : CutsNothing p es ↔ ∃ ef ∈ fates p es ⟨[], 0, []⟩, ef.2 = .cut 0 := by
  constructor
  . rintro ⟨hfrag, h⟩
    apply (cut_zero_iff hfrag (Nat.zero_le _)).mpr
    simpa using h
  . rintro ⟨ef, hef, hcut⟩
    have hallowed := (dequeue_decomposes p es ⟨[], 0, []⟩).allowed ef hef
    rw [hcut] at hallowed
    refine ⟨hallowed.1, ?_⟩
    have h := (cut_zero_iff hallowed.1 (Nat.zero_le _)).mp ⟨ef, hef, hcut⟩
    simpa using h

end Fifo

namespace Queue

structure IsRange (e : Entry) (c : MessageComponent) : Prop where
  fragmentSequence : c.fragmentSequence = e.seq
  fragmentIndex : c.fragmentIndex = e.index
  fragmentOffset : c.fragmentOffset = e.offset
  data : c.data = (e.packet.bytes.drop c.fragmentOffset).take c.size
  bound : c.fragmentOffset + c.size ≤ e.packet.length
  moreFragments : c.moreFragments = true ↔ c.fragmentOffset + c.size < e.packet.length

structure Contract (q : Queue) (requestedBytes : Nat) (destination : NEMId) (drop : Bool)
    (r : dequeue.Result) (q' : Queue)
    : Prop where
  totalBytes : r.totalBytes = r.components.size
  bound : r.totalBytes ≤ requestedBytes
  order : ∃ rest,
    (q.entries.filter (Entry.selectedBy destination)).map Entry.seq
      =
    r.dropped.map OwnedPacket.address ++ r.components.map MessageComponent.fragmentSequence ++ rest
  last : ∀ c ∈ r.components.dropLast, c.moreFragments = false
  range : ∀ c ∈ r.components, ∃ e ∈ q.entries, IsRange e c
  dropped : ∀ d ∈ r.dropped,
    q.fragment = false ∧ drop = true ∧ ∃ e ∈ q.entries, d = e.owned ∧ requestedBytes < e.packet.length
  progress : ∀ c ∈ r.components, c.isFragment = true → 0 < c.size
  advance : ∀ e ∈ q.entries, ∀ e' ∈ q'.entries, e'.seq = e.seq → e'.index ≠ e.index → e.offset < e'.offset

theorem isRange_component (kind : MessageComponent.Kind) (e : Entry) {n : Nat}
    (hoffset : e.offset ≤ e.packet.length)
    (hn : n ≤ e.remaining)
    : IsRange e (e.component kind n) := by
  have hsize := Entry.size_component kind e hn
  unfold Entry.remaining at hn
  constructor
  . rfl
  . rfl
  . rfl
  . rw [hsize]
    rfl
  . rw [hsize]
    change e.offset + n ≤ _
    omega
  . rw [hsize]
    change decide (e.offset + n ≠ e.packet.length) = true ↔ e.offset + n < _
    rw [decide_eq_true_iff]
    omega

theorem of_mem_components {p : Fifo.Request} {fs : Fifo.Fates} {kind : MessageComponent.Kind}
    (hallowed : fs.Allowed p)
    {c : MessageComponent} (hc : c ∈ fs.components kind)
    : ∃ e f,
        (e, f) ∈ fs
          ∧ (f = .sent ∧ c = e.component kind e.remaining ∨ ∃ n, f = .cut n ∧ n < e.remaining
              ∧ c = e.component kind n) := by
  unfold Fifo.Fates.components at hc
  rw [List.mem_filterMap] at hc
  obtain ⟨⟨e, f⟩, hmem, hcomponent⟩ := hc
  refine ⟨e, f, hmem, ?_⟩
  cases f with
  | kept => cases hcomponent
  | cut n => exact Or.inr ⟨n, rfl, (hallowed _ hmem).2, (Option.some.inj hcomponent).symm⟩
  | sent => exact Or.inl ⟨rfl, (Option.some.inj hcomponent).symm⟩
  | dropped => cases hcomponent

namespace Holds

variable {q : Queue} {p : Fifo.Request} {fs : Fifo.Fates}

theorem isRange_of_mem_components (h : Holds q fs.before) (hallowed : fs.Allowed p) {c : MessageComponent}
    (hc : c ∈ fs.components q.kind)
    : ∃ e ∈ fs.before, IsRange e c := by
  obtain ⟨e, f, hmem, hcase⟩ := of_mem_components hallowed hc
  have he : e ∈ fs.before := List.mem_map_of_mem hmem
  refine ⟨e, he, ?_⟩
  rcases hcase with ⟨-, rfl⟩ | ⟨n, -, hn, rfl⟩
  . exact isRange_component q.kind e (h.valid e he).offset_le (Nat.le_refl _)
  . exact isRange_component q.kind e (h.valid e he).offset_le (Nat.le_of_lt hn)

theorem owned_of_mem_discarded (h : Holds q fs.before) (hallowed : fs.Allowed p)
    (hfragment : p.fragment = q.fragment)
    (hdropped : ∀ ef ∈ fs, ef.2 = .dropped → p.requestedBytes < ef.1.remaining) {d : OwnedPacket}
    (hd : d ∈ fs.discarded)
    : q.fragment = false ∧ p.drop = true ∧ ∃ e ∈ fs.before, d = e.owned
        ∧ p.requestedBytes < e.packet.length := by
  unfold Fifo.Fates.discarded at hd
  rw [List.mem_filterMap] at hd
  obtain ⟨⟨e, f⟩, hmem, hdis⟩ := hd
  have he : e ∈ fs.before := List.mem_map_of_mem hmem
  have hok := hallowed _ hmem
  cases f with
  | kept => cases hdis
  | cut n => cases hdis
  | sent => cases hdis
  | dropped =>
    have hlt := hdropped _ hmem rfl
    have hwhole : q.fragment = false := hfragment ▸ hok.1
    have hoffset := h.unfragmented hwhole e he
    unfold Entry.remaining at hlt
    refine ⟨hwhole, hok.2, e, he, (Option.some.inj hdis).symm, ?_⟩
    rw [hoffset, Nat.sub_zero] at hlt
    exact hlt

theorem size_pos_of_cut_pos (h : Holds q fs.before) (hallowed : fs.Allowed p)
    (hcut : ∀ ef ∈ fs, ∀ n, ef.2 = .cut n → 0 < n)
    {c : MessageComponent} (hc : c ∈ fs.components q.kind) (hfragment : c.isFragment = true)
    : 0 < c.size := by
  obtain ⟨e, f, hmem, hcase⟩ := of_mem_components hallowed hc
  have hvalid := h.valid e (List.mem_map_of_mem hmem)
  rcases hcase with ⟨-, rfl⟩ | ⟨n, rfl, hn, rfl⟩
  . -- the last fragment of a packet that has been started
    rw [Entry.size_component q.kind e (Nat.le_refl _)]
    unfold MessageComponent.isFragment at hfragment
    rw [Entry.moreFragments_of_remaining q.kind hvalid.offset_le, Bool.or_false,
      decide_eq_true_iff] at hfragment
    have hstarted := hvalid.started (Nat.pos_of_ne_zero hfragment)
    unfold Entry.remaining
    omega
  . rw [Entry.size_component q.kind e (Nat.le_of_lt hn)]
    exact hcut _ hmem n rfl

theorem offset_lt_of_cut_pos (h : Holds q fs.before) (hcut : ∀ ef ∈ fs, ∀ n, ef.2 = .cut n → 0 < n)
    {e e' : Entry}
    (he : e ∈ fs.before) (he' : e' ∈ fs.after) (hseq : e'.seq = e.seq) (hindex : e'.index ≠ e.index)
    : e.offset < e'.offset := by
  unfold Fifo.Fates.after at he'
  rw [List.mem_filterMap] at he'
  obtain ⟨⟨e₀, f⟩, hmem, hafter⟩ := he'
  have hsame : e₀.seq = e.seq → e₀ = e := by
    intro heq
    have hdistinct : fs.before.Pairwise (fun a b => a.seq ≠ b.seq) := h.toRep.pairwise.imp
      (fun hlt => Nat.ne_of_lt hlt)
    have : Std.Symm (fun a b : Entry => a.seq ≠ b.seq) := ⟨fun _ _ h => h.symm⟩
    apply Classical.byContradiction
    intro hne
    exact hdistinct.forall (List.mem_map_of_mem hmem) he hne heq
  cases f with
  | kept =>
    cases hafter
    exact absurd (congrArg Entry.index (hsame hseq)) hindex
  | cut n =>
    cases hafter
    obtain rfl := hsame hseq
    have hpos := hcut _ hmem n rfl
    change e₀.offset < e₀.offset + n
    omega
  | sent => cases hafter
  | dropped => cases hafter

theorem empty_fragment_of_cut (hallowed : fs.Allowed p) {ef : Entry × Fate} (hef : ef ∈ fs)
    (hcut : ef.2 = .cut 0)
    (kind : MessageComponent.Kind)
    : ∃ c ∈ fs.components kind, c.isFragment = true ∧ c.size = 0 := by
  have hlt := hallowed ef hef
  rw [hcut] at hlt
  refine ⟨ef.1.component kind 0, List.mem_filterMap.mpr ⟨ef, hef, by rw [hcut]; rfl⟩, ?_, ?_⟩
  . simp [MessageComponent.isFragment, Entry.moreFragments_of_lt kind hlt.2]
  . exact Entry.size_component kind ef.1 (Nat.zero_le _)

theorem contract_iff_not_cutsNothing {es : List Entry} (h : Holds q es) (requestedBytes : Nat)
    (destination : NEMId)
    (drop : Bool)
    : (∃ r q', q.dequeue requestedBytes destination drop = some (r, q')
        ∧ Contract q requestedBytes destination drop r q')
        ↔
      ¬ Fifo.CutsNothing (dequeue.request q.toQueueConfig requestedBytes destination drop) q.entries := by
  obtain ⟨q', hdequeue, hafter, -, -, hdecomposes⟩ := h.dequeue requestedBytes destination drop
  have hentries := h.entries_eq
  have hentries' := hafter.entries_eq
  have horder := @Fifo.order_fates (dequeue.request q.toQueueConfig requestedBytes destination drop)
    es ⟨[], 0, []⟩ q.kind
  have hlast := @Fifo.moreFragments_dropLast
    (dequeue.request q.toQueueConfig requestedBytes destination drop) es ⟨[], 0, []⟩
    q.kind (fun e he => (h.valid e he).offset_le)
  have hbound := Fifo.totalBytes_dequeue_le
    (dequeue.request q.toQueueConfig requestedBytes destination drop) es ⟨[], 0, []⟩
    (Nat.zero_le _)
  have hdropped := @Fifo.lt_remaining_of_dropped
    (dequeue.request q.toQueueConfig requestedBytes destination drop) es
    ⟨[], 0, []⟩ rfl
  rw [Fifo.cutsNothing_iff, hentries]
  generalize hfs : Fifo.fates (dequeue.request q.toQueueConfig requestedBytes destination drop) es
    ⟨[], 0, []⟩ = fs
    at hafter hdecomposes horder hlast hentries' hdropped
  generalize hres : (Fifo.dequeue (dequeue.request q.toQueueConfig requestedBytes destination drop)
    es ⟨[], 0, []⟩).2 = r
    at hdequeue hdecomposes hbound
  have hcomponents : r.components = fs.components q.kind := by
    rw [hdecomposes.components, List.nil_append]
    rfl
  have hdiscarded : r.dropped = fs.discarded := by
    rw [hdecomposes.dropped, List.nil_append]
  obtain rfl := hdecomposes.before
  constructor
  . rintro ⟨r', q'', heq, hcontract⟩ ⟨ef, hef, hcut⟩
    rw [hdequeue, Option.some.injEq, Prod.mk.injEq] at heq
    obtain ⟨rfl, rfl⟩ := heq
    obtain ⟨c, hc, hfragment, hsize⟩ := empty_fragment_of_cut hdecomposes.allowed hef hcut q.kind
    have hpos := hcontract.progress c (hcomponents ▸ hc) hfragment
    omega
  . intro hnot
    have hcut : ∀ ef ∈ fs, ∀ n, ef.2 = .cut n → 0 < n := by
      intro ef hef n hn
      apply Nat.pos_of_ne_zero
      rintro rfl
      exact hnot ⟨ef, hef, hn⟩
    refine ⟨r, q', hdequeue, ?_⟩
    constructor
    . rw [hdecomposes.totalBytes, hdecomposes.components]
      simp
    . exact hbound
    . rw [hentries, hcomponents, hdiscarded]
      exact horder
    . rw [hcomponents]
      exact hlast
    . rw [hentries, hcomponents]
      exact fun c hc => h.isRange_of_mem_components hdecomposes.allowed hc
    . rw [hentries, hdiscarded]
      exact fun d hd => h.owned_of_mem_discarded hdecomposes.allowed rfl hdropped hd
    . rw [hcomponents]
      exact fun c hc hfragment => h.size_pos_of_cut_pos hdecomposes.allowed hcut hc hfragment
    . rw [hentries, hentries']
      exact fun e he e' he' hseq hindex => h.offset_lt_of_cut_pos hcut he he' hseq hindex

end Holds

namespace History

theorem exists_holds {cfg : QueueConfig} {calls : List Call} {h : History}
    (hrun : run step (init cfg) calls = some h)
    : h.queue.toQueueConfig = cfg ∧ ∃ es, Holds h.queue es := by
  apply @run_inv _ _ step (fun _ _ => True)
    (fun h => h.queue.toQueueConfig = cfg ∧ ∃ es, Holds h.queue es) _ (init cfg) calls h
    ⟨rfl, [], Holds.of_init cfg⟩ (guarded_of_forall (fun _ _ => trivial)) hrun
  rintro s call s' ⟨hconfig, es, hholds⟩ - hstep
  cases call with
  | enqueue pkt =>
    unfold step at hstep
    simp only [Option.bind_eq_bind, Option.bind_eq_some_iff, Option.pure_def, Option.some.injEq] at hstep
    obtain ⟨⟨dropped, queue⟩, henqueue, rfl⟩ := hstep
    obtain ⟨rest, hholds', hconfig', -⟩ := hholds.of_enqueue henqueue
    exact ⟨hconfig'.trans hconfig, _, hholds'⟩
  | dequeue requestedBytes destination drop =>
    unfold step at hstep
    simp only [Option.bind_eq_bind, Option.bind_eq_some_iff, Option.pure_def, Option.some.injEq] at hstep
    obtain ⟨⟨r, queue⟩, hdequeue, rfl⟩ := hstep
    obtain ⟨q', heq, hholds', hconfig', -⟩ := hholds.dequeue requestedBytes destination drop
    rw [hdequeue, Option.some.injEq, Prod.mk.injEq] at heq
    obtain ⟨-, rfl⟩ := heq
    exact ⟨hconfig'.trans hconfig, _, hholds'⟩

theorem contract_iff {cfg : QueueConfig} {calls : List Call} {h : History}
    (hrun : run step (init cfg) calls = some h)
    (requestedBytes : Nat) (destination : NEMId) (drop : Bool)
    : (∃ r q',
        h.queue.dequeue requestedBytes destination drop = some (r, q')
          ∧ Contract h.queue requestedBytes destination drop r q')
        ↔
      ¬ Fifo.CutsNothing (dequeue.request cfg requestedBytes destination drop) h.queue.entries := by
  obtain ⟨rfl, es, hholds⟩ := exists_holds hrun
  exact hholds.contract_iff_not_cutsNothing requestedBytes destination drop

theorem contract_iff_example
    : ∃ h,
        run step (init ⟨10, true, true, false⟩) [
          .enqueue ⟨⟨1, 2, 0, 0, 0⟩, [[1, 2], [3]]⟩, .enqueue ⟨⟨1, 2, 0, 0, 0⟩, [[4, 5]]⟩,
            .dequeue 1 0 true
        ] = some h
          ∧ ∃ r q', h.queue.dequeue 3 2 true = some (r, q') ∧ Contract h.queue 3 2 true r q' := by
  have hrun : ∃ h,
      run step (init ⟨10, true, true, false⟩) [
        .enqueue ⟨⟨1, 2, 0, 0, 0⟩, [[1, 2], [3]]⟩, .enqueue ⟨⟨1, 2, 0, 0, 0⟩, [[4, 5]]⟩, .dequeue 1 0 true
      ] = some h
        ∧ ¬ Fifo.CutsNothing (dequeue.request ⟨10, true, true, false⟩ 3 2 true) h.queue.entries := by
    exact ⟨_, rfl, by decide⟩
  obtain ⟨h, hrun, hnot⟩ := hrun
  exact ⟨h, hrun, (contract_iff hrun 3 2 true).mpr hnot⟩

theorem not_contract
    : ¬ ∀ cfg calls h requestedBytes destination drop,
        run step (init cfg) calls = some h
          →
        ∃ r q',
          h.queue.dequeue requestedBytes destination drop = some (r, q')
            ∧ Contract h.queue requestedBytes destination drop r q' := by
  intro hall
  obtain ⟨r, q', heq, hcontract⟩ := hall ⟨10, true, true, false⟩
    [.enqueue ⟨⟨1, 2, 0, 0, 0⟩, [[1, 2, 3]]⟩, .enqueue ⟨⟨1, 2, 0, 0, 0⟩, [[4, 5]]⟩] _ 3 0 true rfl
  cases heq
  have hpos := hcontract.progress ⟨.data, 2, 0, [], 0, 0, 1, true⟩ (by decide) rfl
  exact absurd hpos (by decide)

end History
end Queue
end Tdma
end Emane

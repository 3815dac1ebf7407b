import Emane.Tdma.Fifo

/-!
This module contains what a dequeue does to each packet: it is kept, the next fragment is cut from
it, what is left of it is sent, or it is dropped.
-/

namespace Emane
namespace Tdma

inductive Fate where
  | kept
  | cut (n : Nat)
  | sent
  | dropped
  deriving DecidableEq

namespace Fate

def after (e : Entry) : Fate → Option Entry
  | kept => some e
  | cut n => some (e.advance n)
  | sent => none
  | dropped => none

def component (kind : MessageComponent.Kind) (e : Entry) : Fate → Option MessageComponent
  | kept => none
  | cut n => some (e.component kind n)
  | sent => some (e.component kind e.remaining)
  | dropped => none

def discarded (e : Entry) : Fate → Option OwnedPacket
  | kept => none
  | cut _ => none
  | sent => none
  | dropped => some e.owned

def Allowed (p : Fifo.Request) (e : Entry) : Fate → Prop
  | kept => True
  | cut n => p.fragment = true ∧ n < e.remaining
  | sent => True
  | dropped => p.fragment = false ∧ p.drop = true

end Fate

namespace Fifo

@[simp]
theorem bytes_nil : bytes [] = 0 := by
  rfl

@[simp]
theorem bytes_cons (e : Entry) (es : List Entry) : bytes (e :: es) = e.remaining + bytes es := by
  simp [bytes]

@[simp]
theorem bytes_append (es es' : List Entry) : bytes (es ++ es') = bytes es + bytes es' := by
  simp [bytes]

abbrev Fates := List (Entry × Fate)

namespace Fates

def before (fs : Fates) : List Entry :=
  fs.map Prod.fst

def after (fs : Fates) : List Entry :=
  fs.filterMap (fun ef => ef.2.after ef.1)

def components (kind : MessageComponent.Kind) (fs : Fates) : MessageComponents :=
  fs.filterMap (fun ef => ef.2.component kind ef.1)

def discarded (fs : Fates) : List OwnedPacket :=
  fs.filterMap (fun ef => ef.2.discarded ef.1)

def Allowed (p : Request) (fs : Fates) : Prop :=
  ∀ ef ∈ fs, ef.2.Allowed p ef.1

@[simp]
theorem after_nil : after [] = [] := by
  rfl

variable (kind : MessageComponent.Kind)

@[simp]
theorem components_nil : components kind [] = [] := by
  rfl

@[simp]
theorem discarded_nil : discarded [] = [] := by
  rfl

variable (ef : Entry × Fate)

@[simp]
theorem before_cons (fs : Fates) : before (ef :: fs) = ef.1 :: before fs := by
  rfl

@[simp]
theorem after_cons (fs : Fates)
    : after (ef :: fs) = (ef.2.after ef.1).toList ++ after fs := by
  cases h : ef.2.after ef.1 with
  | none => simp [after, h]
  | some e => simp [after, h]

@[simp]
theorem components_cons (fs : Fates)
    : components kind (ef :: fs) = (ef.2.component kind ef.1).toList ++ components kind fs := by
  cases h : ef.2.component kind ef.1 with
  | none => simp [components, h]
  | some c => simp [components, h]

@[simp]
theorem discarded_cons (fs : Fates)
    : discarded (ef :: fs) = (ef.2.discarded ef.1).toList ++ discarded fs := by
  cases h : ef.2.discarded ef.1 with
  | none => simp [discarded, h]
  | some d => simp [discarded, h]

@[simp]
theorem allowed_cons (p : Request) (ef : Entry × Fate) (fs : Fates)
    : Allowed p (ef :: fs) ↔ ef.2.Allowed p ef.1 ∧ Allowed p fs := by
  simp [Allowed]

def allKept (es : List Entry) : Fates :=
  es.map (fun e => (e, .kept))

@[simp]
theorem allKept_cons (e : Entry) (es : List Entry) : allKept (e :: es) = (e, .kept) :: allKept es := by
  rfl

@[simp]
theorem before_allKept (es : List Entry) : (allKept es).before = es := by
  induction es with
  | nil => rfl
  | cons e es ih => simp [ih]

@[simp]
theorem after_allKept (es : List Entry) : (allKept es).after = es := by
  induction es with
  | nil => rfl
  | cons e es ih => simp [Fate.after, ih]

variable {fs : Fates}

theorem mem_components {kind : MessageComponent.Kind} {c : MessageComponent}
    (h : c ∈ fs.components kind)
    : ∃ e ∈ fs.before, c.fragmentSequence = e.seq := by
  unfold components at h
  rw [List.mem_filterMap] at h
  obtain ⟨⟨e, f⟩, hmem, hc⟩ := h
  refine ⟨e, List.mem_map_of_mem hmem, ?_⟩
  cases f with
  | kept => simp [Fate.component] at hc
  | cut n =>
    simp only [Fate.component, Option.some.injEq] at hc
    rw [← hc]
    rfl
  | sent =>
    simp only [Fate.component, Option.some.injEq] at hc
    rw [← hc]
    rfl
  | dropped => simp [Fate.component] at hc

@[simp]
theorem components_allKept (es : List Entry)
    : (allKept es).components kind = [] := by
  induction es with
  | nil => rfl
  | cons e es ih => simp [Fate.component, ih]

@[simp]
theorem discarded_allKept (es : List Entry) : (allKept es).discarded = [] := by
  induction es with
  | nil => rfl
  | cons e es ih => simp [Fate.discarded, ih]

@[simp]
theorem allowed_allKept (p : Request) (es : List Entry) : (allKept es).Allowed p := by
  induction es with
  | nil => simp [allKept, Allowed]
  | cons e es ih => simp [Fate.Allowed, ih]

theorem mem_after_iff (hdistinct : fs.before.Pairwise (fun a b => a.seq ≠ b.seq)) {e : Entry} {f : Fate}
    (hmem : (e, f) ∈ fs)
    : e ∈ fs.after ↔ f = .kept := by
  constructor
  . intro hafter
    unfold after at hafter
    rw [List.mem_filterMap] at hafter
    obtain ⟨⟨e', f'⟩, hmem', hafter⟩ := hafter
    have hseq : e'.seq = e.seq := by
      cases f' with
      | kept => simp_all [Fate.after]
      | cut n =>
        simp only [Fate.after, Option.some.injEq] at hafter
        rw [← hafter]
        rfl
      | sent => simp [Fate.after] at hafter
      | dropped => simp [Fate.after] at hafter
    have heq : (e', f') = (e, f) := by
      unfold before at hdistinct
      rw [List.pairwise_map] at hdistinct
      have : Std.Symm (fun a b : Entry × Fate => a.1.seq ≠ b.1.seq) := ⟨fun _ _ h => h.symm⟩
      apply Classical.byContradiction
      intro hne
      exact hdistinct.forall hmem' hmem hne hseq
    rw [Prod.mk.injEq] at heq
    rw [heq.1, heq.2] at hafter
    cases f with
    | kept => rfl
    | cut n =>
      -- the index tells the two entries apart
      simp only [Fate.after, Option.some.injEq] at hafter
      have hindex := congrArg Entry.index hafter
      simp [Entry.advance] at hindex
    | sent => simp [Fate.after] at hafter
    | dropped => simp [Fate.after] at hafter
  . intro hkept
    subst hkept
    unfold after
    rw [List.mem_filterMap]
    exact ⟨(e, .kept), hmem, rfl⟩

theorem length_components (fs : Fates)
    : (fs.components kind).length + fs.discarded.length
        + (fs.filter (fun ef => ef.2 = .kept)).length = fs.length := by
  induction fs with
  | nil => rfl
  | cons ef fs ih =>
    rw [components_cons, discarded_cons]
    simp only [List.length_append, List.filter_cons, List.length_cons]
    cases hf : ef.2 with
    | kept =>
      simp [Fate.component, Fate.discarded]
      omega
    | cut n =>
      simp [Fate.component, Fate.discarded]
      omega
    | sent =>
      simp [Fate.component, Fate.discarded]
      omega
    | dropped =>
      simp [Fate.component, Fate.discarded]
      omega

theorem length_components_eq {kind : MessageComponent.Kind} {gs : Fates}
    (hdistinct : fs.before.Pairwise (fun a b => a.seq ≠ b.seq)) (hbefore : fs.before = gs.before)
    (hafter : fs.after = gs.after)
    : (fs.components kind).length + fs.discarded.length = (gs.components kind).length
        + gs.discarded.length := by
  have hkept : ∀ hs : Fates, hs.before.Pairwise (fun a b => a.seq ≠ b.seq) →
      (hs.filter (fun ef => ef.2 = .kept)).length = (hs.before.filter (· ∈ hs.after)).length := by
    intro hs hdistinct
    unfold before
    rw [List.filter_map, List.length_map]
    congr 1
    apply List.filter_congr
    intro ef hef
    simp [mem_after_iff hdistinct hef]
  have hlength : fs.length = gs.length := by
    have := congrArg List.length hbefore
    simpa [before] using this
  have hfs := length_components kind fs
  have hgs := length_components kind gs
  rw [hkept fs hdistinct] at hfs
  rw [hkept gs (hbefore ▸ hdistinct), ← hbefore, ← hafter] at hgs
  omega

end Fates

structure Decomposes (p : Request) (es : List Entry) (r : Queue.dequeue.Result)
    (es' : List Entry) (r' : Queue.dequeue.Result) (fs : Fates) : Prop where
  before : fs.before = es
  after : fs.after = es'
  components : r'.components = r.components ++ fs.components p.kind
  dropped : r'.dropped = r.dropped ++ fs.discarded
  totalBytes : r'.totalBytes = r.totalBytes + MessageComponents.size (fs.components p.kind)
  allowed : fs.Allowed p

namespace Decomposes

variable {p : Request} {e : Entry} {es es' : List Entry} {r r' : Queue.dequeue.Result} {fs : Fates}

theorem refl (p : Request) (es : List Entry) (r : Queue.dequeue.Result)
    : Decomposes p es r es r (Fates.allKept es) := by
  constructor <;> simp

theorem cons_kept (h : Decomposes p es r es' r' fs)
    : Decomposes p (e :: es) r (e :: es') r' ((e, .kept) :: fs) := by
  constructor
  . simp [h.before]
  . simp [Fate.after, h.after]
  . simp [Fate.component, h.components]
  . simp [Fate.discarded, h.dropped]
  . simp [Fate.component, h.totalBytes]
  . simp [Fate.Allowed, h.allowed]

theorem cons_sent
    (h : Decomposes p es (push r (e.component p.kind e.remaining) e.remaining) es' r' fs)
    : Decomposes p (e :: es) r es' r' ((e, .sent) :: fs) := by
  have hsize := Entry.size_component p.kind e (Nat.le_refl _)
  constructor
  . simp [h.before]
  . simp [Fate.after, h.after]
  . simp [Fate.component, h.components, push]
  . simp [Fate.discarded, h.dropped, push]
  . rw [h.totalBytes]
    simp only [Fate.component, Fates.components_cons, Option.toList_some, List.singleton_append,
      MessageComponents.size_cons, push]
    omega
  . simp [Fate.Allowed, h.allowed]

theorem cons_dropped (hfrag : p.fragment = false) (hdrop : p.drop = true)
    (h : Decomposes p es (discard r e) es' r' fs)
    : Decomposes p (e :: es) r es' r' ((e, .dropped) :: fs) := by
  constructor
  . simp [h.before]
  . simp [Fate.after, h.after]
  . simp [Fate.component, h.components, discard]
  . simp [Fate.discarded, h.dropped, discard]
  . simp [Fate.component, h.totalBytes, discard]
  . simp [Fate.Allowed, h.allowed, hfrag, hdrop]

theorem of_cut (hfrag : p.fragment = true) {n : Nat} (hn : n < e.remaining)
    : Decomposes p (e :: es) r (e.advance n :: es) (push r (e.component p.kind n) n)
        ((e, .cut n) :: Fates.allKept es) := by
  have hsize := Entry.size_component p.kind e (Nat.le_of_lt hn)
  constructor
  . simp
  . simp [Fate.after]
  . simp [Fate.component, push]
  . simp [Fate.discarded, push]
  . simp [Fate.component, push, hsize]
  . simp [Fate.Allowed, hfrag, hn]

end Decomposes

def fates (p : Request) : List Entry → Queue.dequeue.Result → Fates
  | [], _ => []
  | e :: es, r =>
    if e.selectedBy p.destination then
      let room := p.requestedBytes - r.totalBytes
      if e.remaining ≤ room then
        let r' := push r (e.component p.kind e.remaining) e.remaining
        if p.aggregate then
          (e, .sent) :: fates p es r'
        else
          (e, .sent) :: Fates.allKept es
      else if p.fragment then
        (e, .cut room) :: Fates.allKept es
      else if p.drop && r.components.isEmpty then
        (e, .dropped) :: fates p es (discard r e)
      else
        (e, .kept) :: Fates.allKept es
    else
      (e, .kept) :: fates p es r

theorem dequeue_decomposes (p : Request) (es : List Entry) (r : Queue.dequeue.Result)
    : Decomposes p es r (dequeue p es r).1 (dequeue p es r).2 (fates p es r) := by
  induction es generalizing r with
  | nil => exact Decomposes.refl p [] r
  | cons e es ih =>
    unfold dequeue fates
    split
    . simp only
      split
      . split
        . exact (ih (push r (e.component p.kind e.remaining) e.remaining)).cons_sent
        . exact (Decomposes.refl p es _).cons_sent
      . next hfits =>
        split
        . next hfrag => exact Decomposes.of_cut hfrag (Nat.lt_of_not_le hfits)
        . next hfrag =>
          split
          . next hdrop =>
            rw [Bool.and_eq_true] at hdrop
            rw [Bool.not_eq_true] at hfrag
            exact (ih (discard r e)).cons_dropped hfrag hdrop.1
          . exact Decomposes.refl p (e :: es) r
    . exact (ih r).cons_kept

variable {p : Request}

theorem Fates.discarded_of_not_drop {fs : Fates} (h : fs.Allowed p) (hdrop : p.drop = false)
    : fs.discarded = [] := by
  unfold Fates.discarded
  rw [List.filterMap_eq_nil_iff]
  intro ef hef
  have hallowed := h ef hef
  cases hf : ef.2 with
  | kept => rfl
  | cut n => rfl
  | sent => rfl
  | dropped =>
    rw [hf] at hallowed
    simp [Fate.Allowed, hdrop] at hallowed

theorem totalBytes_dequeue_le (p : Request) (es : List Entry) (r : Queue.dequeue.Result)
    (hr : r.totalBytes ≤ p.requestedBytes)
    : (dequeue p es r).2.totalBytes ≤ p.requestedBytes := by
  induction es generalizing r with
  | nil => exact hr
  | cons e es ih =>
    unfold dequeue
    have hpush : ∀ c n, n ≤ p.requestedBytes - r.totalBytes
        → (push r c n).totalBytes ≤ p.requestedBytes := by
      intro c n hn
      simp only [push]
      omega
    split
    . simp only
      split
      . next hfits =>
        split
        . exact ih _ (hpush _ _ hfits)
        . exact hpush _ _ hfits
      . split
        . exact hpush _ _ (Nat.le_refl _)
        . split
          . exact ih _ hr
          . exact hr
    . exact ih r hr

def ExactFit (p : Request) (es : List Entry) : Prop :=
  p.aggregate = true
    ∧ ∃ n < (es.filter (Entry.selectedBy p.destination)).length,
    bytes ((es.filter (Entry.selectedBy p.destination)).take n) = p.requestedBytes

instance (p : Request) (es : List Entry) : Decidable (ExactFit p es) :=
  inferInstanceAs (Decidable (_ ∧ _))

variable {es : List Entry}

theorem exactFit_of_append {pre post : List Entry} {e : Entry} (hagg : p.aggregate = true)
    (heq : es.filter (Entry.selectedBy p.destination) = pre ++ e :: post)
    (hbytes : bytes pre = p.requestedBytes)
    : ExactFit p es := by
  refine ⟨hagg, pre.length, ?_, ?_⟩
  . rw [heq]
    simp
  . rw [heq]
    rw [List.take_left]
    exact hbytes

theorem Fates.not_cut_of_allKept {ef : Entry × Fate} (h : ef ∈ allKept es) (n : Nat) : ef.2 ≠ .cut n := by
  unfold allKept at h
  rw [List.mem_map] at h
  obtain ⟨e, _, rfl⟩ := h
  simp

theorem cut_pos {r : Queue.dequeue.Result} (hfrag : p.fragment = true)
    (hr : r.totalBytes ≤ p.requestedBytes)
    (hfit : ∀ pre e post, es.filter (Entry.selectedBy p.destination) = pre ++ e :: post →
      p.aggregate = true ∨ pre = [] → r.totalBytes + bytes pre ≠ p.requestedBytes)
    : ∀ ef ∈ fates p es r, ∀ n, ef.2 = .cut n → 0 < n := by
  induction es generalizing r with
  | nil => simp [fates]
  | cons e es ih =>
    intro ef hef n hn
    unfold fates at hef
    split at hef
    . next hsel =>
      rw [List.filter_cons_of_pos hsel] at hfit
      simp only at hef
      split at hef
      . next hfits =>
        split at hef
        . next hagg =>
          rw [List.mem_cons] at hef
          cases hef with
          | inl heq => simp [heq] at hn
          | inr hmem =>
            refine ih ?_ ?_ ef hmem n hn
            . simp only [push]
              omega
            . intro pre e' post heq _
              have := hfit (e :: pre) e' post (by simp [heq]) (Or.inl hagg)
              simp only [push]
              rw [bytes_cons] at this
              omega
        . rw [List.mem_cons] at hef
          cases hef with
          | inl heq => simp [heq] at hn
          | inr hmem => exact absurd hn (Fates.not_cut_of_allKept hmem n)
      . rw [List.mem_cons] at hef
        cases hef with
        | inl heq =>
          have := hfit [] e _ rfl (Or.inr rfl)
          rw [bytes_nil] at this
          rw [heq] at hn
          simp only [Fate.cut.injEq] at hn
          omega
        | inr hmem => exact absurd hn (Fates.not_cut_of_allKept hmem n)
    . next hsel =>
      rw [List.filter_cons_of_neg hsel] at hfit
      rw [List.mem_cons] at hef
      cases hef with
      | inl heq => simp [heq] at hn
      | inr hmem => exact ih hr hfit ef hmem n hn

theorem cut_pos_of_not_exactFit (hpos : 0 < p.requestedBytes) (hfit : ¬ ExactFit p es)
    : ∀ ef ∈ fates p es ⟨[], 0, []⟩, ∀ n, ef.2 = .cut n → 0 < n := by
  intro ef hef n hn
  have hallowed := (dequeue_decomposes p es ⟨[], 0, []⟩).allowed ef hef
  rw [hn] at hallowed
  refine cut_pos hallowed.1 (Nat.zero_le _) ?_ ef hef n hn
  intro pre e post heq hcase
  rw [Nat.zero_add]
  cases hcase with
  | inl hagg =>
    intro hbytes
    exact hfit (exactFit_of_append hagg heq hbytes)
  | inr hnil =>
    rw [hnil, bytes_nil]
    omega

end Fifo
end Tdma
end Emane

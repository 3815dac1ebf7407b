import Emane.Lib.Machine
import Emane.Tdma.Impl.QueueMapping

/-!
This module contains which queue a packet goes to: the last one with a list that holds its
priority, if the lists are those of the radio model that the packet goes through.
-/

namespace Emane
namespace Tdma

def holds (priority : Priority) (value : Text) : Bool :=
  match itemBounds value with
  | .ok (numA, numB) => numA ≤ priority && (priority : Int) ≤ numB
  | .error _ => false

def listHolds (priority : Priority) (text : Text) : Bool :=
  (text.split ',').any (holds priority)

def readable (priority : Priority) (text : Text) : Bool :=
  ((text.split ',').takeWhile (fun value => !holds priority value)).all
    (fun value => (itemBounds value).isOk)

namespace QueueTexts

def queueOf (queueMapping : QueueTexts) (priority : Priority) : Fin 4 :=
  queueMapping.toList.foldl
    (fun queue entry => if listHolds priority entry.2 then entry.1 else queue) queue0

end QueueTexts

section

variable {priority : Priority} {value : Text} {values : List Text} {b : Bool}

theorem inItems_eq_ok_iff
    : inItems priority values = .ok b
        ↔
      (values.takeWhile (fun value => !holds priority value)).all
        (fun value => (itemBounds value).isOk) = true
        ∧ b = values.any (holds priority) := by
  induction values with
  | nil => simp [inItems, eq_comm]
  | cons value values ih =>
    unfold inItems
    cases hbounds : itemBounds value with
    | error fault =>
      have hholds : holds priority value = false := by simp [holds, hbounds]
      simp [hholds, hbounds, bind, Except.bind, Except.isOk, Except.toBool]
    | ok bounds =>
      obtain ⟨numA, numB⟩ := bounds
      simp only [bind, Except.bind]
      by_cases hin : numA ≤ priority ∧ (priority : Int) ≤ numB
      . have hholds : holds priority value = true := by simp [holds, hbounds, hin]
        rw [if_pos hin]
        simp [hholds, pure, Except.pure, eq_comm]
      . have hholds : holds priority value = false := by
          simp only [holds, hbounds, Bool.and_eq_false_iff, decide_eq_false_iff_not]
          exact not_and_or.mp hin
        rw [if_neg hin, ih]
        simp [hholds, hbounds, Except.isOk, Except.toBool]

theorem priorityToQueue_eq_ok_iff {queueMapping : QueueTexts} {queue : Fin 4}
    : queueMapping.priorityToQueue priority = .ok queue
        ↔
      (∀ entry ∈ queueMapping.toList, readable priority entry.2 = true)
          ∧ queue = queueMapping.queueOf priority := by
  unfold QueueTexts.priorityToQueue QueueTexts.queueOf
  generalize queue0 = start
  induction queueMapping.toList generalizing start with
  | nil =>
    rw [List.foldlM_nil, List.foldl_nil]
    simp only [pure, Except.pure, Except.ok.injEq, List.not_mem_nil, false_implies,
      implies_true, true_and]
    exact eq_comm
  | cons entry entries ih =>
    rw [List.foldlM_cons, List.forall_mem_cons, List.foldl_cons]
    cases hitems : inItems priority (entry.2.split ',') with
    | error fault =>
      have hnot : readable priority entry.2 = false := by
        rw [← Bool.not_eq_true]
        intro hreadable
        have hok := inItems_eq_ok_iff.mpr ⟨hreadable, rfl⟩
        rw [hitems] at hok
        cases hok
      simp [hnot, bind, Except.bind]
    | ok b =>
      obtain ⟨hreadable, rfl⟩ := inItems_eq_ok_iff.mp hitems
      have hreadable : readable priority entry.2 = true := hreadable
      simp only [bind, Except.bind, hreadable, true_and]
      change (if listHolds priority entry.2 = true then (.ok entry.1 : Except ParseFault (Fin 4))
        else .ok start).bind _ = _ ↔ _
      split
      . exact ih entry.1
      . exact ih start

theorem foldl_holds {entries : List (Fin 4 × Text)}
    (hsorted : entries.Pairwise (fun a b => a.1 < b.1)) (start : Fin 4)
    : (∃ entry ∈ entries, listHolds priority entry.2 = true
        ∧ (∀ entry' ∈ entries, listHolds priority entry'.2 = true → entry'.1 ≤ entry.1)
        ∧ entries.foldl (fun queue entry => if listHolds priority entry.2 then entry.1 else queue)
          start = entry.1)
        ∨ ((∀ entry ∈ entries, listHolds priority entry.2 = false)
        ∧ entries.foldl (fun queue entry => if listHolds priority entry.2 then entry.1 else queue)
            start = start) := by
  induction entries generalizing start with
  | nil => simp
  | cons entry entries ih =>
    rw [List.pairwise_cons] at hsorted
    cases ih hsorted.2 (if listHolds priority entry.2 then entry.1 else start) with
    | inl hlater =>
      obtain ⟨entry', hentry', hholds, hlast, heq⟩ := hlater
      refine .inl ⟨entry', List.mem_cons_of_mem _ hentry', hholds, ?_, heq⟩
      rw [List.forall_mem_cons]
      exact ⟨fun _ => le_of_lt (hsorted.1 entry' hentry'), hlast⟩
    | inr hnone =>
      obtain ⟨hnone, heq⟩ := hnone
      cases hholds : listHolds priority entry.2 with
      | true =>
        refine .inl ⟨entry, List.mem_cons_self, hholds, ?_, ?_⟩
        . rw [List.forall_mem_cons]
          refine ⟨fun _ => le_refl _, ?_⟩
          intro entry' hentry' hholds'
          rw [hnone entry' hentry'] at hholds'
          cases hholds'
        . simpa [hholds] using heq
      | false =>
        refine .inr ⟨?_, ?_⟩
        . exact List.forall_mem_cons.mpr ⟨hholds, hnone⟩
        . simpa [hholds] using heq

end

def QueueTexts.heldBy (queueMapping : QueueTexts) (priority : Priority) (queue : Fin 4) : Bool :=
  (queueMapping.find? queue).any (listHolds priority)

/--
The queue for packets with this priority is the last one with a list that holds it, and the first
one if there is none.
-/
structure Serves (queueMapping : QueueTexts) (priority : Priority) (queue : Fin 4) : Prop where
  held : ∀ q, queueMapping.heldBy priority q = true
    → queueMapping.heldBy priority queue = true ∧ q ≤ queue
  default : (∀ q, queueMapping.heldBy priority q = false) → queue = 0

theorem heldBy_of_mem {queueMapping : QueueTexts} {priority : Priority} {entry : Fin 4 × Text}
    (h : entry ∈ queueMapping.toList)
    : queueMapping.heldBy priority entry.1 = listHolds priority entry.2 := by
  have hfind := (queueMapping.find?_eq_some_iff entry.1 entry.2).mpr h
  simp [QueueTexts.heldBy, hfind]

theorem queueOf_serves (queueMapping : QueueTexts) (priority : Priority)
    : Serves queueMapping priority (queueMapping.queueOf priority) := by
  have hmem : ∀ q, queueMapping.heldBy priority q = true →
      ∃ entry ∈ queueMapping.toList, entry.1 = q ∧ listHolds priority entry.2 = true := by
    intro q hheld
    unfold QueueTexts.heldBy at hheld
    rw [Option.any_eq_true] at hheld
    obtain ⟨text, htext, hholds⟩ := hheld
    exact ⟨(q, text), (queueMapping.find?_eq_some_iff q text).mp htext, rfl, hholds⟩
  cases @foldl_holds priority _ queueMapping.sorted 0 with
  | inl hsome =>
    obtain ⟨entry, hentry, hholds, hlast, heq⟩ := hsome
    have hqueue : queueMapping.queueOf priority = entry.1 := heq
    have hheld := (heldBy_of_mem hentry).trans hholds
    constructor
    . intro q hq
      obtain ⟨entry', hentry', rfl, hholds'⟩ := hmem q hq
      rw [hqueue]
      exact ⟨hheld, hlast entry' hentry' hholds'⟩
    . intro hnone
      rw [hnone] at hheld
      cases hheld
  | inr hnone =>
    obtain ⟨hnone, heq⟩ := hnone
    constructor
    . intro q hq
      obtain ⟨entry, hentry, rfl, hholds⟩ := hmem q hq
      rw [hnone entry hentry] at hholds
      cases hholds
    . exact fun _ => heq

theorem Serves.unique {queueMapping queueMapping' : QueueTexts} {priority : Priority}
    {queue queue' : Fin 4}
    (h : Serves queueMapping priority queue) (h' : Serves queueMapping' priority queue')
    (heq : ∀ q, queueMapping.heldBy priority q = queueMapping'.heldBy priority q)
    : queue = queue' := by
  by_cases hnone : ∀ q, queueMapping.heldBy priority q = false
  . have hnone' : ∀ q, queueMapping'.heldBy priority q = false := fun q => (heq q).symm.trans (hnone q)
    rw [h.default hnone, h'.default hnone']
  . simp only [not_forall, Bool.not_eq_false] at hnone
    obtain ⟨q, hq⟩ := hnone
    have hheld := (h.held q hq).1
    have hheld' := (h'.held q ((heq q).symm.trans hq)).1
    apply le_antisymm
    . exact (h'.held queue ((heq queue).symm.trans hheld)).2
    . exact (h.held queue' ((heq queue').trans hheld')).2

inductive DscpItem where
  | value (n : Nat)
  | range (numA numB : Nat)
  deriving DecidableEq

namespace DscpItem

def bounds : DscpItem → Nat × Nat
  | value n => (n, n)
  | range numA numB => (numA, numB)

def Fits (item : DscpItem) : Prop :=
  item.bounds.1 < 2^31 ∧ item.bounds.2 < 2^31

def text : DscpItem → Text
  | value n => Text.decimal n
  | range numA numB => Text.decimal numA ++ '-' :: Text.decimal numB

def textOf (items : List DscpItem) : Text :=
  Text.join ',' (items.map text)

theorem stoi_decimal {n : Nat} (h : n < 2^31) : stoi (Text.decimal n) = .ok (n : Int) := by
  unfold stoi
  simp only [Text.readInt_decimal]
  rw [if_pos (by omega)]

theorem itemBounds_text {item : DscpItem} (h : item.Fits)
    : itemBounds item.text = .ok (item.bounds.1, item.bounds.2) := by
  have hnot := fun n => Text.not_mem_decimal (c := '-') (by decide) n
  cases item with
  | value n =>
    unfold itemBounds text
    have hn : stoi (Text.decimal n) = .ok (n : Int) := stoi_decimal h.1
    rw [Text.split_of_not_mem (Text.decimal_ne_nil n) (hnot n)]
    simp only [List.getLastD_nil, hn]
    rfl
  | range numA numB =>
    unfold itemBounds text
    have hA : stoi (Text.decimal numA) = .ok (numA : Int) := stoi_decimal h.1
    have hB : stoi (Text.decimal numB) = .ok (numB : Int) := stoi_decimal h.2
    rw [Text.split_append (hnot numA), Text.split_of_not_mem (Text.decimal_ne_nil numB) (hnot numB)]
    simp only [List.getLastD_cons, List.getLastD_nil, hA, hB]
    rfl

theorem text_item (item : DscpItem) : item.text ≠ [] ∧ ',' ∉ item.text := by
  have hnot := fun n => Text.not_mem_decimal (c := ',') (by decide) n
  cases item with
  | value n => exact ⟨Text.decimal_ne_nil n, hnot n⟩
  | range numA numB =>
    unfold text
    constructor
    . simp
    . rw [List.mem_append, List.mem_cons, not_or, not_or]
      exact ⟨hnot numA, by decide, hnot numB⟩

theorem read_textOf {items : List DscpItem} (h : ∀ item ∈ items, item.Fits) (priority : Priority)
    : readable priority (textOf items) = true
        ∧ listHolds priority (textOf items) = items.any
            (fun item => item.bounds.1 ≤ priority && priority ≤ item.bounds.2) := by
  have hsplit : (textOf items).split ',' = items.map text := by
    apply Text.split_join
    intro item hitem
    rw [List.mem_map] at hitem
    obtain ⟨item, _, rfl⟩ := hitem
    exact item.text_item
  constructor
  . unfold readable
    rw [hsplit, List.all_eq_true]
    intro value hvalue
    have hmem := (List.takeWhile_prefix _).subset hvalue
    rw [List.mem_map] at hmem
    obtain ⟨item, hitem, rfl⟩ := hmem
    rw [itemBounds_text (h item hitem)]
    rfl
  . unfold listHolds
    rw [hsplit, List.any_map, Bool.eq_iff_iff, List.any_eq_true, List.any_eq_true]
    apply exists_congr
    intro item
    apply and_congr_right
    intro hitem
    unfold holds
    simp [itemBounds_text (h item hitem)]

end DscpItem

def QueueTexts.ofItems (items : Fin 4 → List DscpItem) : QueueTexts :=
  (List.finRange 4).foldl
    (fun queueMapping queue => queueMapping.set queue (DscpItem.textOf (items queue))) .empty

theorem QueueTexts.toList_ofItems (items : Fin 4 → List DscpItem)
    : (ofItems items).toList = (List.finRange 4).map
        (fun queue => (queue, DscpItem.textOf (items queue))) := by
  rfl

namespace Nems

section

variable {ι : Type} [DecidableEq ι] {s s' : Nems ι} {event : Event ι} {nem : ι}

def ownStep (own : QueueTexts × List (Except ParseFault (Fin 4)))
    : Event ι → QueueTexts × List (Except ParseFault (Fin 4))
  | .configure _ update _ => ((update.foldlM configureItem own.1).getD own.1, own.2)
  | .downstream _ priority => (own.1, own.2 ++ [.ok (own.1.queueOf priority)])

def chosenBy (nem : ι) (s : Nems ι) : List (Except ParseFault (Fin 4)) :=
  (s.chosen.filter (fun choice => choice.1 = nem)).map Prod.snd

/--
For a packet the lists that were configured last can be read, and they hold its priority where
those of its own radio model do.
-/
def Undisturbed (s : Nems ι) : Event ι → Prop
  | .configure _ _ _ => True
  | .downstream nem priority =>
    (∀ entry ∈ s.singleton.toList, readable priority entry.2 = true)
      ∧ ∀ queue, s.singleton.heldBy priority queue = (s.queueMapping nem).heldBy priority queue

instance instDecidableUndisturbed (s : Nems ι) (event : Event ι) : Decidable (s.Undisturbed event) :=
  match event with
  | .configure _ _ _ => inferInstanceAs (Decidable True)
  | .downstream _ _ => inferInstanceAs (Decidable (_ ∧ _))

theorem step_other (hstep : s.step event = some s') (hne : event.nem ≠ nem)
    : s'.queueMapping nem = s.queueMapping nem ∧ chosenBy nem s' = chosenBy nem s := by
  cases event with
  | configure nem' update accepted =>
    simp only [step, configure, Option.bind_eq_bind, Option.bind_eq_some_iff] at hstep
    obtain ⟨queueMapping, -, haccepted⟩ := hstep
    split at haccepted
    . cases haccepted
      exact ⟨Function.update_of_ne (Ne.symm hne) _ _, rfl⟩
    . cases haccepted
  | downstream nem' priority =>
    cases hstep
    refine ⟨rfl, ?_⟩
    have hne : nem' ≠ nem := hne
    simp [chosenBy, processDownstreamPacket, hne]

theorem step_own (hstep : s.step event = some s') (hok : s.Undisturbed event)
    : (s'.queueMapping event.nem, chosenBy event.nem s') = ownStep
        (s.queueMapping event.nem, chosenBy event.nem s) event := by
  cases event with
  | configure nem update accepted =>
    simp only [step, configure, Option.bind_eq_bind, Option.bind_eq_some_iff] at hstep
    obtain ⟨queueMapping, hupdate, haccepted⟩ := hstep
    split at haccepted
    . cases haccepted
      simp [ownStep, Event.nem, hupdate, chosenBy]
    . cases haccepted
  | downstream nem priority =>
    cases hstep
    obtain ⟨hreadable, hheld⟩ := hok
    have hqueue : s.singleton.priorityToQueue priority = .ok ((s.queueMapping nem).queueOf priority) := by
      rw [priorityToQueue_eq_ok_iff]
      exact ⟨hreadable, (queueOf_serves _ _).unique (queueOf_serves _ _) (fun q => (hheld q).symm)⟩
    simp [ownStep, Event.nem, chosenBy, processDownstreamPacket, hqueue]

theorem run_own {es : List (Event ι)} (hok : Guarded step Undisturbed s es)
    (hrun : run step s es = some s') (nem : ι)
    : (s'.queueMapping nem, chosenBy nem s')
        =
      (es.filter (fun event => event.nem = nem)).foldl ownStep (s.queueMapping nem, chosenBy nem s) := by
  induction es generalizing s with
  | nil =>
    cases hrun
    rfl
  | cons event es ih =>
    rw [run_cons, Option.bind_eq_some_iff] at hrun
    obtain ⟨s₁, hstep, hrun⟩ := hrun
    rw [ih (hok.2 s₁ hstep) hrun]
    by_cases heq : event.nem = nem
    . subst heq
      rw [List.filter_cons_of_pos (by simp), List.foldl_cons, step_own hstep hok.1]
    . obtain ⟨hmapping, hchosen⟩ := step_other hstep heq
      rw [List.filter_cons_of_neg (by simpa using heq), hmapping, hchosen]

/--
In every run in which each packet finds lists that can be read and that hold its priority where
those of its own radio model do, what a radio model chooses depends on its own events alone.
-/
theorem queues_isolated {es : List (Event ι)} (hok : Guarded step Undisturbed init es)
    (hrun : run step init es = some s')
    : (∀ nem, chosenBy nem s' = ((es.filter (fun event => event.nem = nem)).foldl ownStep (.empty, [])).2)
        ∧ (∀ (queueMapping : QueueTexts) priority, Serves queueMapping priority
          (queueMapping.queueOf priority))
        ∧ ∀ (items : Fin 4 → List DscpItem) priority, (∀ queue, ∀ item ∈ items queue, item.Fits) →
        (QueueTexts.ofItems items).priorityToQueue priority = .ok
          ((QueueTexts.ofItems items).queueOf priority)
          ∧ ∀ queue, (QueueTexts.ofItems items).heldBy priority queue
          = (items queue).any (fun item => item.bounds.1 ≤ priority && priority ≤ item.bounds.2) := by
  refine ⟨?_, queueOf_serves, ?_⟩
  . intro nem
    exact congrArg Prod.snd (run_own hok hrun nem)
  . intro items priority hfits
    constructor
    . rw [priorityToQueue_eq_ok_iff]
      refine ⟨?_, rfl⟩
      intro entry hentry
      rw [QueueTexts.toList_ofItems, List.mem_map] at hentry
      obtain ⟨queue, _, rfl⟩ := hentry
      exact (DscpItem.read_textOf (hfits queue) priority).1
    . intro queue
      have hmem : (queue, DscpItem.textOf (items queue)) ∈ (QueueTexts.ofItems items).toList := by
        rw [QueueTexts.toList_ofItems, List.mem_map]
        exact ⟨queue, List.mem_finRange queue, rfl⟩
      rw [heldBy_of_mem hmem]
      exact (DscpItem.read_textOf (hfits queue) priority).2

def registeredItems (queue : Fin 4) : List DscpItem :=
  [[.range 0 7, .range 24 31], [.range 8 23], [.range 32 47], [.range 48 63]].getD queue.val []

def updateOf (items : Fin 4 → List DscpItem) : List ConfigItem :=
  (List.finRange 4).map (fun queue => .dscpqueue queue (DscpItem.textOf (items queue)))

def sameLists : List (Event Nat) :=
  [.configure 1 (updateOf registeredItems) true, .configure 2 (updateOf registeredItems) true,
    .downstream 1 8, .downstream 2 8]

theorem queues_isolated_same_lists
    : ∃ s', run step init sameLists = some s'
        ∧ chosenBy 1 s' = ((sameLists.filter (fun event => event.nem = 1)).foldl ownStep (.empty, [])).2
        ∧ chosenBy 1 s' = [.ok 1] := by
  have hdefined : (run step init sameLists).isSome = true := by decide +kernel
  obtain ⟨s', hrun⟩ := Option.isSome_iff_exists.mp hdefined
  have hisolated := (queues_isolated (by decide +kernel) hrun).1 1
  refine ⟨s', hrun, hisolated, ?_⟩
  rw [hisolated]
  decide +kernel

theorem queues_not_isolated
    : (run step init [.configure 1 (updateOf registeredItems) true,
          .configure 2 (updateOf (fun queue => registeredItems queue.rev)) true,
            .downstream 1 8]).map (chosenBy 1)
        = some [.ok 2]
      ∧ ([Event.configure 1 (updateOf registeredItems) true, .downstream 1 8].foldl ownStep
        (.empty, [])).2 = [.ok 1]
      ∧ (run step init [.configure 1 [.dscpqueue 0 ['x']] true, .downstream 1 8]).map (chosenBy 1)
        = some [.error .invalidArgument] := by
  decide +kernel

end

end Nems
end Tdma
end Emane

import Mathlib.Data.List.Flatten
import Emane.Eel.Impl.Generator
import Emane.Eel.Lemmas.BadQuote
import Emane.Lib.LastWrite
import Emane.Lib.SortedFold

/-!
This module contains the playback of emulation event logs: what a receiver of the published events
holds after each of the times is what the last sentences up to that time say.
-/

namespace Emane
namespace Eel

abbrev PathlossTable (δ : Type) :=
  Store (Nat × Nat) (δ × δ)

variable {δ : Type}

def Pathloss.values (p : Pathloss δ) : δ × δ :=
  (p.forwardPathloss, p.reversePathloss)

def PathlossEvent.writes (event : PathlossEvent δ) : List ((Nat × Nat) × (δ × δ)) :=
  event.pathlosses.map (fun p => ((event.nemId, p.nemId), p.values))

def Parameters.writes (srcNEM : Nat) (p : Parameters δ) : List ((Nat × Nat) × (δ × δ)) :=
  [((p.dstNEM, srcNEM), (p.forwardPathloss, p.reversePathloss)),
    ((srcNEM, p.dstNEM), (p.reversePathloss, p.forwardPathloss))]

namespace PathlossEntryCache

def entry (cache : PathlossEntryCache δ) (k : Nat × Nat) : Option (Pathloss δ) :=
  (cache.find? k.1).bind (fun entryMap => entryMap.find? k.2)

def table (cache : PathlossEntryCache δ) : PathlossTable δ :=
  fun k => (cache.entry k).map Pathloss.values

def Keyed (cache : PathlossEntryCache δ) : Prop :=
  ∀ k p, cache.entry k = some p → p.nemId = k.2

theorem entry_insertEntry (nemId : Nat) (p : Pathloss δ) (cache : PathlossEntryCache δ) (k : Nat × Nat)
    : (cache.insertEntry nemId p).entry k = if k = (nemId, p.nemId) then some p else cache.entry k := by
  have hk : k = (nemId, p.nemId) ↔ k.1 = nemId ∧ k.2 = p.nemId := Prod.ext_iff
  unfold insertEntry entry
  cases hfind : cache.find? nemId with
  | none =>
    rw [SortedMap.find?_set, if_congr hk rfl rfl]
    by_cases hk1 : k.1 = nemId
    . rw [if_pos hk1, hk1, hfind, Option.bind_some, SortedMap.find?_set]
      simp
    . rw [if_neg hk1, if_neg (fun h => hk1 h.1)]
  | some entryMap =>
    rw [SortedMap.find?_set, if_congr hk rfl rfl]
    by_cases hk1 : k.1 = nemId
    . rw [if_pos hk1, hk1, hfind, Option.bind_some, SortedMap.find?_set, Option.bind_some]
      simp
    . rw [if_neg hk1, if_neg (fun h => hk1 h.1)]

theorem table_insertEntry (nemId : Nat) (p : Pathloss δ) (cache : PathlossEntryCache δ)
    : (cache.insertEntry nemId p).table
        = (Store.lastWrite [((nemId, p.nemId), p.values)]).upon cache.table := by
  funext k
  unfold table Store.upon
  rw [entry_insertEntry, Store.lastWrite_singleton, Function.update_apply]
  split
  . rfl
  . rfl

theorem Keyed.insertEntry {cache : PathlossEntryCache δ} (h : cache.Keyed) (nemId : Nat)
    (p : Pathloss δ) : (cache.insertEntry nemId p).Keyed := by
  intro k p' hp'
  rw [entry_insertEntry] at hp'
  split at hp'
  . next hk => rw [hk, ← Option.some.inj hp']
  . exact h k p' hp'

theorem table_loadPathlossCache (srcNEM : Nat) (p : Parameters δ) (cache : PathlossEntryCache δ)
    : (cache.loadPathlossCache p.dstNEM srcNEM p.forwardPathloss p.reversePathloss).table
        = (Store.lastWrite (p.writes srcNEM)).upon cache.table := by
  unfold loadPathlossCache Parameters.writes
  rw [table_insertEntry, table_insertEntry, ← Store.upon_assoc, ← Store.lastWrite_append]
  rfl

theorem entry_eq_some_iff (cache : PathlossEntryCache δ) (k : Nat × Nat) (p : Pathloss δ)
    : cache.entry k = some p ↔ ∃ e ∈ cache.toList, ∃ e' ∈ e.2.toList, (e.1, e'.1) = k ∧ e'.2 = p := by
  unfold entry
  rw [Option.bind_eq_some_iff]
  constructor
  . rintro ⟨entryMap, hfind, hp⟩
    exact ⟨(k.1, entryMap), SortedMap.mem_toList_of_find? hfind, (k.2, p),
      SortedMap.mem_toList_of_find? hp, rfl, rfl⟩
  . rintro ⟨e, he, e', he', rfl, rfl⟩
    exact ⟨e.2, SortedMap.find?_of_mem he, SortedMap.find?_of_mem he'⟩

end PathlossEntryCache

namespace LoaderPathloss

variable {loader : LoaderPathloss δ} {mode : EventPublishMode}

theorem mem_events_iff {w : (Nat × Nat) × (δ × δ)}
    : w ∈ (loader.getEvents mode).1.flatMap PathlossEvent.writes
        ↔ ∃ e ∈ (loader.cache mode).toList, ∃ e' ∈ e.2.toList, ((e.1, e'.2.nemId), e'.2.values) = w := by
  unfold getEvents PathlossEvent.writes
  simp only [List.mem_flatMap, List.mem_filter, List.mem_map]
  constructor
  . rintro ⟨event, ⟨⟨e, he, rfl⟩, _⟩, p, hp, hw⟩
    obtain ⟨e', he', rfl⟩ := List.mem_map.mp hp
    exact ⟨e, he, e', he', hw⟩
  . rintro ⟨e, he, e', he', hw⟩
    refine ⟨_, ⟨⟨e, he, rfl⟩, ?_⟩, e'.2, List.mem_map.mpr ⟨e', he', rfl⟩, hw⟩
    simpa using List.ne_nil_of_mem he'

theorem lastWrite_events (h : (loader.cache mode).Keyed)
    : Store.lastWrite ((loader.getEvents mode).1.flatMap PathlossEvent.writes)
        = (loader.cache mode).table := by
  apply Store.lastWrite_eq
  intro k v
  unfold PathlossEntryCache.table
  simp only [mem_events_iff, Option.map_eq_some_iff, PathlossEntryCache.entry_eq_some_iff]
  constructor
  . rintro ⟨e, he, e', he', hw⟩
    have hkey := h (e.1, e'.1) e'.2
      ((PathlossEntryCache.entry_eq_some_iff _ _ _).mpr ⟨e, he, e', he', rfl, rfl⟩)
    rw [hkey] at hw
    exact ⟨e'.2, ⟨e, he, e', he', congrArg Prod.fst hw, rfl⟩, congrArg Prod.snd hw⟩
  . rintro ⟨p, ⟨e, he, e', he', rfl, rfl⟩, rfl⟩
    have hkey := h (e.1, e'.1) e'.2
      ((PathlossEntryCache.entry_eq_some_iff _ _ _).mpr ⟨e, he, e', he', rfl, rfl⟩)
    exact ⟨e, he, e', he', by rw [hkey]⟩

structure Holds (loader : LoaderPathloss δ) (written fresh : PathlossTable δ) : Prop where
  keyed : ∀ mode, (loader.cache mode).Keyed
  full : loader.pathlossEntryCache.table = written
  delta : loader.pathlossDeltaEntryCache.table = fresh

def published (mode : EventPublishMode) (written fresh : PathlossTable δ) : PathlossTable δ :=
  match mode with
  | .delta => fresh
  | .full => written

variable {written fresh : PathlossTable δ}

theorem Holds.store (h : loader.Holds written fresh) (srcNEM : Nat) (p : Parameters δ)
    : (store srcNEM loader p).Holds ((Store.lastWrite (p.writes srcNEM)).upon written)
        ((Store.lastWrite (p.writes srcNEM)).upon fresh) where
  keyed := by
    intro mode
    cases mode with
    | delta => exact ((h.keyed .delta).insertEntry _ _).insertEntry _ _
    | full => exact ((h.keyed .full).insertEntry _ _).insertEntry _ _
  full := by
    rw [← h.full]
    exact PathlossEntryCache.table_loadPathlossCache srcNEM p loader.pathlossEntryCache
  delta := by
    rw [← h.delta]
    exact PathlossEntryCache.table_loadPathlossCache srcNEM p loader.pathlossDeltaEntryCache

theorem Holds.getEvents (h : loader.Holds written fresh)
    : Store.lastWrite ((loader.getEvents mode).1.flatMap PathlossEvent.writes)
        = published mode written fresh
      ∧ (loader.getEvents mode).2.Holds written .empty := by
  constructor
  . rw [lastWrite_events (h.keyed mode)]
    cases mode with
    | delta => exact h.delta
    | full => exact h.full
  . constructor
    . intro mode'
      cases mode' with
      | delta =>
        intro k p hp
        cases hp
      | full => exact h.keyed .full
    . exact h.full
    . rfl

variable (f : ParameterConvert.Floating δ)

def argumentWrites (moduleId : Nat) (arg : Text) : List ((Nat × Nat) × (δ × δ)) :=
  ((parameters f arg).toOption.map (Parameters.writes moduleId)).getD []

theorem Holds.load (h : loader.Holds written fresh) (moduleId : Nat) (args : List Text)
    (hargs : ∀ arg ∈ args, ∃ p, parameters f arg = .ok p)
    : ∃ loader', args.foldlM (fun loader arg => (parameters f arg).map
        (LoaderPathloss.store moduleId loader)) loader = .ok loader'
        ∧ loader'.Holds ((Store.lastWrite (args.flatMap (argumentWrites f moduleId))).upon written)
            ((Store.lastWrite (args.flatMap (argumentWrites f moduleId))).upon fresh) := by
  induction args generalizing loader written fresh with
  | nil => exact ⟨loader, rfl, h⟩
  | cons arg args ih =>
    obtain ⟨p, hp⟩ := hargs arg List.mem_cons_self
    have hwrites : argumentWrites f moduleId arg = p.writes moduleId := by
      unfold argumentWrites
      rw [hp]
      rfl
    obtain ⟨loader', hloader', hholds⟩ := ih (h.store moduleId p)
      (fun arg' harg' => hargs arg' (List.mem_cons_of_mem _ harg'))
    refine ⟨loader', ?_, ?_⟩
    . rw [List.foldlM_cons, hp]
      exact hloader'
    . rw [List.flatMap_cons, hwrites, Store.lastWrite_append, Store.upon_assoc, Store.upon_assoc]
      exact hholds

theorem foldl_getEvents_again (eventTypes : List Text) (acc : List (PathlossEvent δ) × LoaderPathloss δ)
    (hacc : Store.lastWrite (acc.1.flatMap PathlossEvent.writes) = published mode written fresh)
    (h : acc.2.Holds written .empty)
    {r : List (PathlossEvent δ) × LoaderPathloss δ}
    (hr : eventTypes.foldl
      (fun acc _ => (acc.1 ++ (acc.2.getEvents mode).1, (acc.2.getEvents mode).2)) acc = r)
    : Store.lastWrite (r.1.flatMap PathlossEvent.writes) = published mode written fresh
        ∧ r.2.Holds written .empty := by
  induction eventTypes generalizing acc with
  | nil => exact hr ▸ ⟨hacc, h⟩
  | cons eventType eventTypes ih =>
    obtain ⟨hagain, hholds⟩ : Store.lastWrite
      ((acc.2.getEvents mode).1.flatMap PathlossEvent.writes) = published mode written .empty
        ∧ (acc.2.getEvents mode).2.Holds written .empty := h.getEvents
    refine ih (acc.1 ++ (acc.2.getEvents mode).1, (acc.2.getEvents mode).2) ?_ hholds hr
    rw [List.flatMap_append, Store.lastWrite_append, hagain, hacc]
    cases mode with
    | delta => exact Store.empty_upon _
    | full => exact Store.upon_self _

theorem Holds.foldl_getEvents (h : loader.Holds written fresh) {eventTypes : List Text}
    (hne : eventTypes ≠ [])
    {r : List (PathlossEvent δ) × LoaderPathloss δ}
    (hr : eventTypes.foldl
      (fun acc _ => (acc.1 ++ (acc.2.getEvents mode).1, (acc.2.getEvents mode).2)) ([], loader) = r)
    : Store.lastWrite (r.1.flatMap PathlossEvent.writes) = published mode written fresh
        ∧ r.2.Holds written .empty := by
  cases eventTypes with
  | nil => exact absurd rfl hne
  | cons eventType eventTypes =>
    obtain ⟨hevents, hholds⟩ : Store.lastWrite
      ((loader.getEvents mode).1.flatMap PathlossEvent.writes) = published mode written fresh
        ∧ (loader.getEvents mode).2.Holds written .empty := h.getEvents
    exact foldl_getEvents_again eventTypes
      ([] ++ (loader.getEvents mode).1, (loader.getEvents mode).2) hevents hholds hr

theorem foldl_getEvents_empty (eventTypes : List Text)
    : eventTypes.foldl (fun acc _ => (acc.1 ++ (acc.2.getEvents mode).1, (acc.2.getEvents mode).2))
        (([], ⟨.empty, .empty⟩) : List (PathlossEvent δ) × LoaderPathloss δ)
            = ([], ⟨.empty, .empty⟩) := by
  induction eventTypes with
  | nil => rfl
  | cons eventType eventTypes ih =>
    cases mode with
    | delta => exact ih
    | full => exact ih

end LoaderPathloss

section

variable (f : ParameterConvert.Floating δ) (eventTypes : List Text)

def Outputs.isPathloss (moduleType : Text) (s : Outputs δ) : Bool :=
  eventTypes.contains s.eventType && moduleType = ['n', 'e', 'm']

def Outputs.writes (s : Outputs δ) : List ((Nat × Nat) × (δ × δ)) :=
  match Generator.toModule s.moduleId with
  | .ok (moduleType, moduleId) =>
    if s.isPathloss eventTypes moduleType
      then s.inputArguments.flatMap (LoaderPathloss.argumentWrites f moduleId) else []
  | .error _ => []

def Outputs.accepted (s : Outputs δ) : Bool :=
  match Generator.toModule s.moduleId with
  | .ok (moduleType, _) =>
    !s.isPathloss eventTypes moduleType
      || !s.inputArguments.isEmpty && s.inputArguments.all
        (fun arg => (LoaderPathloss.parameters f arg).toOption.isSome)
  | .error _ => false

def reference (sentences : List (Outputs δ)) : PathlossTable δ :=
  Store.lastWrite (sentences.flatMap (Outputs.writes f eventTypes))

theorem reference_ne_empty {sentences : List (Outputs δ)} {s : Outputs δ} (hs : s ∈ sentences)
    (hwrites : s.writes f eventTypes ≠ [])
    : reference f eventTypes sentences ≠ .empty := by
  apply Store.lastWrite_ne_empty
  intro hnil
  exact hwrites (List.flatMap_eq_nil_iff.mp hnil s hs)

end

theorem LoaderPathloss.Holds.sentence (f : ParameterConvert.Floating δ)
    (registration : Registration) {loader : LoaderPathloss δ}
    {written fresh : PathlossTable δ} (h : loader.Holds written fresh) {s : Outputs δ}
    (haccepted : s.accepted f registration.eventTypes = true)
    : ∃ moduleType moduleId loader', Generator.toModule s.moduleId = .ok (moduleType, moduleId)
        ∧ Generator.loadSentence f registration moduleType moduleId s loader = .ok loader'
        ∧ loader'.Holds ((Store.lastWrite (s.writes f registration.eventTypes)).upon written)
            ((Store.lastWrite (s.writes f registration.eventTypes)).upon fresh) := by
  unfold Outputs.accepted at haccepted
  unfold Outputs.writes Generator.loadSentence
  split at haccepted
  . next moduleType moduleId hmodule =>
    unfold Outputs.isPathloss at haccepted ⊢
    by_cases htype : registration.eventTypes.contains s.eventType = true
    . by_cases hnem : moduleType = ['n', 'e', 'm']
      . simp only [htype, hnem, decide_true, Bool.and_self, Bool.not_true, Bool.false_or,
          Bool.and_eq_true, Bool.not_eq_true',
          List.isEmpty_eq_false_iff, List.all_eq_true] at haccepted
        have hargs : ∀ arg ∈ s.inputArguments, ∃ p, LoaderPathloss.parameters f arg = .ok p := by
          intro arg harg
          have hsome := haccepted.2 arg harg
          cases hp : LoaderPathloss.parameters f arg with
          | ok p => exact ⟨p, rfl⟩
          | error e =>
            rw [hp] at hsome
            cases hsome
        obtain ⟨loader, hloader, hholds⟩ := h.load f moduleId s.inputArguments hargs
        refine ⟨moduleType, moduleId, loader, hmodule, ?_, ?_⟩
        . unfold LoaderPathloss.load
          rw [if_pos htype, if_pos hnem, if_neg haccepted.1]
          exact hloader
        . simp only [htype, hnem, decide_true, Bool.and_self, if_true]
          exact hholds
      . refine ⟨moduleType, moduleId, loader, hmodule, ?_, ?_⟩
        . unfold LoaderPathloss.load
          rw [if_pos htype, if_neg hnem]
        . simp only [hnem, decide_false, Bool.and_false, Bool.false_eq_true, if_false,
            Store.lastWrite_nil, Store.empty_upon]
          exact h
    . refine ⟨moduleType, moduleId, loader, hmodule, if_neg htype, ?_⟩
      simp only [htype, Bool.false_and, Bool.false_eq_true, if_false, Store.lastWrite_nil,
        Store.empty_upon]
      exact h
  . cases haccepted

def receiver (published : List (Publication δ)) : PathlossTable δ :=
  Store.empty.write ((published.flatMap Publication.events).flatMap PathlossEvent.writes)

theorem receiver_append (published published' : List (Publication δ))
    : receiver (published ++ published') = (receiver published).write
        ((published'.flatMap Publication.events).flatMap PathlossEvent.writes) := by
  unfold receiver
  rw [List.flatMap_append, List.flatMap_append, Store.write_append]

namespace Generator

def fileLines (file : Text) : List Text :=
  Text.split newline file

def fits (line : Text) : Bool :=
  line.length < 2048

def readLines (file : Text) : List Text :=
  (fileLines file).takeWhile fits

section

variable [Zero δ] (f : ParameterConvert.Floating δ)

def sentence (line : Text) : Option (Outputs δ) :=
  match InputParser.parse f (ParameterConvert.cString line) with
  | .ok (true, s) => some s
  | _ => none

def allSentences (files : List Text) : List (Outputs δ) :=
  files.flatMap (fun file => (fileLines file).filterMap (sentence f))

def readSentences (files : List Text) : List (Outputs δ) :=
  files.flatMap (fun file => (readLines file).filterMap (sentence f))

def Intact (file : Text) : Prop :=
  ∀ line ∈ (fileLines file).dropWhile fits, sentence f line = none

theorem allSentences_cons (file : Text) (files : List Text)
    : allSentences f (file :: files)
        = (readLines file).filterMap (sentence f) ++ ((fileLines file).dropWhile fits).filterMap
            (sentence f) ++ allSentences f files := by
  unfold allSentences readLines
  rw [List.flatMap_cons, ← List.filterMap_append, List.takeWhile_append_dropWhile]

theorem readSentences_sublist (files : List Text)
    : (readSentences f files).Sublist (allSentences f files) := by
  exact List.Sublist.flatMap_right files (fun file _ => (List.takeWhile_sublist _).filterMap _)

theorem readSentences_eq_iff (files : List Text)
    : readSentences f files = allSentences f files ↔ ∀ file ∈ files, Intact f file := by
  induction files with
  | nil => simp [readSentences, allSentences]
  | cons file files ih =>
    have hintact : Intact f file ↔ ((fileLines file).dropWhile fits).filterMap (sentence f) = [] :=
      List.filterMap_eq_nil_iff.symm
    rw [List.forall_mem_cons, ← ih, hintact, allSentences_cons]
    constructor
    . intro h
      have hlength := congrArg List.length h
      have hle := (readSentences_sublist f files).length_le
      have hcons : readSentences f (file :: files) = (readLines file).filterMap
        (sentence f) ++ readSentences f files := List.flatMap_cons
      rw [hcons] at h hlength
      simp only [List.length_append] at hlength
      have hnil : ((fileLines file).dropWhile fits).filterMap (sentence f) = [] :=
        List.eq_nil_of_length_eq_zero (by omega)
      rw [hnil, List.append_nil] at h
      exact ⟨hnil, List.append_cancel_left h⟩
    . rintro ⟨hnil, hrest⟩
      rw [hnil, List.append_nil, ← hrest]
      exact List.flatMap_cons

end

variable [LinearOrder δ] (f : ParameterConvert.Floating δ) (clock : Clock δ)
  (registration : Registration) {g : Generator δ}

def isDue (mode : EventPublishMode) (t : δ) (s : Outputs δ) : Bool :=
  match mode with
  | .delta => s.eventTime = t
  | .full => s.eventTime ≤ t

structure Inv (g : Generator δ) : Prop where
  holds : g.loader.Holds (reference f registration.eventTypes g.sentences)
    (reference f registration.eventTypes (g.sentences.filter (fun s => s.eventTime = g.fCurrentTime)))
  inStep : Store.InStep (reference f registration.eventTypes
    (g.sentences.filter (fun s => s.eventTime = g.fCurrentTime)))
    (reference f registration.eventTypes g.sentences) (receiver g.published)
  began : g.sentences = [] → g.loader = ⟨.empty, .empty⟩ ∧ g.published = []
  current : ∀ s ∈ g.sentences, s.eventTime ≤ g.fCurrentTime
  punctual : ∀ p ∈ g.published, p.time < g.fCurrentTime ∧ p.time ≤ p.now
  increasing : g.published.Pairwise (fun p p' => p.time < p'.time)
  alone : ∀ p ∈ g.published,
    receiver [p] = reference f registration.eventTypes
      (g.sentences.filter (isDue registration.mode p.time))
  complete : ∀ s ∈ g.sentences, s.eventTime < g.fCurrentTime → s.writes f registration.eventTypes ≠ [] →
    ∃ p ∈ g.published, p.time = s.eventTime
  past : ∀ t < g.fCurrentTime, receiver (g.published.filter (fun p => p.time ≤ t))
    = reference f registration.eventTypes (g.sentences.filter (fun s => s.eventTime ≤ t))

theorem init_inv [Zero δ] : Inv f registration (init : Generator δ) where
  holds := by
    refine ⟨fun mode k p hp => ?_, rfl, rfl⟩
    cases mode with
    | delta => cases hp
    | full => cases hp
  inStep := rfl
  began := fun _ => ⟨rfl, rfl⟩
  current := fun s hs => by cases hs
  punctual := fun p hp => by cases hp
  increasing := List.Pairwise.nil
  alone := fun p hp => by cases hp
  complete := fun s hs => by cases hs
  past := fun _ _ => rfl

structure Settled (g g' : Generator δ) : Prop where
  sentences : g'.sentences = g.sentences
  holds : g'.loader.Holds (reference f registration.eventTypes g.sentences) .empty
  receives : receiver g'.published = reference f registration.eventTypes g.sentences
  began : g.sentences = [] → g'.loader = ⟨.empty, .empty⟩ ∧ g'.published = []
  punctual : ∀ p ∈ g'.published, p.time ≤ g.fCurrentTime ∧ p.time ≤ p.now
  increasing : g'.published.Pairwise (fun p p' => p.time < p'.time)
  alone : ∀ p ∈ g'.published,
    receiver [p] = reference f registration.eventTypes
      (g.sentences.filter (isDue registration.mode p.time))
  complete : ∀ s ∈ g.sentences, s.writes f registration.eventTypes ≠ [] → ∃ p ∈ g'.published,
    p.time = s.eventTime
  past : ∀ t, receiver (g'.published.filter (fun p => p.time ≤ t))
    = reference f registration.eventTypes (g.sentences.filter (fun s => s.eventTime ≤ t))

theorem Inv.filter_isDue (h : Inv f registration g)
    : LoaderPathloss.published registration.mode (reference f registration.eventTypes g.sentences)
          (reference f registration.eventTypes
            (g.sentences.filter (fun s => s.eventTime = g.fCurrentTime)))
        = reference f registration.eventTypes
            (g.sentences.filter (isDue registration.mode g.fCurrentTime)) := by
  unfold LoaderPathloss.published isDue
  split
  . rfl
  . rw [List.filter_eq_self.mpr (fun s hs => by simpa using h.current s hs)]

theorem Inv.published_ne_empty (h : Inv f registration g) {s : Outputs δ} (hs : s ∈ g.sentences)
    (htime : s.eventTime = g.fCurrentTime) (hwrites : s.writes f registration.eventTypes ≠ [])
    : LoaderPathloss.published registration.mode (reference f registration.eventTypes g.sentences)
        (reference f registration.eventTypes
            (g.sentences.filter (fun s => s.eventTime = g.fCurrentTime))) ≠ .empty := by
  rw [h.filter_isDue f registration]
  refine reference_ne_empty f registration.eventTypes (List.mem_filter.mpr ⟨hs, ?_⟩) hwrites
  unfold isDue
  split
  . simpa using htime
  . simpa using le_of_eq htime

theorem Inv.past_of_receives (h : Inv f registration g) {published : List (Publication δ)}
    (htime : ∀ p ∈ published, p.time = g.fCurrentTime)
    (hreceives : receiver (g.published ++ published)
      = reference f registration.eventTypes g.sentences) (t : δ)
    : receiver ((g.published ++ published).filter (fun p => p.time ≤ t))
      = reference f registration.eventTypes (g.sentences.filter (fun s => s.eventTime ≤ t)) := by
  by_cases ht : t < g.fCurrentTime
  . have hnil : published.filter (fun p => p.time ≤ t) = [] := by
      apply List.filter_eq_nil_iff.mpr
      intro p hp
      rw [htime p hp]
      simpa using ht
    rw [List.filter_append, hnil, List.append_nil]
    exact h.past t ht
  . have hle := not_lt.mp ht
    rw [List.filter_eq_self.mpr, List.filter_eq_self.mpr, hreceives]
    . intro s hs
      simpa using le_trans (h.current s hs) hle
    . intro p hp
      rcases List.mem_append.mp hp with hp | hp
      . simpa using le_trans (le_of_lt (h.punctual p hp).1) hle
      . rw [htime p hp]
        simpa using hle

theorem waitAndSendEvents_cases (g : Generator δ)
    : (g.currentTimeEventList registration).1 = [] ∧ g.waitAndSendEvents clock registration
        = { g with loader := (g.currentTimeEventList registration).2 }
      ∨ (g.currentTimeEventList registration).1 ≠ [] ∧ ∃ p, p.time = g.fCurrentTime ∧ p.time ≤ p.now
        ∧ p.events = (g.currentTimeEventList registration).1
          ∧ g.waitAndSendEvents clock registration
              = { g with loader := (g.currentTimeEventList registration).2, published :=
                  g.published ++ [p] } := by
  by_cases hnil : (g.currentTimeEventList registration).1 = []
  . exact Or.inl ⟨hnil, if_pos hnil⟩
  . exact Or.inr
      ⟨hnil, ⟨g.fCurrentTime, clock.waitUntil g.published.length g.fCurrentTime,
      (g.currentTimeEventList registration).1⟩, rfl,
      clock.le_waitUntil _ _, rfl, if_neg hnil⟩

theorem Inv.settled (h : Inv f registration g)
    : Settled f registration g (g.waitAndSendEvents clock registration) := by
  obtain ⟨hevents, hholds⟩ := h.holds.foldl_getEvents registration.eventTypes_ne_nil
    (Eq.refl (g.currentTimeEventList registration))
  have hover : (receiver g.published).write
    ((g.currentTimeEventList registration).1.flatMap PathlossEvent.writes)
      = reference f registration.eventTypes g.sentences := by
    rw [Store.write_eq, hevents]
    unfold LoaderPathloss.published
    split
    . exact h.inStep
    . exact h.inStep.written_upon
  have hbegan : g.sentences = []
      → g.currentTimeEventList registration = ([], ⟨.empty, .empty⟩) ∧ g.published = [] := by
    intro hnil
    obtain ⟨hloader, hpublished⟩ := h.began hnil
    unfold currentTimeEventList
    rw [hloader]
    exact ⟨LoaderPathloss.foldl_getEvents_empty _, hpublished⟩
  rcases waitAndSendEvents_cases clock registration g with ⟨hnil, heq⟩ | ⟨hne, p, htime, hnow, hp, heq⟩
  . rw [hnil] at hover
    rw [heq]
    constructor
    . rfl
    . exact hholds
    . exact hover
    . intro hsentences
      obtain ⟨hloaded, hpublished⟩ := hbegan hsentences
      exact ⟨congrArg Prod.snd hloaded, hpublished⟩
    . exact fun p hp => ⟨le_of_lt (h.punctual p hp).1, (h.punctual p hp).2⟩
    . exact h.increasing
    . exact h.alone
    . intro s hs hwrites
      rcases lt_or_eq_of_le (h.current s hs) with hlt | htime
      . exact h.complete s hs hlt hwrites
      . rw [hnil] at hevents
        exact absurd hevents.symm (h.published_ne_empty f registration hs htime hwrites)
    . intro t
      have hpast : receiver ((g.published ++ []).filter (fun p => p.time ≤ t))
          = reference f registration.eventTypes (g.sentences.filter (fun s => s.eventTime ≤ t)) :=
        h.past_of_receives f registration (fun p hp => by cases hp)
          (by rw [List.append_nil]; exact hover) t
      rwa [List.append_nil] at hpast
  . have hreceives : receiver (g.published ++ [p]) = reference f registration.eventTypes g.sentences := by
      rw [receiver_append, List.flatMap_singleton, hp]
      exact hover
    rw [heq]
    constructor
    . rfl
    . exact hholds
    . exact hreceives
    . exact fun hsentences => absurd (congrArg Prod.fst (hbegan hsentences).1) hne
    . intro p' hp'
      rcases List.mem_append.mp hp' with hp' | hp'
      . exact ⟨le_of_lt (h.punctual p' hp').1, (h.punctual p' hp').2⟩
      . rw [List.mem_singleton.mp hp']
        exact ⟨le_of_eq htime, hnow⟩
    . rw [List.pairwise_append]
      refine ⟨h.increasing, List.pairwise_singleton _ _, ?_⟩
      intro p' hp' p'' hp''
      rw [List.mem_singleton.mp hp'', htime]
      exact (h.punctual p' hp').1
    . intro p' hp'
      rcases List.mem_append.mp hp' with hp' | hp'
      . exact h.alone p' hp'
      . rw [List.mem_singleton.mp hp', htime, ← h.filter_isDue f registration, ← hevents, ← hp]
        unfold receiver
        rw [List.flatMap_singleton, Store.write_eq, Store.upon_empty]
    . intro s hs hwrites
      rcases lt_or_eq_of_le (h.current s hs) with hlt | heqtime
      . obtain ⟨p', hp', htime'⟩ := h.complete s hs hlt hwrites
        exact ⟨p', List.mem_append_left _ hp', htime'⟩
      . exact ⟨p, List.mem_append_right _ List.mem_cons_self, htime.trans heqtime.symm⟩
    . exact h.past_of_receives f registration
        (fun p' hp' => by rw [List.mem_singleton.mp hp', htime]) hreceives

theorem Inv.advance (h : Inv f registration g) {time : δ} (hle : g.sentences = [] ∨ g.fCurrentTime ≤ time)
    : Inv f registration (g.advance clock registration time)
        ∧ (g.advance clock registration time).fCurrentTime = time
      ∧ (g.advance clock registration time).sentences = g.sentences := by
  unfold Generator.advance
  split
  . next hne =>
    have hsettled := h.settled f clock registration
    have hnone : g.sentences.filter (fun s => s.eventTime = time) = [] := by
      apply List.filter_eq_nil_iff.mpr
      intro s hs
      rcases hle with hnil | hle
      . rw [hnil] at hs
        cases hs
      . have hlt := lt_of_le_of_lt (h.current s hs) (lt_of_le_of_ne hle (Ne.symm hne))
        simpa using ne_of_lt hlt
    refine ⟨?_, rfl, hsettled.sentences⟩
    have hempty : ((g.waitAndSendEvents clock registration).sentences.filter
        (fun s => s.eventTime = time)) = [] := by
      rw [hsettled.sentences]
      exact hnone
    constructor
    . rw [hempty, hsettled.sentences]
      exact hsettled.holds
    . rw [hempty, hsettled.sentences, hsettled.receives]
      exact Store.empty_upon _
    . exact fun hnil => hsettled.began (hsettled.sentences ▸ hnil)
    . intro s hs
      rw [hsettled.sentences] at hs
      rcases hle with hnil | hle
      . rw [hnil] at hs
        cases hs
      . exact le_trans (h.current s hs) hle
    . intro p hp
      rcases hle with hnil | hle
      . rw [(hsettled.began hnil).2] at hp
        cases hp
      . obtain ⟨htime, hnow⟩ := hsettled.punctual p hp
        exact ⟨lt_of_le_of_lt htime (lt_of_le_of_ne hle (Ne.symm hne)), hnow⟩
    . exact hsettled.increasing
    . rw [hsettled.sentences]
      exact hsettled.alone
    . rw [hsettled.sentences]
      exact fun s hs _ => hsettled.complete s hs
    . rw [hsettled.sentences]
      exact fun t _ => hsettled.past t
  . next heq => exact ⟨h, (not_not.mp heq).symm, rfl⟩

theorem Inv.push (h : Inv f registration g) {s : Outputs δ} (htime : s.eventTime = g.fCurrentTime)
    {loader : LoaderPathloss δ}
    (hholds : loader.Holds ((Store.lastWrite (s.writes f registration.eventTypes)).upon
      (reference f registration.eventTypes g.sentences))
      ((Store.lastWrite (s.writes f registration.eventTypes)).upon
        (reference f registration.eventTypes
          (g.sentences.filter (fun s => s.eventTime = g.fCurrentTime)))))
    : Inv f registration { g with loader := loader, sentences := g.sentences ++ [s] } := by
  have hsnoc : ∀ sentences, reference f registration.eventTypes (sentences ++ [s])
      = (Store.lastWrite (s.writes f registration.eventTypes)).upon
          (reference f registration.eventTypes sentences) := by
    intro sentences
    unfold reference
    rw [List.flatMap_append, List.flatMap_singleton, Store.lastWrite_append]
  have hdrop : ∀ q : Outputs δ → Bool, q s = false
      → (g.sentences ++ [s]).filter q = g.sentences.filter q := by
    intro q hq
    rw [List.filter_append, List.filter_cons_of_neg (by rw [hq]; exact Bool.false_ne_true),
      List.filter_nil, List.append_nil]
  have hkeep : (g.sentences ++ [s]).filter (fun s => s.eventTime = g.fCurrentTime)
      = g.sentences.filter (fun s => s.eventTime = g.fCurrentTime) ++ [s] := by
    rw [List.filter_append, List.filter_cons_of_pos (by simpa using htime), List.filter_nil]
  constructor
  . rw [hkeep, hsnoc, hsnoc]
    exact hholds
  . rw [hkeep, hsnoc, hsnoc]
    exact h.inStep.write _
  . exact fun hnil => absurd hnil (by simp)
  . intro s' hs'
    rcases List.mem_append.mp hs' with hs' | hs'
    . exact h.current s' hs'
    . rw [List.mem_singleton.mp hs', htime]
  . exact h.punctual
  . exact h.increasing
  . intro p hp
    rw [hdrop]
    . exact h.alone p hp
    . have hlt := (h.punctual p hp).1
      unfold isDue
      split
      . simpa [htime] using ne_of_gt hlt
      . simpa [htime] using hlt
  . intro s' hs' hlt
    rcases List.mem_append.mp hs' with hs' | hs'
    . exact h.complete s' hs' hlt
    . rw [List.mem_singleton.mp hs', htime] at hlt
      exact absurd hlt (lt_irrefl _)
  . intro t ht
    rw [hdrop]
    . exact h.past t ht
    . simpa [htime] using ht

theorem Inv.play (h : Inv f registration g) {s : Outputs δ}
    (haccepted : s.accepted f registration.eventTypes = true)
    (hle : g.sentences = [] ∨ g.fCurrentTime ≤ s.eventTime)
    : ∃ g', g.play f clock registration s = .ok g' ∧ Inv f registration g' ∧ g'.fCurrentTime = s.eventTime
        ∧ g'.sentences = g.sentences ++ [s] := by
  obtain ⟨hinv, htime, hsentences⟩ := h.advance f clock registration hle
  obtain ⟨moduleType, moduleId, loader, hmodule, hload, hholds⟩ :=
    hinv.holds.sentence f registration haccepted
  refine ⟨_, ?_, hinv.push f registration htime.symm hholds, htime, congrArg (· ++ [s]) hsentences⟩
  unfold Generator.play
  rw [hmodule]
  show (loadSentence f registration moduleType moduleId s
    (g.advance clock registration s.eventTime).loader >>= _) = _
  rw [hload]
  rfl

section

variable [Zero δ]

def acceptedLine (eventTypes : List Text) (line : Text) : Bool :=
  match InputParser.parse f (ParameterConvert.cString line) with
  | .ok (true, s) => s.accepted f eventTypes
  | .ok (false, _) => true
  | .error _ => false

theorem Inv.lines (h : Inv f registration g) (lines : List Text)
    (haccepted : ∀ line ∈ lines, acceptedLine f registration.eventTypes line = true)
    (hordered : (lines.filterMap (sentence f)).Pairwise (fun s s' => s.eventTime ≤ s'.eventTime))
    (hle : ∀ s ∈ lines.filterMap (sentence f), g.sentences = [] ∨ g.fCurrentTime ≤ s.eventTime)
    : ∃ g', lines.foldlM (fun g line => g.playLine f clock registration line) g = .ok g'
        ∧ Inv f registration g'
        ∧ g'.sentences = g.sentences ++ lines.filterMap (sentence f) := by
  induction lines generalizing g with
  | nil => exact ⟨g, rfl, h, (List.append_nil _).symm⟩
  | cons line lines ih =>
    have hline := haccepted line List.mem_cons_self
    have hlines := fun line' hline' => haccepted line' (List.mem_cons_of_mem _ hline')
    have hstep : ∃ g', g.playLine f clock registration line = .ok g' ∧ Inv f registration g'
        ∧ g'.sentences = g.sentences ++ (sentence f line).toList
        ∧ ∀ s ∈ lines.filterMap (sentence f), g'.sentences = [] ∨ g'.fCurrentTime ≤ s.eventTime := by
      unfold acceptedLine at hline
      split at hline
      . next s hparse =>
        have hsentence : sentence f line = some s := by
          unfold sentence
          rw [hparse]
        rw [List.filterMap_cons_some hsentence, List.pairwise_cons] at hordered
        obtain ⟨g', hplay, hinv, htime, hsentences⟩ :=
          h.play f clock registration hline
            (hle s (by rw [List.filterMap_cons_some hsentence]; exact List.mem_cons_self))
        refine ⟨g', ?_, hinv, ?_, ?_⟩
        . unfold playLine
          rw [hparse]
          exact hplay
        . rw [hsentence]
          exact hsentences
        . intro s' hs'
          rw [htime]
          exact Or.inr (hordered.1 s' hs')
      . next hparse =>
        have hsentence : sentence f line = none := by
          unfold sentence
          rw [hparse]
        rw [hsentence]
        refine ⟨g, ?_, h, (List.append_nil _).symm, ?_⟩
        . unfold playLine
          rw [hparse]
        . intro s' hs'
          exact hle s' (by rwa [List.filterMap_cons_none hsentence])
      . cases hline
    obtain ⟨g', hplay, hinv, hsentences, hle'⟩ := hstep
    have hordered' : (lines.filterMap (sentence f)).Pairwise (fun s s' => s.eventTime ≤ s'.eventTime) :=
      hordered.sublist ((List.sublist_cons_self line lines).filterMap _)
    obtain ⟨g'', hfold, hinv', hsentences'⟩ := ih hinv hlines hordered' hle'
    refine ⟨g'', ?_, hinv', ?_⟩
    . rw [List.foldlM_cons, hplay]
      exact hfold
    . rw [hsentences', hsentences, List.append_assoc]
      cases hsentence : sentence f line with
      | none => rw [List.filterMap_cons_none hsentence]; rfl
      | some s => rw [List.filterMap_cons_some hsentence]; rfl

theorem playFile_eq (fuel : Nat) (file : Text) (hfuel : file.length ≤ fuel) (g : Generator δ)
    : g.playFile f clock registration fuel file = (readLines file).foldlM
        (fun g line => g.playLine f clock registration line) g := by
  induction fuel generalizing file g with
  | zero =>
    rw [List.eq_nil_of_length_eq_zero (Nat.le_zero.mp hfuel)]
    rfl
  | succ fuel ih =>
    unfold playFile getline readLines fileLines
    by_cases hnil : file = []
    . rw [hnil]
      rfl
    . rw [Text.split_eq_cons hnil]
      by_cases hfits : (file.takeWhile (fun c => c ≠ newline)).length < 2048
      . have hlength : ((file.dropWhile (fun c => c ≠ newline)).tail).length ≤ fuel := by
          have hle := (List.dropWhile_sublist (fun c => decide (c ≠ newline)) (l := file)).length_le
          rw [List.length_tail]
          omega
        rw [if_pos ⟨hnil, hfits⟩, List.takeWhile_cons_of_pos (by simpa [fits] using hfits),
          List.foldlM_cons]
        exact congrArg _ (funext (fun g' => ih _ hlength g'))
      . rw [if_neg (fun h => hfits h.2), List.takeWhile_cons_of_neg (by simpa [fits] using hfits)]
        rfl

theorem foldlM_playFile (files : List Text) (g : Generator δ)
    : files.foldlM (fun g file => g.playFile f clock registration file.length file) g
        = (files.flatMap readLines).foldlM (fun g line => g.playLine f clock registration line) g := by
  induction files generalizing g with
  | nil => rfl
  | cons file files ih =>
    rw [List.foldlM_cons, List.flatMap_cons, List.foldlM_append,
      playFile_eq f clock registration _ _ le_rfl]
    exact congrArg _ (funext ih)

structure Script (files : List Text) : Prop where
  accepted : ∀ file ∈ files, ∀ line ∈ fileLines file, acceptedLine f registration.eventTypes line = true
  ordered : (allSentences f files).Pairwise (fun s s' => s.eventTime ≤ s'.eventTime)

theorem Script.generates {files : List Text} (h : Script f registration files)
    : ∃ g g', generate f clock registration files = .ok g' ∧ Settled f registration g g'
        ∧ g.sentences = readSentences f files := by
  have hread : (files.flatMap readLines).filterMap (sentence f) = readSentences f files :=
    List.filterMap_flatMap
  have haccepted : ∀ line ∈ files.flatMap readLines, acceptedLine f registration.eventTypes line
      = true := by
    intro line hline
    obtain ⟨file, hfile, hline⟩ := List.mem_flatMap.mp hline
    exact h.accepted file hfile line ((List.takeWhile_sublist _).subset hline)
  obtain ⟨g, hfold, hinv, hsentences⟩ := (init_inv f registration).lines f clock registration
    (files.flatMap readLines) haccepted
    (by rw [hread]; exact h.ordered.sublist (readSentences_sublist f files)) (fun _ _ => Or.inl rfl)
  refine ⟨g, g.waitAndSendEvents clock registration, ?_, hinv.settled f clock registration, ?_⟩
  . unfold generate
    rw [foldlM_playFile, hfold]
    rfl
  . rw [hsentences, hread]
    rfl

/--
What is published for a time does not depend on what has been published before: in delta mode it
is what the sentences of that time say, in full mode all that has been said up to then.
-/
theorem publications_alone {files : List Text} (h : Script f registration files)
    : ∃ g, generate f clock registration files = .ok g
      ∧ g.published.Pairwise (fun p p' => p.time < p'.time)
      ∧ (∀ p ∈ g.published,
          receiver [p] = reference f registration.eventTypes
            ((readSentences f files).filter (isDue registration.mode p.time)))
      ∧ ∀ s ∈ readSentences f files, s.writes f registration.eventTypes ≠ [] → ∃ p ∈ g.published,
          p.time = s.eventTime := by
  obtain ⟨g, g', hg', hsettled, hsentences⟩ := h.generates f clock
  rw [← hsentences]
  exact ⟨g', hg', hsettled.increasing, hsettled.alone, hsettled.complete⟩

/--
In both modes nothing is left out, nothing is published too early, and after the publications for
a time the receiver holds what the last sentences up to that time say.
-/
def Plays (files : List Text) : Prop :=
  ∀ mode, ∃ g, generate f clock { registration with mode := mode } files = .ok g
    ∧ g.sentences = allSentences f files
    ∧ (∀ p ∈ g.published, p.time ≤ p.now)
    ∧ ∀ t, receiver (g.published.filter (fun p => p.time ≤ t))
        = reference f registration.eventTypes ((allSentences f files).filter (fun s => s.eventTime ≤ t))

theorem Plays.read {files : List Text} (hplays : Plays f clock registration files)
    (h : Script f registration files)
    : readSentences f files = allSentences f files := by
  obtain ⟨g, hg, hsentences, _⟩ := hplays registration.mode
  obtain ⟨g', g'', hg'', hsettled, hread⟩ := h.generates f clock
  rw [hg''] at hg
  rw [← hread, ← hsettled.sentences, Except.ok.inj hg, hsentences]

theorem plays_iff {files : List Text} (h : Script f registration files)
    : Plays f clock registration files ↔ ∀ file ∈ files, Intact f file := by
  have hscript : ∀ mode, Script f { registration with mode := mode } files := fun mode =>
    ⟨h.accepted, h.ordered⟩
  rw [← readSentences_eq_iff]
  constructor
  . exact fun hplays => hplays.read f clock registration h
  . intro hread mode
    obtain ⟨g, g', hg', hsettled, hsentences⟩ := (hscript mode).generates f clock
    refine ⟨g', hg', ?_, fun p hp => (hsettled.punctual p hp).2, ?_⟩
    . rw [hsettled.sentences, hsentences, hread]
    . intro t
      rw [← hread, ← hsentences]
      exact hsettled.past t

end

def instantClock : Clock Nat where
  waitUntil := fun _ deadline => deadline
  le_waitUntil := fun _ _ => le_rfl

def pathlosses : Registration where
  eventTypes := [['p', 'a', 't', 'h', 'l', 'o', 's', 's']]
  mode := .delta
  eventTypes_ne_nil := by decide

def pathlossLine : Text :=
  ['1', ' ', 'n', 'e', 'm', ':', '1', ' ', 'p', 'a', 't', 'h', 'l', 'o', 's', 's', ' ', 'n', 'e',
    'm', ':', '2', ',', '9']

theorem script_pathlossLine : Script wholeNumbers pathlosses [pathlossLine] where
  accepted := by decide
  ordered := by decide

theorem plays_iff_pathlossLine : Script wholeNumbers pathlosses [pathlossLine]
    ∧ Plays wholeNumbers instantClock pathlosses [pathlossLine] := by
  exact ⟨script_pathlossLine,
    (plays_iff wholeNumbers instantClock pathlosses script_pathlossLine).mpr
    (by unfold Intact; decide)⟩

theorem publications_alone_pathlossLine
    : ∃ g, generate wholeNumbers instantClock pathlosses [pathlossLine] = .ok g
        ∧ ∃ p ∈ g.published, p.time = 1
            ∧ receiver [p] = reference wholeNumbers pathlosses.eventTypes
                (readSentences wholeNumbers [pathlossLine]) := by
  obtain ⟨g, hg, _, halone, hcomplete⟩ := publications_alone wholeNumbers instantClock pathlosses
    script_pathlossLine
  have hread : ∃ s ∈ readSentences wholeNumbers [pathlossLine],
      s.writes wholeNumbers pathlosses.eventTypes ≠ [] ∧ s.eventTime = 1 := by
    decide
  obtain ⟨s, hs, hwrites, htime⟩ := hread
  obtain ⟨p, hp, hptime⟩ := hcomplete s hs hwrites
  refine ⟨g, hg, p, hp, hptime.trans htime, ?_⟩
  have hdue : (readSentences wholeNumbers [pathlossLine]).filter (isDue pathlosses.mode 1)
      = readSentences wholeNumbers [pathlossLine] := by
    decide
  rw [halone p hp, hptime, htime, hdue]

def longComment : Text :=
  List.replicate 2048 '#' ++ newline :: pathlossLine

theorem fileLines_longComment : fileLines longComment = [List.replicate 2048 '#', pathlossLine] := by
  unfold fileLines longComment
  rw [Text.split_append (by rw [List.mem_replicate]; exact fun h => absurd h.2 (by decide)),
    Text.split_of_not_mem (by decide) (by decide)]

theorem parse_comment (comment : Text)
    : InputParser.parse wholeNumbers ('#' :: comment) = .ok (false, ⟨0, [], [], []⟩) := by
  rfl

theorem not_plays_longComment
    : Script wholeNumbers pathlosses [longComment]
        ∧ ¬Plays wholeNumbers instantClock pathlosses [longComment] := by
  have hcomment : InputParser.parse wholeNumbers
      (ParameterConvert.cString (List.replicate 2048 '#')) = .ok (false, ⟨0, [], [], []⟩) :=
    parse_comment _
  have hscript : Script wholeNumbers pathlosses [longComment] := by
    constructor
    . intro file hfile line hline
      rw [List.mem_singleton.mp hfile, fileLines_longComment] at hline
      rcases List.mem_cons.mp hline with hline | hline
      . rw [hline, acceptedLine, hcomment]
      . rw [List.mem_singleton.mp hline]
        decide
    . have hnone : sentence wholeNumbers (List.replicate 2048 '#') = none := by rw [sentence, hcomment]
      rw [allSentences, List.flatMap_singleton, fileLines_longComment, List.filterMap_cons_none hnone]
      decide
  refine ⟨hscript, fun hplays => ?_⟩
  have hintact := (readSentences_eq_iff wholeNumbers [longComment]).mp
    (hplays.read wholeNumbers instantClock pathlosses hscript)
    longComment List.mem_cons_self pathlossLine
  have hlong : fits (List.replicate 2048 '#') = false := decide_eq_false
    (by rw [List.length_replicate]; exact lt_irrefl _)
  rw [fileLines_longComment, List.dropWhile_cons_of_neg
    (by rw [hlong]; exact Bool.false_ne_true)] at hintact
  exact absurd (hintact (List.mem_cons_of_mem _ List.mem_cons_self)) (by decide)

end Generator

end Eel
end Emane

import Emane.Configuration.Lemmas.ConfigurationStore

/-!
This module contains what the store holds after any sequence of calls.
-/

namespace Emane

open ConfigurationUpdate (valuesOf)
open ConfigurationService (matchesPattern buildParameter checkParameter storedValues configuration)

variable {δ α : Type} {p : Platform δ α}

theorem ConfigurationInfo.Satisfied.withValues {info : ConfigurationInfo δ α}
    {values : List (Any δ α)} (h : info.Satisfied p values)
    (values' : List (Any δ α))
    : ({ info with values := values' } : ConfigurationInfo δ α).Satisfied p values := by
  exact ⟨h.occurs, h.type, h.range, h.pattern⟩

def Denotes (p : Platform δ α) (info : ConfigurationInfo δ α) (texts : List Text)
    (values : List (Any δ α)) : Prop :=
  List.Forall₂ (fun text value => Any.create p text info.type = .ok value) texts values

def AcceptedAlike (p : Platform δ α) (name : Text) (info : ConfigurationInfo δ α)
    (texts : List Text) (values : List (Any δ α)) : Prop :=
  (buildParameter p name info texts).isOk = true ↔ (checkParameter p name info values).isOk = true

namespace ConfigurationRun

def IsConfigured (r : ConfigurationRun δ α) (buildId : Nat) : Prop :=
  buildId ∈ r.written.map Prod.fst

instance IsConfigured.decidable (r : ConfigurationRun δ α) (buildId : Nat)
    : Decidable (r.IsConfigured buildId) :=
  inferInstanceAs (Decidable (buildId ∈ r.written.map Prod.fst))

/--
Parameters that have been set satisfy their registration, and the validators of a component that
has been configured accept the values that are in the store.
-/
structure Consistent (p : Platform δ α) (r : ConfigurationRun δ α) : Prop where
  satisfied : ∀ (buildId : Nat) (name : Text) (info : ConfigurationInfo δ α),
    r.service.find? buildId name = some info → (buildId, name) ∈ r.written → info.Satisfied p info.values
  validated : ∀ (buildId : Nat) (store : ConfigurationStore δ α),
    r.service.buildIdConfigurationStore.find? buildId = some store → r.IsConfigured buildId
      → ∀ validator ∈ r.service.validators buildId, (validator (configuration store)).2 = true

/--
A call that throws changes no parameter, an update of a running component only parameters that can
be modified, and values are accepted as the texts that say them are.
-/
structure Respected (p : Platform δ α) (r : ConfigurationRun δ α) (c : ConfigurationCall δ α) : Prop where
  unchanged : (r.call p c).1 ≠ none → ∀ (buildId : Nat) (name : Text),
    (r.call p c).2.service.find? buildId name = r.service.find? buildId name
  modified : ∀ (buildId : Nat) (updates : ConfigurationUpdate δ α) (throws : Bool),
    c = .update buildId updates throws
    → ∀ (buildId' : Nat) (name : Text) (info : ConfigurationInfo δ α),
      r.service.find? buildId' name = some info
      → (r.call p c).2.service.find? buildId' name ≠ some info
        → buildId' = buildId ∧ name ∈ updates.map Prod.fst ∧ info.isModifiable = true
  built : ∀ (buildId : Nat) (parameters : ConfigurationUpdateRequest),
    c = .buildUpdates buildId parameters
    → ∀ (name : Text) (texts : List Text) (info : ConfigurationInfo δ α) (values : List (Any δ α)),
      (name, texts) ∈ parameters
      → r.service.find? buildId name = some info → Denotes p info texts values
      → AcceptedAlike p name info texts values
  updated : ∀ (buildId : Nat) (updates : ConfigurationUpdate δ α) (throws : Bool),
    c = .update buildId updates throws
    → ∀ (name : Text) (info : ConfigurationInfo δ α) (values : List (Any δ α)), (name, values) ∈ updates
      → r.service.find? buildId name = some info → Denotes p info (values.map (Any.toString p)) values
        → AcceptedAlike p name info (values.map (Any.toString p)) values

/--
Parameters and validators are registered before the component is configured, defaults satisfy their
registration, a validator looks at the values of each name alone, and no component throws.
-/
def Regular (p : Platform δ α) (r : ConfigurationRun δ α) : ConfigurationCall δ α → Prop
  | .registerAny buildId _ info =>
    ¬ r.IsConfigured buildId ∧ (info.hasDefault = true ∨ info.values ≠ [] → info.Satisfied p info.values)
  | .registerRunningStateMutable _ => True
  | .registerValidator buildId validator => ¬ r.IsConfigured buildId
    ∧ ConfigurationValidator.Extensional validator
  | .buildUpdates buildId parameters =>
    (parameters.map Prod.fst).Nodup
      ∧ (∀ (name : Text) (texts : List Text) (info : ConfigurationInfo δ α), (name, texts) ∈ parameters
          → r.service.find? buildId name = some info → ∀ text ∈ texts, ∀ value : Any δ α,
            Any.create p text info.type = .ok value
            → matchesPattern p info text = matchesPattern p info (value.toString p))
      ∧ (∀ (name : Text) (info : ConfigurationInfo δ α), r.service.find? buildId name = some info
        → info.values ≠ []
          → info.isRequired = true ∨ info.hasDefault = true ∨ name ∈ parameters.map Prod.fst)
  | .update _ updates throws => (updates.map Prod.fst).Nodup ∧ throws = false

structure Inv (p : Platform δ α) (r : ConfigurationRun δ α) : Prop where
  satisfied : ∀ (buildId : Nat) (name : Text) (info : ConfigurationInfo δ α),
    r.service.find? buildId name = some info
    → info.hasDefault = true ∨ info.values ≠ [] ∨ (buildId, name) ∈ r.written
    → info.Satisfied p info.values
  validated : ∀ (buildId : Nat) (store : ConfigurationStore δ α),
    r.service.buildIdConfigurationStore.find? buildId = some store → r.IsConfigured buildId
      → ∀ validator ∈ r.service.validators buildId, (validator (configuration store)).2 = true
  extensional : ∀ (buildId : Nat), ∀ validator ∈ r.service.validators buildId,
    ConfigurationValidator.Extensional validator

theorem inv_create : Inv p (create : ConfigurationRun δ α) where
  satisfied _ _ _ h := by cases h
  validated _ _ h := by cases h
  extensional _ _ h := by cases h

end ConfigurationRun

namespace ConfigurationService

variable {info : ConfigurationInfo δ α} {name : Text}

theorem satisfied_of_build {texts : List Text} {values : List (Any δ α)}
    (h : buildParameter p name info texts = .ok values)
    (hpattern : ∀ text ∈ texts, ∀ value : Any δ α, Any.create p text info.type = .ok value
      → matchesPattern p info text = matchesPattern p info (value.toString p))
    : info.Satisfied p values := by
  rw [buildParameter_iff] at h
  obtain ⟨hoccurs, hvalues⟩ := h
  rw [hvalues.length_eq] at hoccurs
  have hall : ∀ value ∈ values, value.getType = info.type ∧ InRange p info value
      ∧ matchesPattern p info (value.toString p) = true := by
    intro value hvalue
    obtain ⟨i, hi, rfl⟩ := List.getElem_of_mem hvalue
    have hi' : i < texts.length := hvalues.length_eq ▸ hi
    have hbuild := List.Forall₂.get hvalues hi' hi
    rw [buildValue_iff] at hbuild
    obtain ⟨hcreate, hrange, hmatch⟩ := hbuild
    refine ⟨getType_of_create hcreate, hrange, ?_⟩
    exact (hpattern _ (List.get_mem texts ⟨i, hi'⟩) _ hcreate).symm.trans hmatch
  exact ⟨hoccurs, fun v hv => (hall v hv).1, fun v hv => (hall v hv).2.1, fun v hv => (hall v hv).2.2⟩

theorem acceptedAlike {texts : List Text} {values : List (Any δ α)}
    (hdenotes : Denotes p info texts values)
    (hpattern : ∀ text ∈ texts, ∀ value : Any δ α, Any.create p text info.type = .ok value
      → matchesPattern p info text = matchesPattern p info (value.toString p))
    : AcceptedAlike p name info texts values := by
  unfold AcceptedAlike
  rw [isOk_iff, isOk_iff]
  constructor
  . rintro ⟨values', hbuild⟩
    have hsame : values' = values := by
      rw [buildParameter_iff] at hbuild
      apply List.ext_getElem (hbuild.2.length_eq.symm.trans hdenotes.length_eq)
      intro i hi hi'
      have hi'' : i < texts.length := hdenotes.length_eq ▸ hi'
      have hvalue := buildValue_iff.mp (List.Forall₂.get hbuild.2 hi'' hi)
      have hcreate := List.Forall₂.get hdenotes hi'' hi'
      exact Except.ok.inj (hvalue.1.symm.trans hcreate)
    exact ⟨(), checkParameter_iff.mpr (hsame ▸ satisfied_of_build hbuild hpattern)⟩
  . rintro ⟨u, hcheck⟩
    have hsatisfied := checkParameter_iff.mp hcheck
    refine ⟨values, buildParameter_iff.mpr ⟨hdenotes.length_eq ▸ hsatisfied.occurs, ?_⟩⟩
    rw [List.forall₂_iff_get]
    refine ⟨hdenotes.length_eq, ?_⟩
    intro i hi hi'
    have hcreate := List.Forall₂.get hdenotes hi hi'
    have hmem := List.get_mem values ⟨i, hi'⟩
    rw [buildValue_iff]
    refine ⟨hcreate, hsatisfied.range _ hmem, ?_⟩
    exact (hpattern _ (List.get_mem texts ⟨i, hi⟩) _ hcreate).trans (hsatisfied.pattern _ hmem)

theorem values_of_forall₂ {parameters : ConfigurationUpdateRequest}
    {built : ConfigurationUpdate δ α} {store : ConfigurationStore δ α}
    (h : buildParameters p store parameters = .ok built)
    : built.map Prod.fst = parameters.map Prod.fst
        ∧ ∀ update ∈ built, ∃ texts info, (update.1, texts) ∈ parameters
        ∧ store.find? update.1 = some info
        ∧ buildParameter p update.1 info texts = .ok update.2 := by
  unfold buildParameters at h
  rw [mapM_eq_ok_iff] at h
  induction h with
  | nil => simp
  | @cons parameter update parameters built hfirst _ ih =>
    split at hfirst
    . next info hinfo =>
      cases hbuild : buildParameter p parameter.1 info parameter.2 with
      | error e =>
        rw [hbuild] at hfirst
        cases hfirst
      | ok values =>
        rw [hbuild] at hfirst
        cases hfirst
        obtain ⟨hnames, hrest⟩ := ih
        refine ⟨by simp [hnames], ?_⟩
        rw [List.forall_mem_cons]
        refine ⟨⟨parameter.2, info, List.mem_cons_self, hinfo, hbuild⟩, ?_⟩
        intro update hupdate
        obtain ⟨texts, info', hmem, hrest⟩ := hrest update hupdate
        exact ⟨texts, info', List.mem_cons_of_mem _ hmem, hrest⟩
    . cases hfirst

structure Writable (p : Platform δ α) (s : ConfigurationService δ α) (buildId : Nat)
    (store : ConfigurationStore δ α)
    (updates : ConfigurationUpdate δ α) : Prop where
  nodup : (updates.map Prod.fst).Nodup
  satisfied : ∀ name ∈ updates.map Prod.fst, ∃ info, store.find? name = some info
    ∧ info.Satisfied p (valuesOf updates name)
  validated : ∃ whole : ConfigurationUpdate δ α,
    (∀ name, valuesOf whole name = if name ∈ updates.map Prod.fst then valuesOf updates name
      else storedValues store name)
      ∧ ∀ validator ∈ s.validators buildId, (validator whole).2 = true

variable {updates : ConfigurationUpdate δ α} {u : Unit}

theorem validate_iff {validators : List (ConfigurationValidator δ α)}
    : validate validators updates = (.ok u : Except (ServiceException δ α) Unit)
        ↔ ∀ validator ∈ validators, (validator updates).2 = true := by
  unfold validate
  rw [forM_eq_ok_iff]
  constructor
  . intro h validator hvalidator
    have hok := h validator hvalidator
    split at hok
    . next htrue => exact htrue
    . cases hok
  . intro h validator hvalidator
    rw [if_pos (h validator hvalidator)]

variable {s : ConfigurationService δ α} {buildId : Nat} {store : ConfigurationStore δ α}

theorem find?_of_store (hstore : s.buildIdConfigurationStore.find? buildId = some store) (name : Text)
    : s.find? buildId name = store.find? name := by
  rw [find?, hstore, Option.bind_some]

theorem writable_of_buildUpdates {r : ConfigurationRun δ α} (hinv : r.Inv p)
    {parameters : ConfigurationUpdateRequest}
    (hregular : r.Regular p (.buildUpdates buildId parameters))
    (hstore : r.service.buildIdConfigurationStore.find? buildId = some store)
    {built : ConfigurationUpdate δ α} (hbuilt : buildParameters p store parameters = .ok built)
    (hmissing : store.toList.foldlM addMissing built = .ok updates)
    (hvalidate : validate (r.service.validators buildId) updates = .ok u)
    : Writable p r.service buildId store updates := by
  obtain ⟨hnodup, hpattern, hthere⟩ := hregular
  obtain ⟨hnames, hbuild⟩ := values_of_forall₂ hbuilt
  obtain ⟨hupdates, hrequired⟩ := foldlM_addMissing (nodup_keys store) hmissing
  rw [← hnames] at hnodup hthere
  rw [foldl_addUnless _ (nodup_keys store)] at hupdates
  have hadded : ∀ name, name ∉ built.map Prod.fst → ∀ info, store.find? name = some info
    → info.hasDefault = true
      → (name, info.values) ∈ updates := by
    intro name hname info hinfo hdefault
    rw [hupdates, List.mem_append]
    apply Or.inr
    rw [entryValues, List.mem_map]
    refine ⟨(name, info), ?_, rfl⟩
    rw [List.mem_filter, Bool.and_eq_true, Bool.not_eq_true', ← Bool.not_eq_true, any_eq_iff]
    exact ⟨(SortedMap.find?_eq_some_iff _ _ _).mp hinfo, hdefault, hname⟩
  have hof : ∀ name, name ∈ updates.map Prod.fst → name ∈ built.map Prod.fst
      ∨ (name ∉ built.map Prod.fst ∧ ∃ info, store.find? name = some info ∧ info.hasDefault = true) := by
    intro name hname
    rw [hupdates, List.map_append, List.mem_append, map_fst_entryValues] at hname
    cases hname with
    | inl hbuilt => exact .inl hbuilt
    | inr hadded =>
      rw [List.mem_map] at hadded
      obtain ⟨⟨name, info⟩, hentry, rfl⟩ := hadded
      rw [List.mem_filter, Bool.and_eq_true, Bool.not_eq_true', ← Bool.not_eq_true, any_eq_iff] at hentry
      exact .inr ⟨hentry.2.2, info, (SortedMap.find?_eq_some_iff _ _ _).mpr hentry.1, hentry.2.1⟩
  have hallnodup : (updates.map Prod.fst).Nodup := by
    rw [hupdates, List.map_append, map_fst_entryValues, List.nodup_append]
    refine ⟨hnodup, (nodup_keys store).sublist ((List.filter_sublist).map _), ?_⟩
    rintro name hname _ hadded rfl
    rw [List.mem_map] at hadded
    obtain ⟨entry, hentry, rfl⟩ := hadded
    rw [List.mem_filter, Bool.and_eq_true, Bool.not_eq_true', ← Bool.not_eq_true, any_eq_iff] at hentry
    exact hentry.2.2 hname
  refine ⟨hallnodup, ?_, updates, ?_, validate_iff.mp hvalidate⟩
  . intro name hname
    obtain hmem | ⟨hnot, info, hinfo, hdefault⟩ := hof name hname
    . have hsame : valuesOf updates name = valuesOf built name := by
        rw [hupdates, ConfigurationUpdate.valuesOf_append, if_pos hmem]
      rw [List.mem_map] at hmem
      obtain ⟨⟨name, values⟩, hupdate, rfl⟩ := hmem
      obtain ⟨texts, info, hparameter, hinfo, hparameterBuilt⟩ := hbuild _ hupdate
      rw [hsame, ConfigurationUpdate.mem_valuesOf hnodup hupdate]
      refine ⟨info, hinfo, satisfied_of_build hparameterBuilt ?_⟩
      exact hpattern name texts info hparameter ((find?_of_store hstore name).trans hinfo)
    . rw [ConfigurationUpdate.mem_valuesOf hallnodup (hadded name hnot info hinfo hdefault)]
      exact ⟨info, hinfo, hinv.satisfied buildId name info
        ((find?_of_store hstore name).trans hinfo) (.inl hdefault)⟩
  . intro name
    split
    . rfl
    . next hnot =>
      rw [ConfigurationUpdate.valuesOf_of_not_mem hnot, storedValues]
      cases hinfo : store.find? name with
      | none => rfl
      | some info =>
        rw [Option.map_some, Option.getD_some, eq_comm]
        -- a parameter with values would be among the updates
        by_contra hvalues
        have hbuiltNot : name ∉ built.map Prod.fst := by
          intro hmem
          apply hnot
          rw [hupdates, List.map_append, List.mem_append]
          exact .inl hmem
        obtain hreq | hdefault | hmem := hthere name info
          ((find?_of_store hstore name).trans hinfo) hvalues
        . exact hbuiltNot (hrequired (name, info) ((SortedMap.find?_eq_some_iff _ _ _).mp hinfo) hreq)
        . exact hnot (List.mem_map_of_mem (hadded name hbuiltNot info hinfo hdefault))
        . exact hbuiltNot hmem

theorem writable_of_accept (hnodup : (updates.map Prod.fst).Nodup)
    (h : s.accept p buildId store updates = .ok u)
    : Writable p s buildId store updates
        ∧ ∀ name ∈ updates.map Prod.fst, ∃ info, store.find? name = some info
        ∧ info.isModifiable = true := by
  unfold accept at h
  rw [bind_eq_ok_iff] at h
  obtain ⟨_, hcheck, h⟩ := h
  rw [bind_eq_ok_iff] at h
  obtain ⟨_, hvalidate, _⟩ := h
  unfold checkUpdates at hcheck
  rw [forM_eq_ok_iff] at hcheck
  have hall : ∀ update ∈ updates, ∃ info, store.find? update.1 = some info
      ∧ info.isModifiable = true ∧ info.Satisfied p update.2 := by
    intro update hupdate
    have hok := hcheck update hupdate
    split at hok
    . next info hinfo =>
      split at hok
      . cases hok
      . next hmodifiable => exact ⟨info, hinfo, by simpa using hmodifiable, checkParameter_iff.mp hok⟩
    . cases hok
  refine ⟨⟨hnodup, ?_, canidateUpdates store updates, fun _ => valuesOf_canidateUpdates,
    validate_iff.mp hvalidate⟩, ?_⟩
  . intro name hname
    rw [List.mem_map] at hname
    obtain ⟨⟨name, values⟩, hupdate, rfl⟩ := hname
    obtain ⟨info, hinfo, _, hsatisfied⟩ := hall _ hupdate
    rw [ConfigurationUpdate.mem_valuesOf hnodup hupdate]
    exact ⟨info, hinfo, hsatisfied⟩
  . intro name hname
    rw [List.mem_map] at hname
    obtain ⟨update, hupdate, rfl⟩ := hname
    obtain ⟨info, hinfo, hmodifiable, _⟩ := hall update hupdate
    exact ⟨info, hinfo, hmodifiable⟩

theorem find?_withStore (store' : ConfigurationStore δ α) (buildId' : Nat) (name : Text)
    : (s.withStore buildId store').find? buildId' name = if buildId' = buildId
        then store'.find? name else s.find? buildId' name := by
  unfold find? withStore
  simp only [SortedMap.find?_set]
  split
  . rfl
  . rfl

end ConfigurationService

namespace ConfigurationRun

open ConfigurationService

variable {r : ConfigurationRun δ α} {buildId : Nat} {store : ConfigurationStore δ α}
  {updates : ConfigurationUpdate δ α}

variable {s : ConfigurationService δ α} {name : Text}

theorem mem_write_iff {buildId' : Nat}
    : (buildId', name) ∈ (r.write s buildId updates).written
        ↔
      (buildId', name) ∈ r.written ∨ (buildId' = buildId ∧ name ∈ updates.map Prod.fst) := by
  unfold write
  simp only [List.mem_append, List.mem_map, Prod.mk.injEq]
  constructor
  . rintro (h | ⟨update, hupdate, rfl, rfl⟩)
    . exact .inl h
    . exact .inr ⟨rfl, update, hupdate, rfl⟩
  . rintro (h | ⟨rfl, update, hupdate, rfl⟩)
    . exact .inl h
    . exact .inr ⟨update, hupdate, rfl, rfl⟩

theorem Inv.write (h : r.Inv p) (hstore : r.service.buildIdConfigurationStore.find? buildId = some store)
    (hwritable : Writable p r.service buildId store updates)
    : (r.write (r.service.withStore buildId (updates.foldl setValues store)) buildId updates).Inv p := by
  obtain ⟨hnodup, hsatisfied, whole, hwhole, hvalidated⟩ := hwritable
  refine ⟨?_, ?_, h.extensional⟩
  . intro buildId' name info hfound hset
    have hfind : (r.service.withStore buildId (updates.foldl setValues store)).find? buildId' name
      = some info := hfound
    rw [find?_withStore] at hfind
    rw [mem_write_iff] at hset
    split at hfind
    . next heq =>
      subst heq
      rw [find?_foldl_setValues hnodup, Option.map_eq_some_iff] at hfind
      obtain ⟨info', hinfo', rfl⟩ := hfind
      by_cases hmem : name ∈ updates.map Prod.fst
      . obtain ⟨info'', hinfo'', hsat⟩ := hsatisfied name hmem
        rw [hinfo'] at hinfo''
        cases hinfo''
        rw [if_pos hmem]
        exact hsat.withValues _
      . rw [if_neg hmem] at hset ⊢
        apply h.satisfied buildId' name info' ((find?_of_store hstore name).trans hinfo')
        obtain hdefault | hvalues | hwritten | ⟨_, hname⟩ := hset
        . exact .inl hdefault
        . exact .inr (.inl hvalues)
        . exact .inr (.inr hwritten)
        . exact absurd hname hmem
    . next hne =>
      apply h.satisfied buildId' name info hfind
      obtain hdefault | hvalues | hwritten | ⟨heq, _⟩ := hset
      . exact .inl hdefault
      . exact .inr (.inl hvalues)
      . exact .inr (.inr hwritten)
      . exact absurd heq hne
  . intro buildId' store' hfound hconfigured validator hvalidator
    have hstore' : (r.service.buildIdConfigurationStore.set buildId
      (updates.foldl setValues store)).find? buildId' = some store' := hfound
    rw [SortedMap.find?_set] at hstore'
    split at hstore'
    . next heq =>
      subst heq
      cases hstore'
      rw [← hvalidated validator hvalidator]
      apply h.extensional buildId' validator hvalidator
      intro name
      rw [valuesOf_configuration, hwhole name, storedValues, find?_foldl_setValues hnodup]
      by_cases hmem : name ∈ updates.map Prod.fst
      . obtain ⟨info, hinfo, _⟩ := hsatisfied name hmem
        simp only [hinfo, Option.map_some, Option.getD_some, if_pos hmem]
      . simp only [if_neg hmem, storedValues]
        cases store.find? name with
        | none => rfl
        | some info => rfl
    . next hne =>
      apply h.validated buildId' store' hstore' ?_ validator hvalidator
      unfold IsConfigured at hconfigured ⊢
      rw [List.mem_map] at hconfigured ⊢
      obtain ⟨⟨b, name⟩, hmem, rfl⟩ := hconfigured
      rw [mem_write_iff] at hmem
      obtain hwritten | ⟨heq, _⟩ := hmem
      . exact ⟨_, hwritten, rfl⟩
      . exact absurd heq hne

variable {info : ConfigurationInfo δ α}

theorem find?_registerAny {s' : ConfigurationService δ α}
    (h : s.registerAny p buildId name info = .ok s') (buildId' : Nat) (name' : Text)
    : s'.find? buildId' name' =
        if buildId' = buildId ∧ name' = name then some info else s.find? buildId' name' := by
  unfold registerAny at h
  split at h
  . cases h
  . split at h
    . cases h
    . split at h
      . next store hstore =>
        split at h
        . cases h
        . next hnew =>
          cases h
          have hnone : store.find? name = none := by simpa [SortedMap.contains] using hnew
          unfold find?
          simp only [SortedMap.find?_set]
          by_cases hbuildId : buildId' = buildId
          . simp only [hbuildId, if_true, true_and, hstore, Option.bind_some, SortedMap.find?_insert]
            by_cases hname : name' = name
            . simp [hname, hnone]
            . simp [hname]
          . simp [hbuildId]
      . next hnone =>
        cases h
        unfold find?
        simp only [SortedMap.find?_insert]
        by_cases hbuildId : buildId' = buildId
        . simp only [hbuildId, if_true, true_and, hnone, Option.getD_none, Option.bind_some,
            Option.bind_none]
          rw [SortedMap.find?_insert]
          by_cases hname : name' = name
          . simp [hname]
          . simp [hname]
        . simp [hbuildId]

theorem validatorStore_registerAny {s' : ConfigurationService δ α}
    (h : s.registerAny p buildId name info = .ok s')
    : s'.validatorStore = s.validatorStore
        ∧
      ∀ buildId', buildId' ≠ buildId → s'.buildIdConfigurationStore.find? buildId'
          = s.buildIdConfigurationStore.find? buildId' := by
  unfold registerAny at h
  split at h
  . cases h
  . split at h
    . cases h
    . split at h
      . split at h
        . cases h
        . cases h
          refine ⟨rfl, ?_⟩
          intro buildId' hne
          simp [SortedMap.find?_set, hne]
      . cases h
        refine ⟨rfl, ?_⟩
        intro buildId' hne
        simp [SortedMap.find?_insert, hne]

theorem Inv.registerAny (h : r.Inv p)
    (hregular : r.Regular p (.registerAny buildId name info))
    (hregister : r.service.registerAny p buildId name info = .ok s)
    : ({ r with service := s } : ConfigurationRun δ α).Inv p := by
  obtain ⟨hnot, hdefault⟩ := hregular
  obtain ⟨hvalidators, hother⟩ := validatorStore_registerAny hregister
  refine ⟨?_, ?_, ?_⟩
  . intro buildId' name' info' hfind hset
    rw [find?_registerAny hregister] at hfind
    split at hfind
    . next heq =>
      obtain ⟨rfl, rfl⟩ := heq
      cases hfind
      obtain hd | hvalues | hwritten := hset
      . exact hdefault (.inl hd)
      . exact hdefault (.inr hvalues)
      . exact absurd (List.mem_map_of_mem hwritten) hnot
    . exact h.satisfied buildId' name' info' hfind hset
  . intro buildId' store' hstore' hconfigured validator hvalidator
    have hne : buildId' ≠ buildId := by
      rintro rfl
      exact hnot hconfigured
    rw [hother buildId' hne] at hstore'
    apply h.validated buildId' store' hstore' hconfigured validator
    have hmem : validator ∈ s.validators buildId' := hvalidator
    unfold validators at hmem ⊢
    rw [hvalidators] at hmem
    exact hmem
  . intro buildId' validator hvalidator
    have hmem : validator ∈ s.validators buildId' := hvalidator
    apply h.extensional buildId' validator
    unfold validators at hmem ⊢
    rw [hvalidators] at hmem
    exact hmem

variable {validator : ConfigurationValidator δ α}

theorem validators_registerValidator (buildId' : Nat)
    : (s.registerValidator buildId validator).validators buildId'
        =
      if buildId' = buildId then s.validators buildId' ++ [validator] else s.validators buildId' := by
  unfold registerValidator validators
  cases hfind : s.validatorStore.find? buildId with
  | none =>
    by_cases h : buildId' = buildId
    . simp [SortedMap.find?_insert, h, hfind]
    . simp [SortedMap.find?_insert, h]
  | some vs =>
    by_cases h : buildId' = buildId
    . simp [SortedMap.find?_set, h, hfind]
    . simp [SortedMap.find?_set, h]

theorem store_registerValidator
    : (s.registerValidator buildId validator).buildIdConfigurationStore
        = s.buildIdConfigurationStore := by
  unfold registerValidator
  split <;> rfl

theorem Inv.registerValidator (h : r.Inv p)
    (hregular : r.Regular p (.registerValidator buildId validator))
    : ({ r with service := r.service.registerValidator buildId validator } : ConfigurationRun δ
        α).Inv p := by
  obtain ⟨hnot, hextensional⟩ := hregular
  refine ⟨?_, ?_, ?_⟩
  . intro buildId' name' info' hfind hset
    apply h.satisfied buildId' name' info' ?_ hset
    unfold find? at hfind ⊢
    rw [← store_registerValidator]
    exact hfind
  . intro buildId' store' hstore' hconfigured validator' hvalidator
    have hne : buildId' ≠ buildId := by
      rintro rfl
      exact hnot hconfigured
    rw [validators_registerValidator, if_neg hne] at hvalidator
    exact h.validated buildId' store' (store_registerValidator ▸ hstore') hconfigured
      validator' hvalidator
  . intro buildId' validator' hvalidator
    rw [validators_registerValidator] at hvalidator
    split at hvalidator
    . rw [List.mem_append, List.mem_singleton] at hvalidator
      cases hvalidator with
      | inl hmem => exact h.extensional buildId' validator' hmem
      | inr heq => exact heq ▸ hextensional
    . exact h.extensional buildId' validator' hvalidator

theorem buildUpdates_ok {parameters : ConfigurationUpdateRequest} (hinv : r.Inv p)
    (hregular : r.Regular p (.buildUpdates buildId parameters))
    (h : r.service.buildUpdates p buildId parameters = .ok (updates, s))
    : (updates = [] ∧ s = r.service)
        ∨ ∃ store, r.service.buildIdConfigurationStore.find? buildId = some store
          ∧ Writable p r.service buildId store updates
        ∧ s = r.service.withStore buildId (updates.foldl setValues store) := by
  unfold buildUpdates at h
  split at h
  . next store hstore =>
    simp only [bind_eq_ok_iff] at h
    obtain ⟨built, hbuilt, updates', hmissing, u, hvalidate, hpure⟩ := h
    cases hpure
    exact .inr ⟨store, hstore, writable_of_buildUpdates hinv hregular hstore hbuilt hmissing
      hvalidate, rfl⟩
  . split at h
    . cases h
      exact .inl ⟨rfl, rfl⟩
    . cases h

theorem write_nil : r.write r.service buildId [] = r := by
  simp [ConfigurationRun.write]

variable {throws : Bool}

theorem update_of_none (h : s.buildIdConfigurationStore.find? buildId = none)
    : s.update p buildId updates throws = (none, s) := by
  unfold update
  rw [h]

theorem update_of_some (h : s.buildIdConfigurationStore.find? buildId = some store)
    : s.update p buildId updates throws
        =
      Except.casesOn (s.accept p buildId store updates) (fun e => (some e, s))
        (fun _ => (if throws then some .component else none, s.withStore buildId
            (updates.foldl setValues store))) := by
  unfold update
  rw [h]
  dsimp only
  split
  . next heq => rw [heq]
  . next heq => rw [heq]

theorem isAccepted_of_none (h : s.buildIdConfigurationStore.find? buildId = none)
    : s.isAccepted p buildId updates = false := by
  unfold isAccepted
  rw [h]

theorem isAccepted_of_some (h : s.buildIdConfigurationStore.find? buildId = some store)
    : s.isAccepted p buildId updates = (s.accept p buildId store updates).isOk := by
  unfold isAccepted
  rw [h]

theorem call_update (hregular : r.Regular p (.update buildId updates throws))
    : (r.call p (.update buildId updates throws)).2 = r
        ∨ ((r.call p (.update buildId updates throws)).1 = none
        ∧ ∃ store, r.service.buildIdConfigurationStore.find? buildId = some store
        ∧ Writable p r.service buildId store updates
          ∧ (∀ name ∈ updates.map Prod.fst, ∃ info, store.find? name = some info
            ∧ info.isModifiable = true)
          ∧ (r.call p (.update buildId updates throws)).2
              = r.write (r.service.withStore buildId (updates.foldl setValues store)) buildId
                  updates) := by
  obtain ⟨hnodup, rfl⟩ := hregular
  unfold call
  dsimp only
  cases hstore : r.service.buildIdConfigurationStore.find? buildId with
  | none =>
    rw [update_of_none hstore, isAccepted_of_none hstore]
    exact .inl rfl
  | some store =>
    rw [update_of_some hstore, isAccepted_of_some hstore]
    cases haccept : r.service.accept p buildId store updates with
    | error e => exact .inl rfl
    | ok u =>
      obtain ⟨hwritable, hmodifiable⟩ := writable_of_accept hnodup haccept
      exact .inr ⟨rfl, store, rfl, hwritable, hmodifiable, rfl⟩

theorem Inv.step (h : r.Inv p) {c : ConfigurationCall δ α} (hregular : r.Regular p c)
    : (r.call p c).2.Inv p := by
  cases c with
  | registerAny buildId name info =>
    simp only [call]
    split
    . next s hregister => exact h.registerAny hregular hregister
    . exact h
  | registerRunningStateMutable buildId => exact ⟨h.satisfied, h.validated, h.extensional⟩
  | registerValidator buildId validator => exact h.registerValidator hregular
  | buildUpdates buildId parameters =>
    simp only [call]
    split
    . next updates s hbuild =>
      obtain ⟨rfl, rfl⟩ | ⟨store, hstore, hwritable, rfl⟩ := buildUpdates_ok h hregular hbuild
      . rw [write_nil]
        exact h
      . exact h.write hstore hwritable
    . exact h
  | update buildId updates throws =>
    obtain heq | ⟨_, store, hstore, hwritable, _, heq⟩ := call_update hregular
    . rw [heq]
      exact h
    . rw [heq]
      exact h.write hstore hwritable

theorem Inv.consistent (h : r.Inv p) : r.Consistent p where
  satisfied buildId name info hfind hwritten := h.satisfied buildId name info hfind (.inr (.inr hwritten))
  validated := h.validated

theorem Regular.respected {c : ConfigurationCall δ α} (hregular : r.Regular p c) : r.Respected p c := by
  refine ⟨?_, ?_, ?_, ?_⟩
  . intro hthrown buildId name
    cases c with
    | registerAny buildId name info =>
      simp only [call] at hthrown ⊢
      split at hthrown
      . exact absurd rfl hthrown
      . rfl
    | registerRunningStateMutable buildId => exact absurd rfl hthrown
    | registerValidator buildId validator => exact absurd rfl hthrown
    | buildUpdates buildId parameters =>
      simp only [call] at hthrown ⊢
      split at hthrown
      . exact absurd rfl hthrown
      . rfl
    | update buildId updates throws =>
      obtain heq | ⟨hnone, _⟩ := call_update hregular
      . rw [heq]
      . exact absurd hnone hthrown
  . rintro buildId updates throws rfl buildId' name info hfind hchanged
    obtain heq | ⟨_, store, hstore, hwritable, hmodifiable, heq⟩ := call_update hregular
    . rw [heq] at hchanged
      exact absurd hfind hchanged
    . rw [heq] at hchanged
      have hwrote : (r.service.withStore buildId (updates.foldl setValues store)).find? buildId'
        name ≠ some info := hchanged
      rw [find?_withStore] at hwrote
      split at hwrote
      . next hsame =>
        subst hsame
        rw [find?_of_store hstore] at hfind
        rw [find?_foldl_setValues hwritable.nodup, hfind, Option.map_some] at hwrote
        split at hwrote
        . next hmem =>
          obtain ⟨info', hinfo', hmod⟩ := hmodifiable name hmem
          rw [hfind] at hinfo'
          cases hinfo'
          exact ⟨rfl, hmem, hmod⟩
        . exact absurd rfl hwrote
      . exact absurd hfind hwrote
  . rintro buildId parameters rfl name texts info values hmem hfind hdenotes
    obtain ⟨_, hpattern, _⟩ := hregular
    exact acceptedAlike hdenotes (hpattern name texts info hmem hfind)
  . rintro buildId updates throws rfl name info values hmem hfind hdenotes
    apply acceptedAlike hdenotes
    -- the text of a value is the text of the value that it says
    intro text htext value hcreate
    rw [List.mem_map] at htext
    obtain ⟨value', hvalue', rfl⟩ := htext
    obtain ⟨i, hi, rfl⟩ := List.getElem_of_mem hvalue'
    have hi' : i < (values.map (Any.toString p)).length := by
      rw [List.length_map]
      exact hi
    have hsame := List.Forall₂.get hdenotes hi' hi
    simp only [List.get_eq_getElem, List.getElem_map] at hsame
    rw [Except.ok.inj (hcreate.symm.trans hsame)]

theorem configuration_in_force {calls : List (ConfigurationCall δ α)} {c : ConfigurationCall δ α}
    {r : ConfigurationRun δ α}
    (hregular : Guarded (step p) (Regular p) create (calls ++ [c]))
    (hrun : run (step p) create calls = some r)
    : (r.call p c).2.Consistent p ∧ r.Respected p c := by
  have hstep : ∀ (r : ConfigurationRun δ α) c r', r.Inv p → r.Regular p c → step p r c = some r'
      → r'.Inv p := by
    intro r c r' h hregular hstep
    cases hstep
    exact h.step hregular
  have hinv : r.Inv p := run_inv hstep inv_create hregular.of_append hrun
  have hlast : r.Regular p c := hregular.last hrun
  exact ⟨(hinv.step hlast).consistent, hlast.respected⟩

end ConfigurationRun

theorem ConfigurationValidator.extensional_of_valuesOf {validator : ConfigurationValidator δ α}
    (names : List Text)
    (check : List (List (Any δ α)) → Text × Bool)
    (h : ∀ updates, validator updates = check (names.map (ConfigurationUpdate.valuesOf updates)))
    : ConfigurationValidator.Extensional validator := by
  intro updates updates' hvalues
  rw [h, h]
  congr 2
  exact List.map_congr_left (fun name _ => hvalues name)

namespace ConfigurationRun

open ConfigurationService

def plain : Platform Unit Unit where
  floating := ⟨fun _ _ => false, fun s => ((), false, s), (), (), (), (), id⟩
  doubleToString _ := []
  floatToString _ := []
  addrSet _ := none
  addrStr _ := []
  pcreCompile _ := true
  pcreExec _ text := ["none".toList, "all".toList, "outofband".toList].contains text

def slots (value : UInt16) : ConfigurationInfo Unit Unit where
  type := .uint16
  isRequired := false
  hasDefault := true
  isModifiable := true
  values := [.uint16 value]
  minValue := .uint16 1
  maxValue := .uint16 0xffff
  minOccurs := 1
  maxOccurs := 1
  regexPattern := []

def cwmin0 : Text := ['c', 'w', 'm', 'i', 'n', '0']

def cwmax0 : Text := ['c', 'w', 'm', 'a', 'x', '0']

def belowMaximum : List (List (Any Unit Unit)) → Text × Bool
  | [.uint16 cwmin :: _, .uint16 cwmax :: _] =>
    if cwmin < cwmax then ([], true) else ("cwmin0 must be less than cwmax0".toList, false)
  | _ => ("cwmin0 must be less than cwmax0".toList, false)

def contention : ConfigurationValidator Unit Unit := fun updates =>
  belowMaximum ([cwmin0, cwmax0].map (valuesOf updates))

def started : List (ConfigurationCall Unit Unit) :=
  [.registerAny 1 cwmin0 (slots 32), .registerAny 1 cwmax0 (slots 1024), .registerValidator 1 contention,
    .registerRunningStateMutable 1, .buildUpdates 1 [(cwmin0, ["0x10".toList])],
      .update 1 [(cwmin0, [.uint16 64])] false]

theorem guarded_cons_iff {c : ConfigurationCall δ α} {calls : List (ConfigurationCall δ α)}
    {r : ConfigurationRun δ α}
    : Guarded (step p) (Regular p) r (c :: calls) ↔ r.Regular p c
        ∧ Guarded (step p) (Regular p) (r.call p c).2 calls := by
  simp [Guarded, step]

theorem extensional_contention : ConfigurationValidator.Extensional contention := by
  exact ConfigurationValidator.extensional_of_valuesOf [cwmin0, cwmax0] belowMaximum (fun _ => rfl)

theorem cwmax0_lt : cwmax0 < cwmin0 := by
  decide

def slotStore (cwmax cwmin : UInt16) : ConfigurationStore Unit Unit where
  toList := [(cwmax0, slots cwmax), (cwmin0, slots cwmin)]
  sorted := by simp [cwmax0_lt]

theorem regular_of_slots {r : ConfigurationRun Unit Unit} {v w : UInt16}
    {parameters : ConfigurationUpdateRequest}
    (hstore : r.service.buildIdConfigurationStore.find? 1 = some (slotStore v w))
    (hnodup : (parameters.map Prod.fst).Nodup)
    : r.Regular plain (.buildUpdates 1 parameters) := by
  have hslots : ∀ name info, r.service.find? 1 name = some info → info.regexPattern = []
      ∧ info.hasDefault = true := by
    intro name info hfind
    rw [find?_of_store hstore, SortedMap.find?_eq_some_iff] at hfind
    simp only [slotStore, List.mem_cons, Prod.mk.injEq, List.not_mem_nil, or_false] at hfind
    obtain ⟨_, rfl⟩ | ⟨_, rfl⟩ := hfind
    . exact ⟨rfl, rfl⟩
    . exact ⟨rfl, rfl⟩
  refine ⟨hnodup, ?_, ?_⟩
  . intro name texts info _ hfind text _ value _
    simp [matchesPattern, (hslots name info hfind).1]
  . intro name info hfind _
    exact .inr (.inl (hslots name info hfind).2)

theorem configuration_in_force_of_slots
    : ∃ r, run (step plain) create started = some r
        ∧ (r.call plain (.update 1 [(cwmin0, [.uint16 2000])] false)).1.isSome = true
        ∧ (r.call plain (.update 1 [(cwmin0, [.uint16 2000])] false)).2.Consistent plain
        ∧ r.Respected plain (.update 1 [(cwmin0, [.uint16 2000])] false) := by
  have hslots : ∀ v, checkParameter plain [] (slots v) (slots v).values = .ok ()
      → (slots v).Satisfied plain (slots v).values :=
    fun v h => checkParameter_iff.mp h
  have hregular : Guarded (step plain) (Regular plain) create
      (started ++ [.update 1 [(cwmin0, [.uint16 2000])] false]) := by
    simp only [started, List.cons_append, List.nil_append, guarded_cons_iff]
    exact ⟨⟨by decide, fun _ => hslots 32 rfl⟩, ⟨by decide, fun _ => hslots 1024 rfl⟩,
      ⟨by decide, extensional_contention⟩, trivial,
      regular_of_slots rfl (by decide), ⟨by decide, rfl⟩, ⟨by decide, rfl⟩, trivial⟩
  exact ⟨_, rfl, by decide, configuration_in_force hregular rfl⟩

theorem configuration_not_in_force
    : ∃ r, run (step plain) create started = some r
        ∧ ¬ (r.call plain (.update 1 [(cwmin0, [.uint16 20]), (cwmin0, [.uint16 2000])]
            false)).2.Consistent plain := by
  refine ⟨_, rfl, ?_⟩
  intro h
  have hvalid := h.validated 1 _ rfl (by decide) contention List.mem_cons_self
  exact absurd hvalid (by decide)

end ConfigurationRun
end Emane

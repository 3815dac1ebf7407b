import Mathlib.Data.List.Nodup
import Emane.Configuration.Impl.ConfigurationService
import Emane.Lib.Machine
import Emane.Lib.Outcome

/-!
This module contains what the two ways to set parameters accept, and the values that the names
have in the store and in the lists that are made from it.
-/

namespace Emane

variable {δ α : Type} {p : Platform δ α}

structure ConfigurationInfo.Satisfied (p : Platform δ α) (info : ConfigurationInfo δ α)
    (values : List (Any δ α)) : Prop where
  occurs : info.minOccurs ≤ values.length ∧ values.length ≤ info.maxOccurs
  type : ∀ value ∈ values, value.getType = info.type
  range : ∀ value ∈ values, info.type = .inetAddr ∨ info.type = .string
    ∨ (value.lt p info.minValue = .ok false ∧ info.maxValue.lt p value = .ok false)
  pattern : ∀ value ∈ values, ConfigurationService.matchesPattern p info (value.toString p) = true

def ConfigurationUpdate.valuesOf (updates : ConfigurationUpdate δ α) (name : Text) : List (Any δ α) :=
  ((updates.find? (fun update => update.1 = name)).map Prod.snd).getD []

def ConfigurationValidator.Extensional (validator : ConfigurationValidator δ α) : Prop :=
  ∀ updates updates' : ConfigurationUpdate δ α,
    (∀ name, ConfigurationUpdate.valuesOf updates name = ConfigurationUpdate.valuesOf updates' name)
      → (validator updates).2 = (validator updates').2

namespace ConfigurationService

variable {name : Text} {info : ConfigurationInfo δ α} {value : Any δ α} {text : Text}

def InRange (p : Platform δ α) (info : ConfigurationInfo δ α) (value : Any δ α) : Prop :=
  info.type = .inetAddr ∨ info.type = .string
    ∨ (value.lt p info.minValue = .ok false ∧ info.maxValue.lt p value = .ok false)

theorem checkRange_iff {u : Unit} : checkRange p name info value = .ok u ↔ InRange p info value := by
  unfold checkRange InRange
  by_cases hinet : info.type = .inetAddr
  . simp [hinet]
  . by_cases hstring : info.type = .string
    . simp [hstring]
    . simp only [hinet, hstring, ne_eq, not_false_eq_true, and_self, if_true, false_or]
      split
      . next heq => simp [heq]
      . next heq => simp [heq]
      . next hlow =>
        split
        . next heq => simp [heq]
        . next heq => simp [heq]
        . next heq => simp [hlow, heq]

theorem checkOccurs_iff {count : Nat} {u : Unit}
    : checkOccurs name info count = (.ok u : Except (ServiceException δ α) Unit)
        ↔ info.minOccurs ≤ count ∧ count ≤ info.maxOccurs := by
  unfold checkOccurs
  split
  . next h => simp [h.1, h.2]
  . next h =>
    simp only [reduceCtorEq, false_iff]
    exact h

theorem buildValue_iff
    : buildValue p name info text = .ok value
        ↔
      Any.create p text info.type = .ok value ∧ InRange p info value
          ∧ matchesPattern p info text = true := by
  have htry : buildValue p name info text = .ok value ↔ tryValue p name info text = .ok value := by
    unfold buildValue
    split
    . next heq => simp [heq]
    . rfl
  rw [htry]
  unfold tryValue
  split
  . next heq => simp [heq]
  . next heq => simp [heq]
  . next any heq =>
    rw [bind_eq_ok_iff]
    constructor
    . rintro ⟨u, hrange, hmatch⟩
      split at hmatch
      . next hpattern =>
        cases hmatch
        exact ⟨heq, checkRange_iff.mp hrange, hpattern⟩
      . cases hmatch
    . rintro ⟨hcreate, hrange, hpattern⟩
      obtain rfl := Except.ok.inj (heq.symm.trans hcreate)
      exact ⟨(), checkRange_iff.mpr hrange, by rw [if_pos hpattern]⟩

theorem checkValue_iff {u : Unit}
    : checkValue p name info value = .ok u
        ↔
      value.getType = info.type ∧ InRange p info value
          ∧ matchesPattern p info (value.toString p) = true := by
  unfold checkValue
  split
  . next h => simp [Ne.symm h]
  . next h =>
    rw [not_not] at h
    rw [bind_eq_ok_iff]
    constructor
    . rintro ⟨u, hrange, hmatch⟩
      split at hmatch
      . next hpattern => exact ⟨h.symm, checkRange_iff.mp hrange, hpattern⟩
      . cases hmatch
    . rintro ⟨_, hrange, hpattern⟩
      exact ⟨(), checkRange_iff.mpr hrange, by rw [if_pos hpattern]⟩

theorem getType_converted {β : Type} {any : β → Any δ α} {type : AnyType}
    {r : Except ParameterConvert.Exception β}
    (hany : ∀ b, (any b).getType = type) (h : Any.converted any r = .ok value)
    : value.getType = type := by
  unfold Any.converted at h
  split at h
  . next b =>
    cases h
    exact hany b
  . cases h
  . cases h

theorem getType_of_create {type : AnyType} (h : Any.create p text type = .ok value)
    : value.getType = type := by
  cases type with
  | string =>
    cases h
    rfl
  | _ => exact getType_converted (fun _ => rfl) h

theorem buildParameter_iff {texts : List Text} {values : List (Any δ α)}
    : buildParameter p name info texts = .ok values
        ↔
      (info.minOccurs ≤ texts.length ∧ texts.length ≤ info.maxOccurs)
        ∧ List.Forall₂ (fun text value => buildValue p name info text = .ok value) texts values := by
  unfold buildParameter
  rw [bind_eq_ok_iff]
  constructor
  . rintro ⟨u, hoccurs, hvalues⟩
    exact ⟨checkOccurs_iff.mp hoccurs, mapM_eq_ok_iff.mp hvalues⟩
  . rintro ⟨hoccurs, hvalues⟩
    exact ⟨(), checkOccurs_iff.mpr hoccurs, mapM_eq_ok_iff.mpr hvalues⟩

theorem checkParameter_iff {values : List (Any δ α)} {u : Unit}
    : checkParameter p name info values = .ok u ↔ info.Satisfied p values := by
  unfold checkParameter
  rw [bind_eq_ok_iff]
  constructor
  . rintro ⟨u, hoccurs, hvalues⟩
    have hvalues := forM_eq_ok_iff.mp hvalues
    refine ⟨checkOccurs_iff.mp hoccurs, ?_, ?_, ?_⟩
    . intro value hvalue
      exact (checkValue_iff.mp (hvalues value hvalue)).1
    . intro value hvalue
      exact (checkValue_iff.mp (hvalues value hvalue)).2.1
    . intro value hvalue
      exact (checkValue_iff.mp (hvalues value hvalue)).2.2
  . intro h
    refine ⟨(), checkOccurs_iff.mpr h.occurs, forM_eq_ok_iff.mpr ?_⟩
    intro value hvalue
    exact checkValue_iff.mpr ⟨h.type value hvalue, h.range value hvalue, h.pattern value hvalue⟩

end ConfigurationService

namespace ConfigurationUpdate

variable {updates updates' : ConfigurationUpdate δ α} {name : Text} {values : List (Any δ α)}

theorem find?_eq_none_of_not_mem (h : name ∉ updates.map Prod.fst)
    : updates.find? (fun update => update.1 = name) = none := by
  rw [List.find?_eq_none]
  intro update hupdate heq
  apply h
  rw [List.mem_map]
  exact ⟨update, hupdate, by simpa using heq⟩

theorem valuesOf_of_not_mem (h : name ∉ updates.map Prod.fst) : valuesOf updates name = [] := by
  rw [valuesOf, find?_eq_none_of_not_mem h]
  rfl

theorem valuesOf_append
    : valuesOf (updates ++ updates') name
        =
      if name ∈ updates.map Prod.fst then valuesOf updates name else valuesOf updates' name := by
  unfold valuesOf
  rw [List.find?_append]
  split
  . next h =>
    rw [List.mem_map] at h
    obtain ⟨update, hupdate, rfl⟩ := h
    cases hfind : updates.find? (fun update' => update'.1 = update.1) with
    | none => exact absurd (List.find?_eq_none.mp hfind update hupdate) (by simp)
    | some update' => rfl
  . next h =>
    rw [find?_eq_none_of_not_mem h]
    rfl

theorem valuesOf_cons (update : Text × List (Any δ α))
    : valuesOf (update :: updates) name = if name = update.1 then update.2 else valuesOf
        updates name := by
  unfold valuesOf
  by_cases h : update.1 = name
  . simp [h]
  . simp [h, Ne.symm h]

theorem mem_valuesOf (hnodup : (updates.map Prod.fst).Nodup) (hmem : (name, values) ∈ updates)
    : valuesOf updates name = values := by
  induction updates with
  | nil => cases hmem
  | cons update updates ih =>
    rw [List.map_cons, List.nodup_cons] at hnodup
    rw [valuesOf_cons]
    rw [List.mem_cons] at hmem
    cases hmem with
    | inl heq => simp [← heq]
    | inr hmem =>
      have hne : name ≠ update.1 := by
        intro heq
        apply hnodup.1
        rw [← heq, List.mem_map]
        exact ⟨_, hmem, rfl⟩
      rw [if_neg hne]
      exact ih hnodup.2 hmem

end ConfigurationUpdate

namespace ConfigurationService

open ConfigurationUpdate (valuesOf)

variable {store : ConfigurationStore δ α} {updates : ConfigurationUpdate δ α} {name : Text}

def storedValues (store : ConfigurationStore δ α) (name : Text) : List (Any δ α) :=
  ((store.find? name).map ConfigurationInfo.values).getD []

def entryValues (l : List (Text × ConfigurationInfo δ α)) : ConfigurationUpdate δ α :=
  l.map (fun entry => (entry.1, entry.2.values))

theorem map_fst_entryValues (l : List (Text × ConfigurationInfo δ α))
    : (entryValues l).map Prod.fst = l.map Prod.fst := by
  simp [entryValues, Function.comp_def]

theorem nodup_keys (store : ConfigurationStore δ α) : (store.toList.map Prod.fst).Nodup := by
  rw [List.Nodup, List.pairwise_map]
  exact store.sorted.imp (fun h => ne_of_lt h)

variable (q : Text × ConfigurationInfo δ α → Bool)

theorem valuesOf_entryValues_filter
    : valuesOf (entryValues (store.toList.filter q)) name
        =
      (((store.find? name).filter (fun info => q (name, info))).map ConfigurationInfo.values).getD
          [] := by
  have hsub : ((entryValues (store.toList.filter q)).map Prod.fst).Sublist
      (store.toList.map Prod.fst) := by
    rw [map_fst_entryValues]
    exact (List.filter_sublist).map _
  have hnodup := (nodup_keys store).sublist hsub
  have hmem : ∀ n, n ∈ (entryValues (store.toList.filter q)).map Prod.fst
      → ∃ info, store.find? n = some info ∧ q (n, info) = true := by
    intro n hn
    rw [map_fst_entryValues, List.mem_map] at hn
    obtain ⟨⟨n', info⟩, hentry, rfl⟩ := hn
    rw [List.mem_filter] at hentry
    exact ⟨info, (SortedMap.find?_eq_some_iff _ _ _).mpr hentry.1, hentry.2⟩
  cases hfind : store.find? name with
  | none =>
    apply ConfigurationUpdate.valuesOf_of_not_mem
    intro h
    obtain ⟨info, hinfo, _⟩ := hmem name h
    rw [hfind] at hinfo
    cases hinfo
  | some info =>
    by_cases hq : q (name, info) = true
    . simp only [Option.filter_some, hq, if_true, Option.map_some, Option.getD_some]
      apply ConfigurationUpdate.mem_valuesOf hnodup
      rw [entryValues, List.mem_map]
      refine ⟨(name, info), ?_, rfl⟩
      rw [List.mem_filter]
      exact ⟨(SortedMap.find?_eq_some_iff _ _ _).mp hfind, hq⟩
    . rw [Option.filter_some, if_neg hq]
      apply ConfigurationUpdate.valuesOf_of_not_mem
      intro h
      obtain ⟨info', hinfo', hq'⟩ := hmem name h
      rw [hfind] at hinfo'
      cases hinfo'
      exact hq hq'

theorem values_of_filter (info : Option (ConfigurationInfo δ α))
    : ((info.filter (fun info => info.values ≠ [])).map ConfigurationInfo.values).getD []
        =
      (info.map ConfigurationInfo.values).getD [] := by
  cases info with
  | none => rfl
  | some info =>
    rw [Option.filter_some]
    by_cases h : info.values = []
    . simp [h]
    . simp [h]

theorem valuesOf_configuration : valuesOf (configuration store) name = storedValues store name := by
  have hconfiguration : configuration store = entryValues
      (store.toList.filter (fun entry => entry.2.values ≠ [])) := by
    unfold configuration entryValues
    rw [List.filter_map]
    rfl
  rw [hconfiguration, valuesOf_entryValues_filter, storedValues]
  exact values_of_filter _

theorem any_eq_iff
    : updates.any (fun update => update.1 = name) = true ↔ name ∈ updates.map Prod.fst := by
  simp [List.any_eq_true]

def addUnless (q : Text × ConfigurationInfo δ α → Bool) (updates : ConfigurationUpdate δ α)
    (entry : Text × ConfigurationInfo δ α)
    : ConfigurationUpdate δ α :=
  if q entry = true ∧ entry.1 ∉ updates.map Prod.fst then updates ++ [(entry.1, entry.2.values)]
    else updates

theorem mem_addUnless_iff {q : Text × ConfigurationInfo δ α → Bool}
    {entry : Text × ConfigurationInfo δ α} (hne : name ≠ entry.1)
    : name ∈ (addUnless q updates entry).map Prod.fst ↔ name ∈ updates.map Prod.fst := by
  unfold addUnless
  split
  . simp [hne]
  . rfl

theorem foldl_addUnless {l : List (Text × ConfigurationInfo δ α)}
    (hnodup : (l.map Prod.fst).Nodup)
    : l.foldl (addUnless q) updates = updates ++ entryValues
        (l.filter (fun entry => q entry && !updates.any (fun u => u.1 = entry.1))) := by
  induction l generalizing updates with
  | nil => simp [entryValues]
  | cons entry l ih =>
    rw [List.map_cons, List.nodup_cons] at hnodup
    have hsame : ∀ e ∈ l, (q e && !(addUnless q updates entry).any (fun u => u.1 = e.1))
        = (q e && !updates.any (fun u => u.1 = e.1)) := by
      intro e he
      have hne : e.1 ≠ entry.1 := by
        intro heq
        apply hnodup.1
        rw [← heq]
        exact List.mem_map_of_mem he
      congr 2
      rw [Bool.eq_iff_iff, any_eq_iff, any_eq_iff]
      exact mem_addUnless_iff hne
    rw [List.foldl_cons, ih hnodup.2, List.filter_congr hsame, List.filter_cons]
    have hcond : (q entry && !updates.any (fun u => u.1 = entry.1)) = true ↔ q entry = true
        ∧ entry.1 ∉ updates.map Prod.fst := by
      rw [Bool.and_eq_true, Bool.not_eq_true', ← Bool.not_eq_true, any_eq_iff]
    by_cases h : q entry = true ∧ entry.1 ∉ updates.map Prod.fst
    . rw [addUnless, if_pos h, if_pos (hcond.mpr h), List.append_assoc]
      rfl
    . rw [addUnless, if_neg h, if_neg (fun h' => h (hcond.mp h'))]

theorem valuesOf_foldl_addUnless
    : valuesOf (store.toList.foldl (addUnless q) updates) name
        =
      if name ∈ updates.map Prod.fst then
        valuesOf updates name
      else
        (((store.find? name).filter (fun info => q (name, info))).map ConfigurationInfo.values).getD
            [] := by
  rw [foldl_addUnless q (nodup_keys store), ConfigurationUpdate.valuesOf_append]
  split
  . rfl
  . next hname =>
    rw [valuesOf_entryValues_filter]
    have hany : updates.any (fun u => u.1 = name) = false := by
      rw [← Bool.not_eq_true, any_eq_iff]
      exact hname
    simp only [hany, Bool.not_false, Bool.and_true]

theorem addCurrent_eq (entry : Text × ConfigurationInfo δ α)
    : addCurrent updates entry = addUnless (fun entry => entry.2.values ≠ []) updates entry := by
  unfold addCurrent addUnless
  simp only [← Bool.not_eq_true, any_eq_iff, decide_eq_true_eq]

theorem valuesOf_canidateUpdates
    : valuesOf (canidateUpdates store updates) name
        =
      if name ∈ updates.map Prod.fst then valuesOf updates name else storedValues store name := by
  have hadd : (addCurrent : ConfigurationUpdate δ α → _ → _) = addUnless
      (fun entry => entry.2.values ≠ []) := by
    funext updates entry
    exact addCurrent_eq entry
  rw [canidateUpdates, hadd, valuesOf_foldl_addUnless, storedValues]
  rw [values_of_filter]

theorem addMissing_eq {entry : Text × ConfigurationInfo δ α} {updates' : ConfigurationUpdate δ α}
    (h : addMissing updates entry = .ok updates')
    : updates' = addUnless (fun entry => entry.2.hasDefault) updates entry
        ∧ (entry.2.isRequired = true → entry.1 ∈ updates.map Prod.fst) := by
  unfold addMissing at h
  unfold addUnless
  split at h
  . next hneeded =>
    split at h
    . next hany =>
      rw [any_eq_iff] at hany
      cases h
      rw [if_neg (fun h' => h'.2 hany)]
      exact ⟨rfl, fun _ => hany⟩
    . next hany =>
      rw [any_eq_iff] at hany
      split at h
      . cases h
      . next hrequired =>
        cases h
        rw [if_pos ⟨hneeded.resolve_left hrequired, hany⟩]
        exact ⟨rfl, fun h' => absurd h' hrequired⟩
  . next hneeded =>
    rw [not_or] at hneeded
    cases h
    rw [if_neg (fun h' => hneeded.2 h'.1)]
    exact ⟨rfl, fun h' => absurd h' hneeded.1⟩

theorem foldlM_addMissing {l : List (Text × ConfigurationInfo δ α)}
    (hnodup : (l.map Prod.fst).Nodup) {updates' : ConfigurationUpdate δ α}
    (h : l.foldlM addMissing updates = .ok updates')
    : updates' = l.foldl (addUnless (fun entry => entry.2.hasDefault)) updates
        ∧ ∀ entry ∈ l, entry.2.isRequired = true → entry.1 ∈ updates.map Prod.fst := by
  induction l generalizing updates with
  | nil =>
    cases h
    exact ⟨rfl, by simp⟩
  | cons entry l ih =>
    rw [List.map_cons, List.nodup_cons] at hnodup
    rw [List.foldlM_cons, bind_eq_ok_iff] at h
    obtain ⟨next, hentry, hrest⟩ := h
    obtain ⟨heq, hrequired⟩ := ih hnodup.2 hrest
    obtain ⟨rfl, hfirst⟩ := addMissing_eq hentry
    refine ⟨heq, ?_⟩
    rw [List.forall_mem_cons]
    refine ⟨hfirst, ?_⟩
    intro e he hreq
    have hne : e.1 ≠ entry.1 := by
      intro heq
      apply hnodup.1
      rw [← heq]
      exact List.mem_map_of_mem he
    exact (mem_addUnless_iff hne).mp (hrequired e he hreq)

theorem find?_foldl_setValues (hnodup : (updates.map Prod.fst).Nodup)
    : (updates.foldl setValues store).find? name
        =
      (store.find? name).map (fun info =>
        if name ∈ updates.map Prod.fst then { info with values := valuesOf updates name } else info) := by
  induction updates generalizing store with
  | nil => simp
  | cons update updates ih =>
    rw [List.map_cons, List.nodup_cons] at hnodup
    rw [List.foldl_cons, ih hnodup.2]
    have hset : (setValues store update).find? name
        = (store.find? name).map
            (fun info => if name = update.1 then { info with values := update.2 } else info) := by
      unfold setValues
      cases hfind : store.find? update.1 with
      | none =>
        by_cases h : name = update.1
        . simp [h, hfind]
        . simp [h]
      | some info =>
        rw [SortedMap.find?_set]
        by_cases h : name = update.1
        . simp [h, hfind]
        . simp [h]
    rw [hset, Option.map_map]
    congr 1
    funext info
    simp only [Function.comp_apply, List.map_cons, List.mem_cons, ConfigurationUpdate.valuesOf_cons]
    by_cases h : name = update.1
    . rw [h]
      simp [hnodup.1]
    . simp only [h, if_false, false_or]

end ConfigurationService
end Emane

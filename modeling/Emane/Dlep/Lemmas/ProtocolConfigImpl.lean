import Emane.Dlep.Lemmas.IdNameMap

/-!
This module contains what holds of every protocol configuration that is loaded, and what its
modules have to observe for the signals and the messages to be consistent.
-/

namespace Emane
namespace Dlep
namespace ProtocolConfigImpl

variable {cfg : ProtocolConfigImpl} {node : SignalNode}

@[simp]
theorem idNameMap_setIdNameMap (kind kind' : Bool) (map : IdNameMap)
    : (cfg.setIdNameMap kind map).idNameMap kind' =
        if kind' = kind then map else cfg.idNameMap kind' := by
  cases kind with
  | false => cases kind' with | false => rfl | true => rfl
  | true => cases kind' with | false => rfl | true => rfl

@[simp]
theorem idInfoMap_setIdNameMap (kind kind' : Bool) (map : IdNameMap)
    : (cfg.setIdNameMap kind map).idInfoMap kind' = cfg.idInfoMap kind' := by
  cases kind with
  | false => rfl
  | true => rfl

@[simp]
theorem idNameMap_setIdInfoMap (kind kind' : Bool) (map : SortedMap SignalIdType SignalInfo)
    : (cfg.setIdInfoMap kind map).idNameMap kind' = cfg.idNameMap kind' := by
  cases kind with
  | false => rfl
  | true => rfl

@[simp]
theorem idInfoMap_setIdInfoMap (kind kind' : Bool) (map : SortedMap SignalIdType SignalInfo)
    : (cfg.setIdInfoMap kind map).idInfoMap kind' =
        if kind' = kind then map else cfg.idInfoMap kind' := by
  cases kind with
  | false => cases kind' with | false => rfl | true => rfl
  | true => cases kind' with | false => rfl | true => rfl

theorem setIdNameMap_self (kind : Bool) : cfg.setIdNameMap kind (cfg.idNameMap kind) = cfg := by
  cases kind with
  | false => rfl
  | true => rfl

structure SameBesides (cfg cfg' : ProtocolConfigImpl) : Prop where
  dataItemMap : cfg'.dataItemMap = cfg.dataItemMap
  dataItemInfoMap : cfg'.dataItemInfoMap = cfg.dataItemInfoMap
  statusCodeMap : cfg'.statusCodeMap = cfg.statusCodeMap
  statusCodeInfoMap : cfg'.statusCodeInfoMap = cfg.statusCodeInfoMap

theorem sameBesides_set (cfg : ProtocolConfigImpl) (kind : Bool) (names : IdNameMap)
    (infos : SortedMap SignalIdType SignalInfo)
    : SameBesides cfg ((cfg.setIdNameMap kind names).setIdInfoMap kind infos) := by
  cases kind with
  | false => exact ⟨rfl, rfl, rfl, rfl⟩
  | true => exact ⟨rfl, rfl, rfl, rfl⟩

def kindOf (cfg : ProtocolConfigImpl) (node : SignalNode) : Bool :=
  if node.id.isSome then node.isMessage else (cfg.signalMap.right node.name).isNone

variable {name : String} {id : SignalIdType}

theorem idNameMap_of_getSignalId {isSignal : Bool}
    (h : cfg.getSignalId name = .ok (id, isSignal))
    : (cfg.idNameMap (!isSignal)).right name = some id
        ∧ (cfg.signalMap.right name).isNone = !isSignal := by
  unfold getSignalId at h
  cases hsignal : cfg.signalMap.right name with
  | some id' =>
    rw [hsignal] at h
    cases h
    exact ⟨hsignal, rfl⟩
  | none =>
    rw [hsignal] at h
    cases hmessage : cfg.messageMap.right name with
    | some id' =>
      rw [hmessage] at h
      cases h
      exact ⟨hmessage, rfl⟩
    | none =>
      rw [hmessage] at h
      cases h

variable {cfg' : ProtocolConfigImpl} {kind : Bool}

theorem resolveSignal_cases
    (h : cfg.resolveSignal node = .ok (cfg', id, kind))
    : kind = cfg.kindOf node
        ∧ ∃ names, cfg' = cfg.setIdNameMap kind names
          ∧ (∀ id', names.left id' = if id' = id then some node.name else (cfg.idNameMap kind).left id')
          ∧ (∀ name', names.right name' =
            if name' = node.name then some id else (cfg.idNameMap kind).right name')
          ∧ ((cfg.idNameMap kind).left id = some node.name
            ∨ (cfg.idNameMap kind).left id = none ∧ (cfg.idNameMap kind).right node.name = none)
          ∧ (node.id.isSome → node.message.isSome) := by
  unfold resolveSignal at h
  cases hid : node.id with
  | some n =>
    simp only [hid] at h
    cases hmessage : node.message.isNone with
    | true =>
      rw [if_pos hmessage] at h
      cases h
    | false =>
      rw [if_neg (by simp [hmessage])] at h
      split at h
      . cases h
      . cases hmap : insertIdNameMapping (cfg.idNameMap node.isMessage) (extractId n) node.name
            (if node.isMessage then "message" else "signal") with
        | error e =>
          rw [hmap] at h
          cases h
        | ok names =>
          rw [hmap] at h
          cases h
          refine ⟨by simp [kindOf, hid], names, rfl, left_insertIdNameMapping hmap, right_insertIdNameMapping hmap, ?_, ?_⟩
          . exact (insertIdNameMapping_cases hmap).imp (fun h => h.1) (fun h => ⟨h.1, h.2.1⟩)
          . intro _
            simpa using hmessage
  | none =>
    simp only [hid] at h
    cases hget : cfg.getSignalId node.name with
    | error e =>
      rw [hget] at h
      cases h
    | ok x =>
      obtain ⟨id', isSignal⟩ := x
      rw [hget] at h
      cases h
      obtain ⟨hright, hkind⟩ := idNameMap_of_getSignalId hget
      have hleft := IdNameMap.right_iff_left.mp hright
      refine ⟨by simp [kindOf, hid, hkind], _, (setIdNameMap_self _).symm, ?_, ?_, Or.inl hleft, by simp⟩
      . intro id'
        split
        . next heq => rw [heq, hleft]
        . rfl
      . intro name'
        split
        . next heq => rw [heq, hright]
        . rfl

variable {s s' : ProtocolConfigImpl × ModuleInfo}

theorem extractModuleSignal_cases (h : extractModuleSignal s node = .ok s')
    : ∃ responseId dataItems id names info,
        s.1.extractResponse node = .ok responseId
          ∧ node.dataItems.mapM s.1.extractModuleSignalDataItem = .ok dataItems
          ∧ s'.1 = (s.1.setIdNameMap (s.1.kindOf node) names).setIdInfoMap (s.1.kindOf node)
            ((s.1.idInfoMap (s.1.kindOf node)).set id info)
          ∧ (∀ id', names.left id' =
            if id' = id then some node.name else (s.1.idNameMap (s.1.kindOf node)).left id')
          ∧ (∀ name', names.right name'
            = if name' = node.name then some id else (s.1.idNameMap (s.1.kindOf node)).right name')
          ∧ ((s.1.idNameMap (s.1.kindOf node)).left id = some node.name
            ∨ (s.1.idNameMap (s.1.kindOf node)).left id = none
              ∧ (s.1.idNameMap (s.1.kindOf node)).right node.name = none)
          ∧ (((s.1.idInfoMap (s.1.kindOf node)).find? id = none ∧ node.id.isSome
            ∧ node.message.isSome ∧ info = {
                name := node.name
                id := id
                flags := node.flags
                dataItems := dataItems
                responseId := responseId
                module := s.2.name
              })
            ∨ ∃ existing, (s.1.idInfoMap (s.1.kindOf node)).find? id = some existing
              ∧ info = existing.modify node dataItems) := by
  unfold extractModuleSignal at h
  simp only [bind, Except.bind] at h
  cases hresponse : s.1.extractResponse node with
  | error e =>
    rw [hresponse] at h
    cases h
  | ok responseId =>
    cases hitems : node.dataItems.mapM s.1.extractModuleSignalDataItem with
    | error e =>
      rw [hresponse, hitems] at h
      cases h
    | ok dataItems =>
      cases hresolve : s.1.resolveSignal node with
      | error e =>
        rw [hresponse, hitems, hresolve] at h
        cases h
      | ok x =>
        obtain ⟨cfg', id, kind⟩ := x
        rw [hresponse, hitems, hresolve] at h
        obtain ⟨hkind, names, rfl, hleft, hright, hthere, hmessage⟩ := resolveSignal_cases hresolve
        subst hkind
        simp only [storeSignal, idInfoMap_setIdNameMap] at h
        cases hfind : (s.1.idInfoMap (s.1.kindOf node)).find? id with
        | none =>
          rw [hfind] at h
          cases hid : node.id.isNone with
          | true =>
            rw [hid] at h
            cases h
          | false =>
            rw [hid] at h
            cases h
            have hsome : node.id.isSome := by simpa using hid
            exact ⟨responseId, dataItems, id, names, _, rfl, rfl, rfl, hleft, hright, hthere,
              Or.inl ⟨hfind, hsome, hmessage hsome, rfl⟩⟩
        | some existing =>
          rw [hfind] at h
          cases h
          exact ⟨responseId, dataItems, id, names, _, rfl, rfl, rfl, hleft, hright, hthere,
            Or.inr ⟨existing, hfind, rfl⟩⟩

theorem left_extractModuleSignalDataItem {nodes : List SignalDataItemNode}
    {dataItems : List DataItemForSignal}
    (h : nodes.mapM cfg.extractModuleSignalDataItem = .ok dataItems)
    : dataItems.map (fun difs => cfg.dataItemMap.left difs.id) = nodes.map
        (fun node => some node.name) := by
  have hall := mapM_eq_ok_iff.mp h
  clear h
  induction hall with
  | nil => rfl
  | @cons node difs nodes dataItems hitem _ ih =>
    unfold extractModuleSignalDataItem getDataItemId at hitem
    cases hright : cfg.dataItemMap.right node.name with
    | none =>
      rw [hright] at hitem
      cases hitem
    | some id =>
      rw [hright] at hitem
      cases hitem
      rw [List.map_cons, List.map_cons, ih, IdNameMap.right_iff_left.mp hright]

/--
What holds of every protocol configuration. An id that is given as a response is one of a signal
or of a message.
-/
structure Sound (cfg : ProtocolConfigImpl) : Prop where
  signals : ∀ kind, Agree SignalInfo.id SignalInfo.name (cfg.idNameMap kind) (cfg.idInfoMap kind)
  dataItems : Agree DataItemInfo.id DataItemInfo.name cfg.dataItemMap cfg.dataItemInfoMap
  statusCodes : Agree StatusCodeInfo.id StatusCodeInfo.name cfg.statusCodeMap cfg.statusCodeInfoMap
  listed : ∀ kind id info, (cfg.idInfoMap kind).find? id = some info →
    ∀ difs ∈ info.dataItems, (cfg.dataItemMap.left difs.id).isSome
  response : ∀ kind id info, (cfg.idInfoMap kind).find? id = some info → info.responseId ≠ 0 →
    ∃ kind', ((cfg.idNameMap kind').left info.responseId).isSome

structure Consistent (cfg : ProtocolConfigImpl) : Prop extends Sound cfg where
  disjoint : ∀ name, cfg.signalMap.right name = none ∨ cfg.messageMap.right name = none
  flag : ∀ kind id info, (cfg.idInfoMap kind).find? id = some info → info.flags.message = kind
  responseKind : ∀ kind id info, (cfg.idInfoMap kind).find? id = some info → info.responseId ≠ 0 →
    ((cfg.idNameMap kind).left info.responseId).isSome
  nodup : ∀ kind id info, (cfg.idInfoMap kind).find? id = some info
    → (info.dataItems.map (fun difs => difs.id)).Nodup

structure Careful (cfg : ProtocolConfigImpl) (node : SignalNode) : Prop where
  name : (cfg.idNameMap (!cfg.kindOf node)).right node.name = none
  message : node.message.isSome → node.isMessage = cfg.kindOf node
  response : (cfg.idNameMap (cfg.kindOf node)).right node.name = none →
    ∀ response ∈ node.response, (cfg.idNameMap (!cfg.kindOf node)).right response = none
  nodup : (node.dataItems.map (fun di => di.name)).Nodup
  fresh : ∀ id ∈ (cfg.idNameMap (cfg.kindOf node)).right node.name,
    ∀ existing ∈ (cfg.idInfoMap (cfg.kindOf node)).find? id,
    ∀ difs ∈ existing.dataItems, ∀ di ∈ node.dataItems, cfg.dataItemMap.left difs.id ≠ some di.name

instance (cfg : ProtocolConfigImpl) (node : SignalNode) : Decidable (Careful cfg node) :=
  have : Decidable (∀ id ∈ (cfg.idNameMap (cfg.kindOf node)).right node.name,
      ∀ existing ∈ (cfg.idInfoMap (cfg.kindOf node)).find? id,
      ∀ difs ∈ existing.dataItems, ∀ di ∈ node.dataItems, cfg.dataItemMap.left difs.id ≠ some di.name) :=
    Option.decidableForallMem _
  decidable_of_iff
    ((cfg.idNameMap (!cfg.kindOf node)).right node.name = none
      ∧ (node.message.isSome → node.isMessage = cfg.kindOf node)
      ∧ ((cfg.idNameMap (cfg.kindOf node)).right node.name = none →
        ∀ response ∈ node.response, (cfg.idNameMap (!cfg.kindOf node)).right response = none)
      ∧ (node.dataItems.map (fun di => di.name)).Nodup
      ∧ ∀ id ∈ (cfg.idNameMap (cfg.kindOf node)).right node.name,
        ∀ existing ∈ (cfg.idInfoMap (cfg.kindOf node)).find? id,
        ∀ difs ∈ existing.dataItems, ∀ di ∈ node.dataItems, cfg.dataItemMap.left difs.id ≠ some di.name)
    ⟨fun ⟨h₁, h₂, h₃, h₄, h₅⟩ => ⟨h₁, h₂, h₃, h₄, h₅⟩,
      fun h => ⟨h.name, h.message, h.response, h.nodup, h.fresh⟩⟩

theorem isSome_left_of_extractResponse {responseId : SignalIdType}
    (h : cfg.extractResponse node = .ok responseId)
    (hne : responseId ≠ 0)
    : ∃ response kind, node.response = some response
        ∧ (cfg.idNameMap kind).right response = some responseId := by
  unfold extractResponse at h
  cases hresponse : node.response with
  | none =>
    rw [hresponse] at h
    cases h
    exact absurd rfl hne
  | some response =>
    cases hget : cfg.getSignalId response with
    | error e =>
      simp only [hresponse, hget] at h
      cases h
    | ok x =>
      obtain ⟨id, isSignal⟩ := x
      simp only [hresponse, hget] at h
      cases h
      exact ⟨response, !isSignal, rfl, (idNameMap_of_getSignalId hget).1⟩

section

variable {kind : Bool} {names : IdNameMap} {id : SignalIdType} {name : String} {info : SignalInfo}

theorem find?_set_cases {kind' : Bool} {id' : SignalIdType} {info' : SignalInfo}
    (h : (((cfg.setIdNameMap kind names).setIdInfoMap kind
      ((cfg.idInfoMap kind).set id info)).idInfoMap kind').find? id'
      = some info')
    : (kind' = kind ∧ info' = info) ∨ (cfg.idInfoMap kind').find? id' = some info' := by
  rw [idInfoMap_setIdInfoMap] at h
  split at h
  . next hkind =>
    rw [SortedMap.find?_set] at h
    split at h
    . exact Or.inl ⟨hkind, (Option.some.inj h).symm⟩
    . rw [hkind]
      exact Or.inr h
  . rw [idInfoMap_setIdNameMap] at h
    exact Or.inr h

theorem isSome_left_set (infos : SortedMap SignalIdType SignalInfo)
    (hleft : ∀ id', names.left id' = if id' = id then some name else (cfg.idNameMap kind).left id')
    {kind' : Bool}
    {id' : SignalIdType} (h : ((cfg.idNameMap kind').left id').isSome)
    : ((((cfg.setIdNameMap kind names).setIdInfoMap kind infos).idNameMap kind').left id').isSome := by
  rw [idNameMap_setIdInfoMap, idNameMap_setIdNameMap]
  split
  . next hkind =>
    rw [hleft]
    split
    . rfl
    . rwa [hkind] at h
  . exact h

end

theorem Sound.extractModuleSignal (h : Sound s.1)
    (hstep : extractModuleSignal s node = .ok s')
    : Sound s'.1 := by
  obtain ⟨responseId, dataItems, id, names, info, hresponse, hitems, hcfg, hleft, -, hthere, hinfo⟩ :=
    extractModuleSignal_cases hstep
  have hsame := sameBesides_set s.1 (s.1.kindOf node) names
    ((s.1.idInfoMap (s.1.kindOf node)).set id info)
  rw [← hcfg] at hsame
  have hlisted : ∀ difs ∈ dataItems, (s.1.dataItemMap.left difs.id).isSome := by
    intro difs hdifs
    have hmem := List.mem_map_of_mem
      (f := fun difs : DataItemForSignal => s.1.dataItemMap.left difs.id) hdifs
    rw [left_extractModuleSignalDataItem hitems] at hmem
    obtain ⟨di, -, hdi⟩ := List.mem_map.mp hmem
    rw [← hdi]
    rfl
  have hentered : info.id = id ∧ info.name = node.name
    ∧ (∀ difs ∈ info.dataItems, (s.1.dataItemMap.left difs.id).isSome)
      ∧ (info.responseId ≠ 0 → ∃ kind', ((s.1.idNameMap kind').left info.responseId).isSome) := by
    rcases hinfo with ⟨-, -, -, rfl⟩ | ⟨existing, hfind, rfl⟩
    . refine ⟨rfl, rfl, hlisted, ?_⟩
      intro hne
      obtain ⟨_, kind', -, hright⟩ := isSome_left_of_extractResponse hresponse hne
      exact ⟨kind', by rw [IdNameMap.right_iff_left.mp hright]; rfl⟩
    . have hname := (h.signals _).left_of_find? hfind
      refine ⟨(h.signals _).id _ existing hfind, ?_, ?_, h.response _ _ existing hfind⟩
      . rcases hthere with hthere | ⟨hthere, -⟩
        . exact Option.some.inj (hname.symm.trans hthere)
        . rw [hthere] at hname
          cases hname
      . intro difs hdifs
        rcases List.mem_append.mp hdifs with hdifs | hdifs
        . exact h.listed _ _ _ hfind _ hdifs
        . exact hlisted _ hdifs
  obtain ⟨hid, hname, hinfoListed, hinfoResponse⟩ := hentered
  refine ⟨?_, ?_, ?_, ?_, ?_⟩
  . intro kind
    rw [hcfg, idNameMap_setIdInfoMap, idNameMap_setIdNameMap, idInfoMap_setIdInfoMap]
    split
    . exact (h.signals _).set hleft hid hname
    . rw [idInfoMap_setIdNameMap]
      exact h.signals kind
  . rw [hsame.dataItemMap, hsame.dataItemInfoMap]
    exact h.dataItems
  . rw [hsame.statusCodeMap, hsame.statusCodeInfoMap]
    exact h.statusCodes
  . intro kind id' info' hfind difs hdifs
    rw [hcfg] at hfind
    rw [hsame.dataItemMap]
    rcases find?_set_cases hfind with ⟨-, rfl⟩ | hfind
    . exact hinfoListed difs hdifs
    . exact h.listed _ _ _ hfind difs hdifs
  . intro kind id' info' hfind hne
    rw [hcfg] at hfind ⊢
    rcases find?_set_cases hfind with ⟨-, rfl⟩ | hfind
    . obtain ⟨kind', hkind'⟩ := hinfoResponse hne
      exact ⟨kind', isSome_left_set _ hleft hkind'⟩
    . obtain ⟨kind', hkind'⟩ := h.response _ _ _ hfind hne
      exact ⟨kind', isSome_left_set _ hleft hkind'⟩

theorem Consistent.right_other (h : Consistent cfg)
    (hname : (cfg.idNameMap kind).right name = some id)
    : (cfg.idNameMap (!kind)).right name = none := by
  cases kind with
  | false =>
    rcases h.disjoint name with hnone | hnone
    . rw [show (cfg.idNameMap false).right name = none from hnone] at hname
      cases hname
    . exact hnone
  | true =>
    rcases h.disjoint name with hnone | hnone
    . exact hnone
    . rw [show (cfg.idNameMap true).right name = none from hnone] at hname
      cases hname

theorem disjoint_of_right_other (h : ∀ kind name id, (cfg.idNameMap kind).right name = some id →
      (cfg.idNameMap (!kind)).right name = none) (name : String)
    : cfg.signalMap.right name = none ∨ cfg.messageMap.right name = none := by
  cases hright : cfg.signalMap.right name with
  | none => exact Or.inl rfl
  | some id => exact Or.inr (h false name id hright)

theorem Careful.flag_modify {existing : SignalInfo} (h : Careful cfg node)
    (dataItems : List DataItemForSignal)
    (hflag : existing.flags.message = cfg.kindOf node)
    : (existing.modify node dataItems).flags.message = cfg.kindOf node := by
  show (existing.flags.message && !node.message.isSome || node.isMessage) = cfg.kindOf node
  cases hmessage : node.message.isSome with
  | true =>
    rw [h.message hmessage]
    simp
  | false =>
    have hnone : node.isMessage = false := by
      unfold SignalNode.isMessage
      rw [Option.isSome_eq_false_iff.mp hmessage |> Option.isNone_iff_eq_none.mp]
      rfl
    rw [hflag, hnone]
    simp

theorem Careful.nodup_dataItems {dataItems : List DataItemForSignal} (h : Careful cfg node)
    (hitems : node.dataItems.mapM cfg.extractModuleSignalDataItem = .ok dataItems)
    : (dataItems.map (fun difs => difs.id)).Nodup := by
  have hnames : (node.dataItems.map (fun di => some di.name)).Nodup := by
    have hmap := h.nodup.map (Option.some_injective String)
    rwa [List.map_map] at hmap
  rw [← left_extractModuleSignalDataItem hitems] at hnames
  apply List.Nodup.of_map cfg.dataItemMap.left
  rwa [List.map_map]

theorem Consistent.extractModuleSignal (h : Consistent s.1)
    (hcareful : Careful s.1 node) (hstep : extractModuleSignal s node = .ok s')
    : Consistent s'.1 := by
  have hsound := h.toSound.extractModuleSignal hstep
  obtain ⟨responseId, dataItems, id, names, info, hresponse, hitems, hcfg, hleft, hright,
      hthere, hinfo⟩ :=
    extractModuleSignal_cases hstep
  have hentered : info.flags.message = s.1.kindOf node
      ∧ (info.responseId ≠ 0 → ((s.1.idNameMap (s.1.kindOf node)).left info.responseId).isSome)
      ∧ (info.dataItems.map (fun difs => difs.id)).Nodup := by
    rcases hinfo with ⟨hnone, -, hmessage, rfl⟩ | ⟨existing, hfind, rfl⟩
    . refine ⟨hcareful.message hmessage, ?_, hcareful.nodup_dataItems hitems⟩
      intro hne
      -- a name that is new, since there is no info
      have hnew : (s.1.idNameMap (s.1.kindOf node)).right node.name = none := by
        rcases hthere with hthere | ⟨-, hthere⟩
        . obtain ⟨info, hfind, -⟩ := (h.signals _).exists_info hthere
          rw [hnone] at hfind
          cases hfind
        . exact hthere
      obtain ⟨response, kind', hname, hright'⟩ := isSome_left_of_extractResponse hresponse hne
      have hother := hcareful.response hnew response hname
      have hkind : kind' = s.1.kindOf node := by
        by_contra hkind
        rw [Bool.eq_not.mpr hkind, hother] at hright'
        cases hright'
      rw [← hkind, IdNameMap.right_iff_left.mp hright']
      rfl
    . refine ⟨hcareful.flag_modify dataItems (h.flag _ _ existing hfind),
        h.responseKind _ _ existing hfind, ?_⟩
      have hname : (s.1.idNameMap (s.1.kindOf node)).right node.name = some id := by
        rcases hthere with hthere | ⟨hthere, -⟩
        . exact IdNameMap.right_iff_left.mpr hthere
        . rw [(h.signals _).left_of_find? hfind] at hthere
          cases hthere
      show ((existing.dataItems ++ dataItems).map (fun difs => difs.id)).Nodup
      rw [List.map_append]
      apply (h.nodup _ _ existing hfind).append (hcareful.nodup_dataItems hitems)
      intro itemId hold hnew
      obtain ⟨difs, hdifs, rfl⟩ := List.mem_map.mp hold
      obtain ⟨difs', hdifs', hsameId⟩ := List.mem_map.mp hnew
      have hmem := List.mem_map_of_mem
        (f := fun difs : DataItemForSignal => s.1.dataItemMap.left difs.id) hdifs'
      rw [left_extractModuleSignalDataItem hitems] at hmem
      obtain ⟨di, hdi, hdiName⟩ := List.mem_map.mp hmem
      apply hcareful.fresh id hname existing hfind difs hdifs di hdi
      rw [← hsameId, hdiName]
  obtain ⟨hflag, hinfoResponse, hnodup⟩ := hentered
  refine { toSound := hsound, disjoint := ?_, flag := ?_, responseKind := ?_, nodup := ?_ }
  . apply disjoint_of_right_other
    intro kind name id' hname
    rw [hcfg, idNameMap_setIdInfoMap, idNameMap_setIdNameMap] at hname ⊢
    by_cases hkind : kind = s.1.kindOf node
    . rw [if_pos hkind, hright] at hname
      rw [if_neg (by simp [hkind]), hkind]
      split at hname
      . next heq =>
        rw [heq]
        exact hcareful.name
      . exact h.right_other hname
    . rw [if_neg hkind] at hname
      have hother : (!kind) = s.1.kindOf node := Bool.not_eq.mpr hkind
      rw [if_pos hother, hright, if_neg]
      . rw [← hother]
        exact h.right_other hname
      . rintro rfl
        rw [Bool.eq_not.mpr hkind, hcareful.name] at hname
        cases hname
  . intro kind id' info' hfind
    rw [hcfg] at hfind
    rcases find?_set_cases hfind with ⟨rfl, rfl⟩ | hfind
    . exact hflag
    . exact h.flag _ _ _ hfind
  . intro kind id' info' hfind hne
    rw [hcfg] at hfind ⊢
    rcases find?_set_cases hfind with ⟨rfl, rfl⟩ | hfind
    . exact isSome_left_set _ hleft (hinfoResponse hne)
    . exact isSome_left_set _ hleft (h.responseKind _ _ _ hfind hne)
  . intro kind id' info' hfind
    rw [hcfg] at hfind
    rcases find?_set_cases hfind with ⟨-, rfl⟩ | hfind
    . exact hnodup
    . exact h.nodup _ _ _ hfind

structure SameSignals (cfg cfg' : ProtocolConfigImpl) : Prop where
  idNameMap : ∀ kind, cfg'.idNameMap kind = cfg.idNameMap kind
  idInfoMap : ∀ kind, cfg'.idInfoMap kind = cfg.idInfoMap kind

theorem SameSignals.of_eq {cfg' : ProtocolConfigImpl} (hsignal : cfg'.signalMap = cfg.signalMap)
    (hsignalInfo : cfg'.signalInfoMap = cfg.signalInfoMap) (hmessage : cfg'.messageMap = cfg.messageMap)
    (hmessageInfo : cfg'.messageInfoMap = cfg.messageInfoMap)
    : SameSignals cfg cfg' := by
  constructor
  . intro kind
    cases kind with
    | false => exact hsignal
    | true => exact hmessage
  . intro kind
    cases kind with
    | false => exact hsignalInfo
    | true => exact hmessageInfo

theorem SameSignals.refl (cfg : ProtocolConfigImpl) : SameSignals cfg cfg := by
  exact ⟨fun _ => rfl, fun _ => rfl⟩

theorem SameSignals.trans {cfg'' : ProtocolConfigImpl} (h : SameSignals cfg cfg')
    (h' : SameSignals cfg' cfg'')
    : SameSignals cfg cfg'' := by
  exact ⟨fun kind => (h'.idNameMap kind).trans (h.idNameMap kind),
    fun kind => (h'.idInfoMap kind).trans (h.idInfoMap kind)⟩

theorem Sound.of_sameSignals (h : Sound cfg) (hsame : SameSignals cfg cfg')
    (hdataItems : Agree DataItemInfo.id DataItemInfo.name cfg'.dataItemMap cfg'.dataItemInfoMap)
    (hstatusCodes : Agree StatusCodeInfo.id StatusCodeInfo.name cfg'.statusCodeMap cfg'.statusCodeInfoMap)
    (hgrows : ∀ id, (cfg.dataItemMap.left id).isSome → (cfg'.dataItemMap.left id).isSome)
    : Sound cfg' := by
  refine ⟨?_, hdataItems, hstatusCodes, ?_, ?_⟩
  . intro kind
    rw [hsame.idNameMap, hsame.idInfoMap]
    exact h.signals kind
  . intro kind id info hfind difs hdifs
    rw [hsame.idInfoMap] at hfind
    exact hgrows _ (h.listed _ _ _ hfind difs hdifs)
  . intro kind id info hfind hne
    rw [hsame.idInfoMap] at hfind
    obtain ⟨kind', hkind'⟩ := h.response _ _ _ hfind hne
    exact ⟨kind', by rw [hsame.idNameMap]; exact hkind'⟩

theorem Consistent.of_sameSignals (h : Consistent cfg) (hsound : Sound cfg')
    (hsame : SameSignals cfg cfg')
    : Consistent cfg' := by
  refine { toSound := hsound, disjoint := ?_, flag := ?_, responseKind := ?_, nodup := ?_ }
  . intro name
    have hsignal : cfg'.signalMap = cfg.signalMap := hsame.idNameMap false
    have hmessage : cfg'.messageMap = cfg.messageMap := hsame.idNameMap true
    rw [hsignal, hmessage]
    exact h.disjoint name
  . intro kind id info hfind
    rw [hsame.idInfoMap] at hfind
    exact h.flag _ _ _ hfind
  . intro kind id info hfind hne
    rw [hsame.idInfoMap] at hfind
    rw [hsame.idNameMap]
    exact h.responseKind _ _ _ hfind hne
  . intro kind id info hfind
    rw [hsame.idInfoMap] at hfind
    exact h.nodup _ _ _ hfind

theorem sound_extractModuleDataItem {node : DataItemNode} (h : Sound s.1)
    (hstep : extractModuleDataItem s node = .ok s')
    : Sound s'.1 ∧ SameSignals s.1 s'.1 := by
  unfold extractModuleDataItem at hstep
  rw [bind_eq_ok_iff] at hstep
  obtain ⟨map, hmap, hstep⟩ := hstep
  split at hstep
  . cases hstep
  . cases hstep
    have hleft := left_insertIdNameMapping hmap
    have hsame : SameSignals s.1 { s.1 with
      dataItemMap := map, dataItemInfoMap := s.1.dataItemInfoMap.set (extractId node.id) {
        name := node.name
        id := extractId node.id
        valueType := node.type
        metric := node.metric.extract
        module := s.2.name
        units := node.units
      } } := .of_eq rfl rfl rfl rfl
    refine ⟨h.of_sameSignals hsame (h.dataItems.set hleft rfl rfl) h.statusCodes ?_, hsame⟩
    intro id hid
    show (map.left id).isSome
    rw [hleft]
    split
    . rfl
    . exact hid

theorem sound_extractModuleStatusCode {node : StatusCodeNode} (h : Sound s.1)
    (hstep : extractModuleStatusCode s node = .ok s')
    : Sound s'.1 ∧ SameSignals s.1 s'.1 := by
  unfold extractModuleStatusCode at hstep
  rw [bind_eq_ok_iff] at hstep
  obtain ⟨map, hmap, hstep⟩ := hstep
  split at hstep
  . cases hstep
  . cases hstep
    have hsame : SameSignals s.1 { s.1 with
      statusCodeMap := map, statusCodeInfoMap := s.1.statusCodeInfoMap.set (extractId node.id) {
        name := node.name
        id := extractId node.id
        module := s.2.name
        failureMode := node.failureMode
      } } := .of_eq rfl rfl rfl rfl
    exact ⟨h.of_sameSignals hsame h.dataItems (h.statusCodes.set (left_insertIdNameMapping hmap) rfl rfl)
      (fun _ hid => hid), hsame⟩

def CarefulModule (cfg : ProtocolConfigImpl) (node : ModuleNode) : Prop :=
  ∀ s ∈ (node.dataItems.foldlM extractModuleDataItem (cfg, node.modinfo)).toOption,
    Meets extractModuleSignal (fun s node => Careful s.1 node) node.signals s

instance (cfg : ProtocolConfigImpl) (node : ModuleNode) : Decidable (CarefulModule cfg node) :=
  inferInstanceAs (Decidable
    (∀ s ∈ (node.dataItems.foldlM extractModuleDataItem (cfg, node.modinfo)).toOption, _))

theorem sound_extractModule {node : ModuleNode} (h : Sound cfg)
    (hstep : cfg.extractModule node = .ok cfg')
    : Sound cfg' ∧ (Consistent cfg → CarefulModule cfg node → Consistent cfg') := by
  unfold extractModule at hstep
  rw [bind_eq_ok_iff] at hstep
  obtain ⟨s₁, hdataItems, hstep⟩ := hstep
  rw [bind_eq_ok_iff] at hstep
  obtain ⟨s₂, hsignals, hstep⟩ := hstep
  rw [bind_eq_ok_iff] at hstep
  obtain ⟨s₃, hstatusCodes, hstep⟩ := hstep
  split at hstep
  . cases hstep
  . cases hstep
    have hfirst : Sound s₁.1 ∧ SameSignals cfg s₁.1 := by
      refine Ensures.of_foldlM (fun s => Sound s.1 ∧ SameSignals cfg s.1) ?_ ?_ hdataItems
      . intro s node s' hs hstep
        obtain ⟨hsound, hsame⟩ := sound_extractModuleDataItem hs.1 hstep
        exact ⟨hsound, hs.2.trans hsame⟩
      . exact ⟨h, .refl cfg⟩
    have hsecond : Sound s₂.1 :=
      Ensures.of_foldlM (fun s => Sound s.1)
        (fun s node s' hs hstep => hs.extractModuleSignal hstep) hfirst.1 hsignals
    have hthird : Sound s₃.1 ∧ SameSignals s₂.1 s₃.1 := by
      refine Ensures.of_foldlM (fun s => Sound s.1 ∧ SameSignals s₂.1 s.1) ?_ ?_ hstatusCodes
      . intro s node s' hs hstep
        obtain ⟨hsound, hsame⟩ := sound_extractModuleStatusCode hs.1 hstep
        exact ⟨hsound, hs.2.trans hsame⟩
      . exact ⟨hsecond, .refl s₂.1⟩
    have hentered : SameSignals s₃.1 { s₃.1 with moduleInfoMap := s₃.1.moduleInfoMap ++ [s₃.2] } :=
      .of_eq rfl rfl rfl rfl
    have hsound := hthird.1.of_sameSignals hentered hthird.1.dataItems hthird.1.statusCodes
      (fun _ hid => hid)
    refine ⟨hsound, ?_⟩
    intro hconsistent hcareful
    have hconsistent₁ := hconsistent.of_sameSignals hfirst.1 hfirst.2
    have hconsistent₂ : Consistent s₂.1 :=
      (hcareful s₁ (toOption_eq_some_iff.mpr hdataItems)).foldlM (fun s => Consistent s.1)
        (fun s node s' hs hnode hstep => hs.extractModuleSignal hnode hstep) hconsistent₁ hsignals
    exact hconsistent₂.of_sameSignals hsound (hthird.2.trans hentered)

theorem getSignalInfo_eq (cfg : ProtocolConfigImpl) (name : String)
    : cfg.getSignalInfo name
        =
      match ((cfg.signalInfoMap.toList.map (fun e => e.2)).find? (fun info => info.name = name)).or
        ((cfg.messageInfoMap.toList.map (fun e => e.2)).find? (fun info => info.name = name)) with
      | some info => .ok info
      | none => .error (.badSignalName name) := by
  rw [← List.find?_append, ← List.map_append]
  rfl

theorem Sound.getSignalInfo (h : Sound cfg)
    (hname : (cfg.idNameMap kind).right name = some id)
    (hother : kind = true → cfg.signalMap.right name = none)
    : ∃ info, (cfg.idInfoMap kind).find? id = some info ∧ cfg.getSignalInfo name = .ok info := by
  obtain ⟨info, hinfo, hfind⟩ := (h.signals kind).find?_name hname
  refine ⟨info, hinfo, ?_⟩
  rw [getSignalInfo_eq]
  cases kind with
  | false =>
    rw [show (cfg.signalInfoMap.toList.map (fun e => e.2)).find? (fun info => info.name = name)
      = some info from hfind]
    rfl
  | true =>
    have hnone : (cfg.signalInfoMap.toList.map (fun e => e.2)).find?
        (fun info => info.name = name) = none :=
      (h.signals false).find?_name_none (hother rfl)
    rw [hnone, show (cfg.messageInfoMap.toList.map (fun e => e.2)).find?
      (fun info => info.name = name) = some info from hfind]
    rfl

theorem Sound.exists_getSignalInfo (h : Sound cfg)
    (hname : (cfg.idNameMap kind).right name = some id)
    : ∃ info, cfg.getSignalInfo name = .ok info := by
  cases hsignal : cfg.signalMap.right name with
  | none =>
    obtain ⟨info, -, hget⟩ := h.getSignalInfo hname (fun _ => hsignal)
    exact ⟨info, hget⟩
  | some id' =>
    obtain ⟨info, -, hget⟩ := h.getSignalInfo
      (show (cfg.idNameMap false).right name = some id' from hsignal) (by simp)
    exact ⟨info, hget⟩

theorem Consistent.getSignalInfo (h : Consistent cfg)
    (hname : (cfg.idNameMap kind).right name = some id)
    : ∃ info, (cfg.idInfoMap kind).find? id = some info ∧ cfg.getSignalInfo name = .ok info := by
  apply h.toSound.getSignalInfo hname
  rintro rfl
  exact h.right_other hname

theorem Consistent.getMessageResponseName (h : Consistent cfg)
    (hname : (cfg.idNameMap kind).right name = some id)
    : ∃ response, cfg.getMessageResponseName name = .ok response := by
  obtain ⟨info, hinfo, hget⟩ := h.getSignalInfo hname
  simp only [ProtocolConfigImpl.getMessageResponseName, hget]
  by_cases hnone : info.responseId = 0
  . rw [if_pos hnone]
    exact ⟨_, rfl⟩
  . obtain ⟨response, hresponse⟩ := Option.isSome_iff_exists.mp (h.responseKind kind id info hinfo hnone)
    rw [if_neg hnone, h.flag kind id info hinfo]
    refine ⟨response, ?_⟩
    cases kind with
    | false =>
      rw [if_neg (by simp)]
      unfold getSignalName
      rw [show cfg.signalMap.left info.responseId = some response from hresponse]
    | true =>
      rw [if_pos rfl]
      unfold getMessageName
      rw [show cfg.messageMap.left info.responseId = some response from hresponse]

section

variable (signalPrefix : Bytes)
  (signalLengthSize signalIdSize dataItemLengthSize dataItemIdSize extensionIdSize : FieldSizeInBytes)

theorem idInfoMap_empty (kind : Bool)
    : (empty signalPrefix signalLengthSize signalIdSize dataItemLengthSize dataItemIdSize
        extensionIdSize).idInfoMap kind
        = .empty := by
  cases kind with
  | false => rfl
  | true => rfl

theorem consistent_empty
    : Consistent (empty signalPrefix signalLengthSize signalIdSize dataItemLengthSize dataItemIdSize
        extensionIdSize) := by
  have hnone : ∀ {kind : Bool} {id : SignalIdType} {info : SignalInfo},
      ((empty signalPrefix signalLengthSize signalIdSize dataItemLengthSize dataItemIdSize
        extensionIdSize).idInfoMap kind).find? id
        ≠ some info := by
    intro kind id info
    rw [idInfoMap_empty, SortedMap.find?_empty]
    simp
  have hsignals (kind : Bool) : Agree SignalInfo.id SignalInfo.name
      ((empty signalPrefix signalLengthSize signalIdSize dataItemLengthSize dataItemIdSize
        extensionIdSize).idNameMap kind)
      ((empty signalPrefix signalLengthSize signalIdSize dataItemLengthSize dataItemIdSize
          extensionIdSize).idInfoMap kind) := by
    cases kind with
    | false => exact .empty
    | true => exact .empty
  exact {
    signals := hsignals
    dataItems := .empty
    statusCodes := .empty
    listed := fun _ _ _ hfind => absurd hfind hnone
    response := fun _ _ _ hfind => absurd hfind hnone
    disjoint := fun _ => Or.inl rfl
    flag := fun _ _ _ hfind => absurd hfind hnone
    responseKind := fun _ _ _ hfind => absurd hfind hnone
    nodup := fun _ _ _ hfind => absurd hfind hnone
  }

theorem load_consistent {modules : List ModuleNode} {cfg : ProtocolConfigImpl}
    (h : modules.foldlM extractModule
      (empty signalPrefix signalLengthSize signalIdSize dataItemLengthSize dataItemIdSize
        extensionIdSize) = .ok cfg)
    : (Sound cfg ∧ ∀ kind name id, (cfg.idNameMap kind).right name = some id
        → ∃ info, cfg.getSignalInfo name = .ok info)
        ∧ (Meets extractModule CarefulModule modules
          (empty signalPrefix signalLengthSize signalIdSize dataItemLengthSize dataItemIdSize
            extensionIdSize) →
        Consistent cfg ∧ ∀ kind name id, (cfg.idNameMap kind).right name = some id →
          (∃ info, (cfg.idInfoMap kind).find? id = some info ∧ cfg.getSignalInfo name = .ok info)
            ∧ ∃ response, cfg.getMessageResponseName name = .ok response) := by
  have hempty := consistent_empty signalPrefix signalLengthSize signalIdSize dataItemLengthSize
    dataItemIdSize extensionIdSize
  constructor
  . have hsound := Ensures.of_foldlM Sound (fun _ _ _ hs hstep => (sound_extractModule hs hstep).1)
      hempty.toSound h
    exact ⟨hsound, fun kind name id hname => hsound.exists_getSignalInfo hname⟩
  . intro hmeets
    have hconsistent := hmeets.foldlM Consistent
      (fun _ _ _ hs hnode hstep => (sound_extractModule hs.toSound hstep).2 hs hnode) hempty h
    exact ⟨hconsistent, fun kind name id hname =>
      ⟨hconsistent.getSignalInfo hname, hconsistent.getMessageResponseName hname⟩⟩

end

def coreModule : ModuleNode where
  name := "core"
  draft := "RFC8175"
  experimentName := ""
  extensionId := 0
  dataItems := [{ name := "Status", type := .div_u8_string, id := 1, metric := .word false, units := none }]
  signals := [
    {
      name := "Session_Update_Response"
      id := some 4
      message := some (.word true)
      sender := some .both
      response := none
      dataItems := [{ name := "Status", occurs := .zeroOrOne }]
    },
    {
      name := "Session_Update"
      id := some 3
      message := some (.word true)
      sender := some .both
      response := some "Session_Update_Response"
      dataItems := []
    }
  ]
  statusCodes := [{ name := "Success", id := 0, failureMode := .continue }]

def extensionModule : ModuleNode where
  name := "extension"
  draft := ""
  experimentName := ""
  extensionId := 1
  dataItems := [{ name := "Credit_Request", type := .blank, id := 52, metric := .word false, units := none }]
  signals := [
    {
      name := "Session_Update"
      id := none
      message := none
      sender := some .modem
      response := none
      dataItems := [{ name := "Credit_Request", occurs := .zeroOrOne }]
    }
  ]
  statusCodes := []

theorem load_consistent_extension
    : ∃ cfg, [coreModule, extensionModule].foldlM extractModule (empty [] .two .two .two .two .two) = .ok cfg
        ∧ Consistent cfg := by
  have hok : ([coreModule, extensionModule].foldlM extractModule
    (empty [] .two .two .two .two .two)).isOk := by decide
  obtain ⟨cfg, hload⟩ := isOk_iff.mp hok
  exact ⟨cfg, hload, ((load_consistent [] .two .two .two .two .two hload).2 (by decide)).1⟩

def slipModule : ModuleNode where
  name := "core"
  draft := ""
  experimentName := ""
  extensionId := 0
  dataItems := [{ name := "Status", type := .div_u8_string, id := 1, metric := .word false, units := none }]
  signals := [
    {
      name := "Peer_Offer"
      id := some 2
      message := some (.word false)
      sender := some .modem
      response := none
      dataItems := []
    },
    {
      name := "Session_Update"
      id := some 3
      message := some (.word true)
      sender := some .both
      response := some "Peer_Offer"
      dataItems := [{ name := "Status", occurs := .one }]
    }
  ]
  statusCodes := []

def repeatingModule : ModuleNode where
  name := "extension"
  draft := ""
  experimentName := ""
  extensionId := 1
  dataItems := []
  signals := [
    {
      name := "Session_Update"
      id := none
      message := some (.word false)
      sender := none
      response := none
      dataItems := [{ name := "Status", occurs := .one }]
    }
  ]
  statusCodes := []

theorem not_load_consistent
    : (∃ cfg, [slipModule].foldlM extractModule (empty [] .two .two .two .two .two) = .ok cfg
          ∧ cfg.messageMap.right "Session_Update" = some 3
          ∧ cfg.getMessageResponseName "Session_Update" = .error (.badSignalId "2"))
        ∧ ∃ cfg info, [slipModule, repeatingModule].foldlM extractModule
          (empty [] .two .two .two .two .two) = .ok cfg
          ∧ cfg.messageInfoMap.find? 3 = some info ∧ info.flags.message = false
          ∧ info.dataItems.map (fun difs => difs.id) = [1, 1] := by
  exact ⟨⟨_, rfl, rfl, rfl⟩, _, _, rfl, rfl, rfl, rfl⟩

end ProtocolConfigImpl
end Dlep
end Emane

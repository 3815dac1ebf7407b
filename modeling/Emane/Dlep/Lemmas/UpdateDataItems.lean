import Emane.Dlep.Lemmas.SessionUpdate

/-!
This module contains what an update of the data items of a peer does.
-/

namespace Emane
namespace Dlep
namespace Update

open ProtocolConfigImpl

def isMetricItem (cfg : ProtocolConfigImpl) (di : DataItem) : Bool :=
  match cfg.isMetric di.id with
  | .ok metric => metric
  | .error _ => false

def isAddressItem (cfg : ProtocolConfigImpl) (di : DataItem) : Bool :=
  match cfg.isIpaddr di.id with
  | .ok ipaddr => ipaddr && !isMetricItem cfg di
  | .error _ => false

def HasType (cfg : ProtocolConfigImpl) (di : DataItem) : Prop :=
  (cfg.dataItemInfoMap.find? di.id).isSome

def Undeclared (cfg : ProtocolConfigImpl) (declared : SortedMap DataItemIdType DataItem)
    (di : DataItem) : Prop :=
  isMetricItem cfg di = true ∧ declared.find? di.id = none

def MetricsUpdated (cfg : ProtocolConfigImpl) (updates : List DataItem)
    (old new : SortedMap DataItemIdType DataItem) : Prop :=
  ∀ id, new.find? id = (updates.reverse.find? (fun di => isMetricItem cfg di && di.id = id)).or
    (old.find? id)

structure DestinationUpdated (cfg : ProtocolConfigImpl) (updates : List DataItem)
    (ddp ddp' : DestinationData) : Prop where
  metrics : MetricsUpdated cfg updates ddp.items.metricDataItems ddp'.items.metricDataItems
  ipDataItems : ddp'.items.ipDataItems = ddp.items.ipDataItems
  usingCreditWindowing : ddp'.usingCreditWindowing = ddp.usingCreditWindowing
  needsResponse : ddp'.needsResponse = ddp.needsResponse

structure Applied (cfg : ProtocolConfigImpl) (updates : List DataItem) (pdp pdp' : PeerData) : Prop where
  peerId : pdp'.peerId = pdp.peerId
  metrics : MetricsUpdated cfg updates pdp.items.metricDataItems pdp'.items.metricDataItems
  ipDataItems : pdp'.items.ipDataItems
    = (updates.filter (isAddressItem cfg)).foldl updateIpDataItems pdp.items.ipDataItems
  destinations : ∀ mac, Option.Rel (DestinationUpdated cfg updates) (pdp.destinationData.find? mac)
    (pdp'.destinationData.find? mac)

variable {cfg : ProtocolConfigImpl} {updates : List DataItem} {di : DataItem}

theorem isMetric_of_hasType (h : HasType cfg di) : cfg.isMetric di.id = .ok (isMetricItem cfg di) := by
  unfold isMetricItem isMetric
  obtain ⟨diInfo, hinfo⟩ := Option.isSome_iff_exists.mp h
  rw [hinfo]

theorem isIpaddr_of_hasType (h : HasType cfg di) (hmetric : isMetricItem cfg di = false)
    : cfg.isIpaddr di.id = .ok (isAddressItem cfg di) := by
  unfold isAddressItem isIpaddr
  obtain ⟨diInfo, hinfo⟩ := Option.isSome_iff_exists.mp h
  simp only [hinfo, hmetric, Bool.not_false, Bool.and_true]

theorem hasType_of_isMetric {metric : Bool} (h : cfg.isMetric di.id = .ok metric) : HasType cfg di := by
  unfold isMetric at h
  unfold HasType
  cases hinfo : cfg.dataItemInfoMap.find? di.id with
  | some diInfo => rfl
  | none =>
    rw [hinfo] at h
    cases h

theorem hasType_of_isMetricItem (h : isMetricItem cfg di = true) : HasType cfg di := by
  unfold isMetricItem at h
  cases hmetric : cfg.isMetric di.id with
  | ok metric => exact hasType_of_isMetric hmetric
  | error e =>
    rw [hmetric] at h
    cases h

theorem checkUpdates_cons_of_hasType (h : HasType cfg di) (declared : SortedMap DataItemIdType DataItem)
    (updates : List DataItem)
    : checkUpdates cfg declared (di :: updates)
        =
      if isMetricItem cfg di && (declared.find? di.id).isNone then .ok false else checkUpdates cfg
          declared updates := by
  rw [checkUpdates, isMetric_of_hasType h]
  cases isMetricItem cfg di with
  | true =>
    cases (declared.find? di.id).isNone with
    | true => rfl
    | false => rfl
  | false => rfl

theorem checkUpdates_cons_of_not_hasType (h : ¬HasType cfg di)
    (declared : SortedMap DataItemIdType DataItem)
    (updates : List DataItem)
    : ∃ e, checkUpdates cfg declared (di :: updates) = .error e := by
  have hnone : cfg.dataItemInfoMap.find? di.id = none := by
    simpa [HasType] using h
  refine ⟨.badDataItemId (toString di.id.toNat), ?_⟩
  rw [checkUpdates, isMetric, hnone]
  rfl

variable {declared : SortedMap DataItemIdType DataItem}

theorem undeclared_iff
    : Undeclared cfg declared di ↔ (isMetricItem cfg di && (declared.find? di.id).isNone) = true := by
  unfold Undeclared
  rw [Bool.and_eq_true, Option.isNone_iff_eq_none]

theorem checkUpdates_true_iff
    : checkUpdates cfg declared updates = .ok true ↔ ∀ di ∈ updates, HasType cfg di
        ∧ ¬Undeclared cfg declared di := by
  induction updates with
  | nil => simp [checkUpdates, pure, Except.pure]
  | cons di updates ih =>
    by_cases htype : HasType cfg di
    . rw [checkUpdates_cons_of_hasType htype]
      by_cases hundeclared : Undeclared cfg declared di
      . rw [if_pos (undeclared_iff.mp hundeclared)]
        simp [hundeclared]
      . rw [if_neg (fun h => hundeclared (undeclared_iff.mpr h)), ih]
        simp [htype, hundeclared]
    . obtain ⟨e, he⟩ := checkUpdates_cons_of_not_hasType htype declared updates
      rw [he]
      simp [htype]

theorem checkUpdates_false_iff
    : checkUpdates cfg declared updates = .ok false
        ↔
      ∃ before di after, updates = before ++ di :: after ∧ (∀ b ∈ before, HasType cfg b)
          ∧ Undeclared cfg declared di := by
  induction updates with
  | nil => simp [checkUpdates, pure, Except.pure]
  | cons di updates ih =>
    by_cases htype : HasType cfg di
    . rw [checkUpdates_cons_of_hasType htype]
      by_cases hundeclared : Undeclared cfg declared di
      . rw [if_pos (undeclared_iff.mp hundeclared)]
        exact iff_of_true rfl ⟨[], di, updates, rfl, by simp, hundeclared⟩
      . rw [if_neg (fun h => hundeclared (undeclared_iff.mpr h)), ih]
        constructor
        . rintro ⟨before, other, after, rfl, hbefore, hother⟩
          exact ⟨di :: before, other, after, rfl, List.forall_mem_cons.mpr ⟨htype, hbefore⟩, hother⟩
        . rintro ⟨before, other, after, heq, hbefore, hother⟩
          cases before with
          | nil =>
            obtain ⟨rfl, -⟩ := List.cons.inj heq
            exact absurd hother hundeclared
          | cons b before =>
            exact ⟨before, other, after, (List.cons.inj heq).2,
              (List.forall_mem_cons.mp hbefore).2, hother⟩
    . obtain ⟨e, he⟩ := checkUpdates_cons_of_not_hasType htype declared updates
      rw [he]
      refine iff_of_false (by simp) ?_
      rintro ⟨before, other, after, heq, hbefore, hother⟩
      cases before with
      | nil =>
        obtain ⟨rfl, -⟩ := List.cons.inj heq
        exact htype (hasType_of_isMetricItem hother.1)
      | cons b before =>
        obtain ⟨rfl, -⟩ := List.cons.inj heq
        exact htype (hbefore di List.mem_cons_self)

def keep (cfg : ProtocolConfigImpl) (items : Items) (di : DataItem) : Items :=
  if isMetricItem cfg di then
    { items with metricDataItems := items.metricDataItems.set di.id di }
  else if isAddressItem cfg di then
    { items with ipDataItems := updateIpDataItems items.ipDataItems di }
  else
    items

theorem updateOne_of_hasType (h : HasType cfg di) (items : Items)
    : updateOne cfg items di = (keep cfg items di, none) := by
  unfold updateOne keep
  rw [isMetric_of_hasType h]
  cases hmetric : isMetricItem cfg di with
  | true => rfl
  | false =>
    simp only [isIpaddr_of_hasType h hmetric]
    cases isAddressItem cfg di with
    | true => rfl
    | false => rfl

theorem metricsUpdated_foldl_keep (updates : List DataItem) (items : Items)
    : MetricsUpdated cfg updates items.metricDataItems
        (updates.foldl (keep cfg) items).metricDataItems := by
  intro id
  induction updates generalizing items with
  | nil => rfl
  | cons di updates ih =>
    have hone : (keep cfg items di).metricDataItems.find? id
        = ([di].find? (fun di => isMetricItem cfg di && di.id = id)).or
            (items.metricDataItems.find? id) := by
      unfold keep
      cases hmetric : isMetricItem cfg di with
      | true =>
        rw [if_pos rfl, SortedMap.find?_set]
        by_cases hid : id = di.id
        . simp [hid, hmetric]
        . simp [hid, Ne.symm hid]
      | false =>
        cases isAddressItem cfg di with
        | true => simp [hmetric]
        | false => simp [hmetric]
    rw [List.foldl_cons, ih, hone, List.reverse_cons, List.find?_append, Option.or_assoc]

theorem ipDataItems_foldl_keep (updates : List DataItem) (items : Items)
    : (updates.foldl (keep cfg) items).ipDataItems
        = (updates.filter (isAddressItem cfg)).foldl updateIpDataItems items.ipDataItems := by
  induction updates generalizing items with
  | nil => rfl
  | cons di updates ih =>
    rw [List.foldl_cons, ih, List.filter_cons]
    unfold keep
    cases hmetric : isMetricItem cfg di with
    | true =>
      have haddress : isAddressItem cfg di = false := by
        unfold isAddressItem
        rw [hmetric]
        cases cfg.isIpaddr di.id with
        | ok ipaddr => simp
        | error e => rfl
      simp [haddress]
    | false =>
      cases haddress : isAddressItem cfg di with
      | true => simp
      | false => simp

theorem foldUntil_applyOne (h : ∀ di ∈ updates, HasType cfg di) (items : Items)
    (destinationUpdates : List DataItem)
    : foldUntil (applyOne cfg) updates (items, destinationUpdates)
        = ((updates.foldl (keep cfg) items, destinationUpdates
            ++ updates.filter (isMetricItem cfg)), none) := by
  induction updates generalizing items destinationUpdates with
  | nil => simp [foldUntil]
  | cons di updates ih =>
    obtain ⟨htype, hrest⟩ := List.forall_mem_cons.mp h
    have hone : applyOne cfg (items, destinationUpdates) di
        = ((keep cfg items di, destinationUpdates ++ [di].filter (isMetricItem cfg)), none) := by
      unfold applyOne
      rw [isMetric_of_hasType htype, updateOne_of_hasType htype]
      cases hmetric : isMetricItem cfg di with
      | true => simp [hmetric]
      | false => simp [hmetric]
    rw [foldUntil, hone]
    simp only
    rw [ih hrest, List.foldl_cons, List.append_assoc, ← List.filter_append, List.singleton_append]

def keepMetrics (cfg : ProtocolConfigImpl) (updates : List DataItem) (ddp : DestinationData)
    : DestinationData :=
  { ddp with items := (updates.filter (isMetricItem cfg)).foldl (keep cfg) ddp.items }

theorem update_of_hasType (h : ∀ di ∈ updates, HasType cfg di) (ddp : DestinationData)
    : DestinationData.update cfg (updates.filter (isMetricItem cfg)) ddp
        = (keepMetrics cfg updates ddp, none) := by
  have hone : ∀ (items : Items), ∀ di ∈ updates.filter (isMetricItem cfg),
      updateOne cfg items di = (keep cfg items di, none) :=
    fun items di hdi => updateOne_of_hasType (h di (List.mem_filter.mp hdi).1) items
  rw [DestinationData.update, foldUntil_of_none hone]
  rfl

theorem destinationUpdated_keepMetrics (cfg : ProtocolConfigImpl) (updates : List DataItem)
    (ddp : DestinationData)
    : DestinationUpdated cfg updates ddp (keepMetrics cfg updates ddp) := by
  refine ⟨?_, ?_, rfl, rfl⟩
  . intro id
    unfold keepMetrics
    rw [metricsUpdated_foldl_keep, ← List.filter_reverse, List.find?_filter]
    congr 2
    funext di
    cases isMetricItem cfg di with
    | true => simp
    | false => simp
  . -- the metrics are not addresses
    have hnone : (updates.filter (isMetricItem cfg)).filter (isAddressItem cfg) = [] := by
      rw [List.filter_eq_nil_iff]
      intro di hdi haddress
      unfold isAddressItem at haddress
      rw [(List.mem_filter.mp hdi).2] at haddress
      cases hipaddr : cfg.isIpaddr di.id with
      | ok ipaddr => simp [hipaddr] at haddress
      | error e => simp [hipaddr] at haddress
    unfold keepMetrics
    rw [ipDataItems_foldl_keep, hnone]
    rfl

def keepDestination (cfg : ProtocolConfigImpl) (updates : List DataItem) (pdp : PeerData)
    (mac : DlepMac) : PeerData :=
  match pdp.destinationData.find? mac with
  | none => pdp
  | some ddp => { pdp with destinationData := pdp.destinationData.set mac (keepMetrics cfg updates ddp) }

theorem updateDestination_of_hasType (h : ∀ di ∈ updates, HasType cfg di) (pdp : PeerData) (mac : DlepMac)
    : updateDestination cfg (updates.filter (isMetricItem cfg)) pdp mac
        = (keepDestination cfg updates pdp mac, none) := by
  unfold updateDestination keepDestination
  cases pdp.destinationData.find? mac with
  | none => rfl
  | some ddp => simp only [update_of_hasType h]

theorem find?_keepDestination (cfg : ProtocolConfigImpl) (updates : List DataItem) (pdp : PeerData)
    (mac other : DlepMac)
    : (keepDestination cfg updates pdp mac).destinationData.find? other
        =
      if other = mac then
        (pdp.destinationData.find? other).map (keepMetrics cfg updates)
      else
        pdp.destinationData.find? other := by
  unfold keepDestination
  cases hfind : pdp.destinationData.find? mac with
  | none =>
    by_cases heq : other = mac
    . simp [heq, hfind]
    . simp [heq]
  | some ddp =>
    simp only [SortedMap.find?_set]
    split
    . next heq => simp [heq, hfind]
    . rfl

theorem foldl_keepDestination (cfg : ProtocolConfigImpl) (updates : List DataItem)
    {macs : List DlepMac} (hnodup : macs.Nodup)
    (pdp : PeerData)
    : (macs.foldl (keepDestination cfg updates) pdp).peerId = pdp.peerId
        ∧ (macs.foldl (keepDestination cfg updates) pdp).items = pdp.items
        ∧ ∀ mac, (macs.foldl (keepDestination cfg updates) pdp).destinationData.find? mac
          =
        if mac ∈ macs then
          (pdp.destinationData.find? mac).map (keepMetrics cfg updates)
        else
          pdp.destinationData.find? mac := by
  induction macs generalizing pdp with
  | nil => exact ⟨rfl, rfl, fun mac => by simp⟩
  | cons mac macs ih =>
    obtain ⟨hmac, hnodup⟩ := List.nodup_cons.mp hnodup
    obtain ⟨hpeerId, hitems, hfind⟩ := ih hnodup (keepDestination cfg updates pdp mac)
    have hsame : (keepDestination cfg updates pdp mac).peerId = pdp.peerId
        ∧ (keepDestination cfg updates pdp mac).items = pdp.items := by
      unfold keepDestination
      cases pdp.destinationData.find? mac with
      | none => exact ⟨rfl, rfl⟩
      | some ddp => exact ⟨rfl, rfl⟩
    refine ⟨hpeerId.trans hsame.1, hitems.trans hsame.2, fun other => ?_⟩
    rw [List.foldl_cons, hfind, find?_keepDestination]
    by_cases heq : other = mac
    . subst heq
      simp [hmac]
    . simp [heq]

theorem nodup_getDestinations (pdp : PeerData) : pdp.getDestinations.Nodup := by
  unfold PeerData.getDestinations List.Nodup
  rw [List.pairwise_map]
  exact pdp.destinationData.sorted.imp (fun hlt => ne_of_lt hlt)

theorem mem_getDestinations_iff (pdp : PeerData) (mac : DlepMac)
    : mac ∈ pdp.getDestinations ↔ (pdp.destinationData.find? mac).isSome := by
  unfold PeerData.getDestinations
  rw [List.mem_map, Option.isSome_iff_exists]
  constructor
  . rintro ⟨⟨mac, ddp⟩, hmem, rfl⟩
    exact ⟨ddp, (SortedMap.find?_eq_some_iff _ _ _).mpr hmem⟩
  . rintro ⟨ddp, hddp⟩
    exact ⟨(mac, ddp), (SortedMap.find?_eq_some_iff _ _ _).mp hddp, rfl⟩

theorem applyUpdates_of_hasType (h : ∀ di ∈ updates, HasType cfg di) (pdp : PeerData)
    : ∃ pdp', applyUpdates cfg updates pdp = (pdp', none) ∧ Applied cfg updates pdp pdp' := by
  have hmetrics := @metricsUpdated_foldl_keep cfg updates pdp.items
  have haddresses := @ipDataItems_foldl_keep cfg updates pdp.items
  unfold applyUpdates
  rw [foldUntil_applyOne h, List.nil_append]
  simp only
  split
  . next hempty =>
    refine ⟨_, rfl, rfl, hmetrics, haddresses, fun mac => ?_⟩
    have hsame (ddp : DestinationData) : DestinationUpdated cfg updates ddp ddp := by
      have hkeep := destinationUpdated_keepMetrics cfg updates ddp
      unfold keepMetrics at hkeep
      rw [List.isEmpty_iff.mp hempty] at hkeep
      exact hkeep
    cases hfind : pdp.destinationData.find? mac with
    | none => exact .none
    | some ddp => exact .some (hsame ddp)
  . obtain ⟨hpeerId, hitems, hfind⟩ := foldl_keepDestination cfg updates (nodup_getDestinations pdp)
      { pdp with items := updates.foldl (keep cfg) pdp.items }
    rw [foldUntil_of_none (fun pdp mac _ => updateDestination_of_hasType h pdp mac)]
    refine ⟨_, rfl, hpeerId, ?_, ?_, fun mac => ?_⟩
    . rw [hitems]
      exact hmetrics
    . rw [hitems]
      exact haddresses
    . rw [hfind]
      simp only [mem_getDestinations_iff]
      cases pdp.destinationData.find? mac with
      | none => exact .none
      | some ddp => exact .some (destinationUpdated_keepMetrics cfg updates ddp)

theorem applyUpdates_eq_updateDataItems {scfg : SessionConfig} (h : ∀ di ∈ updates, HasType cfg di)
    (hmetric : ∀ di ∈ updates, scfg.isMetric di.id = isMetricItem cfg di)
    (haddress : ∀ di ∈ updates, isMetricItem cfg di = false → scfg.isIpaddr di.id = isAddressItem cfg di)
    {pdp : PeerData} (hdeclared : ∀ di ∈ updates, ¬Undeclared cfg pdp.items.metricDataItems di)
    : pdp.updateDataItems scfg updates = (.success, (applyUpdates cfg updates pdp).1) := by
  have hone : ∀ items, ∀ di ∈ updates, keep cfg items di = items.updateOne scfg di := by
    intro items di hdi
    unfold keep Items.updateOne
    rw [hmetric di hdi]
    cases hm : isMetricItem cfg di with
    | true => rfl
    | false => rw [haddress di hdi hm]
  have hitems : updates.foldl (keep cfg) pdp.items = pdp.items.update scfg updates :=
    List.foldl_ext _ _ _ hone
  have hmetrics : updates.filter (fun di => scfg.isMetric di.id) = updates.filter (isMetricItem cfg) :=
    List.filter_congr hmetric
  have hany : ¬ updates.any
      (fun di => scfg.isMetric di.id && (pdp.items.metricDataItems.find? di.id).isNone) = true := by
    rw [List.any_eq_true]
    rintro ⟨di, hdi, hund⟩
    rw [hmetric di hdi] at hund
    exact hdeclared di hdi (undeclared_iff.mpr hund)
  have hdestination : ∀ pdp mac,
    (pdp.updateDestination scfg mac (updates.filter (isMetricItem cfg))).getD pdp
      = keepDestination cfg updates pdp mac := by
    intro pdp mac
    unfold PeerData.updateDestination keepDestination
    cases pdp.destinationData.find? mac with
    | none => rfl
    | some ddp =>
      have hitems : (updates.filter (isMetricItem cfg)).foldl (keep cfg) ddp.items
          = ddp.items.update scfg (updates.filter (isMetricItem cfg)) :=
        List.foldl_ext _ _ _ (fun items di hdi => hone items di (List.mem_filter.mp hdi).1)
      simp only [Option.getD_some, keepMetrics, hitems]
      rfl
  unfold PeerData.updateDataItems applyUpdates
  rw [if_neg hany, foldUntil_applyOne h, List.nil_append]
  simp only [hmetrics, hitems]
  split
  . rfl
  . rw [foldUntil_of_none (fun pdp mac _ => updateDestination_of_hasType h pdp mac)]
    simp only [PeerData.updateAllDestinations, hdestination]
    rfl

/--
With a metric that has not been declared there is an error and nothing changes. Otherwise the
update is applied, and every peer that is in session is told of it, once, if this is asked for.
-/
def Propagates (cfg : ProtocolConfigImpl) (modem : Bool) (now : Nat) (node : Node)
    (updates : List DataItem) (tellPeers : Bool)
    : Prop :=
  ((∃ di ∈ updates, Undeclared cfg node.pdp.items.metricDataItems di) →
      ∃ status, status ≠ .success ∧ updateDataItems cfg modem now node updates tellPeers
        = (node, .ok status))
    ∧ ((∀ di ∈ updates, ¬Undeclared cfg node.pdp.items.metricDataItems di) →
    ∃ node', updateDataItems cfg modem now node updates tellPeers = (node', .ok .success)
      ∧ Applied cfg updates node.pdp node'.pdp
      ∧ List.Forall₂ (fun peer peer' =>
        (tellPeers = true ∧ peer.pstate = .inSession → Told cfg updates peer peer')
        ∧ (¬(tellPeers = true ∧ peer.pstate = .inSession) → peer' = peer)) node.peers node'.peers)

/--
The first metric that has not been declared comes before any id that has no type. If there is no
such metric then all ids have types, and every peer that has to be told can be.
-/
def Acceptable (cfg : ProtocolConfigImpl) (node : Node) (updates : List DataItem) (tellPeers : Bool)
    : Prop :=
  (∃ before di after, updates = before ++ di :: after ∧ (∀ b ∈ before, HasType cfg b)
      ∧ Undeclared cfg node.pdp.items.metricDataItems di)
    ∨ (∀ di ∈ updates, HasType cfg di ∧ ¬Undeclared cfg node.pdp.items.metricDataItems di)
    ∧ (tellPeers = true → ∀ peer ∈ node.peers, peer.pstate = .inSession → Tellable cfg updates peer)

theorem peerUpdate_of_not_inSession {peer : Peer} (h : peer.pstate ≠ .inSession)
    (modem : Bool) (now : Nat)
    (updates : List DataItem)
    : Peer.peerUpdate cfg modem now peer updates = (peer, none) := by
  unfold Peer.peerUpdate
  rw [if_neg h]

theorem tellsAll_iff (h : Sound cfg) (htypes : ∀ di ∈ updates, HasType cfg di) (modem : Bool)
    (now : Nat) (peers : List Peer)
    : (∃ peers', mapUntil (fun peer => Peer.peerUpdate cfg modem now peer updates) peers = (peers', none)
          ∧ List.Forall₂ (fun peer peer' => (peer.pstate = .inSession → Told cfg updates peer peer')
            ∧ (peer.pstate ≠ .inSession → peer' = peer)) peers peers')
        ↔ ∀ peer ∈ peers, peer.pstate = .inSession → Tellable cfg updates peer := by
  simp only [mapUntil_eq_none_iff]
  constructor
  . rintro ⟨peers', hcalls, htold⟩ peer hpeer hsession
    obtain ⟨peer', -, hcall, htold⟩ := exists_of_mem_left (hcalls.mp (fun _ _ => And.intro) htold) hpeer
    exact (told_peerUpdate_iff h htypes modem now hsession).mp ⟨peer', hcall, htold.1 hsession⟩
  . intro htellable
    induction peers with
    | nil => exact ⟨[], .nil, .nil⟩
    | cons peer peers ih =>
      obtain ⟨hpeer, hrest⟩ := List.forall_mem_cons.mp htellable
      obtain ⟨peers', hcalls, htold⟩ := ih hrest
      by_cases hsession : peer.pstate = .inSession
      . obtain ⟨peer', hcall, htold'⟩ := (told_peerUpdate_iff h htypes modem now hsession).mpr
          (hpeer hsession)
        exact ⟨peer' :: peers', .cons hcall hcalls,
          .cons ⟨fun _ => htold', fun hnot => absurd hsession hnot⟩ htold⟩
      . exact ⟨peer :: peers', .cons (peerUpdate_of_not_inSession hsession modem now updates) hcalls,
          .cons ⟨fun hin => absurd hin hsession, fun _ => rfl⟩ htold⟩

theorem propagates_of_sound (h : Sound cfg) (modem : Bool) (now : Nat) (node : Node)
    (updates : List DataItem) (tellPeers : Bool)
    : Propagates cfg modem now node updates tellPeers ↔ Acceptable cfg node updates tellPeers := by
  unfold Propagates Acceptable
  rw [← checkUpdates_false_iff]
  by_cases hundeclared : ∃ di ∈ updates, Undeclared cfg node.pdp.items.metricDataItems di
  . have hnot : ¬ ∀ di ∈ updates, ¬Undeclared cfg node.pdp.items.metricDataItems di := by
      obtain ⟨di, hdi, hund⟩ := hundeclared
      exact fun hall => hall di hdi hund
    have hnot' : ¬ ∀ di ∈ updates, HasType cfg di ∧ ¬Undeclared cfg node.pdp.items.metricDataItems di :=
      fun hall => hnot (fun di hdi => (hall di hdi).2)
    simp only [hundeclared, hnot, hnot', forall_true_left, false_implies, and_true, false_and, or_false]
    unfold updateDataItems
    cases hcheck : checkUpdates cfg node.pdp.items.metricDataItems updates with
    | error e => simp
    | ok declared =>
      cases declared with
      | false => simp
      | true => exact absurd (checkUpdates_true_iff.mp hcheck) hnot'
  . have hnone : ∀ di ∈ updates, ¬Undeclared cfg node.pdp.items.metricDataItems di :=
      fun di hdi hund => hundeclared ⟨di, hdi, hund⟩
    have hfalse : checkUpdates cfg node.pdp.items.metricDataItems updates ≠ .ok false := by
      rw [Ne, checkUpdates_false_iff]
      rintro ⟨before, di, after, rfl, -, hund⟩
      exact hundeclared ⟨di, by simp, hund⟩
    have hall : (∀ di ∈ updates, HasType cfg di ∧ ¬Undeclared cfg node.pdp.items.metricDataItems di)
        ↔ ∀ di ∈ updates, HasType cfg di :=
      ⟨fun h di hdi => (h di hdi).1, fun h di hdi => ⟨h di hdi, hnone di hdi⟩⟩
    simp only [hundeclared, false_implies, true_and, hfalse, false_or, hall]
    rw [forall_prop_of_true hnone]
    unfold updateDataItems
    by_cases htypes : ∀ di ∈ updates, HasType cfg di
    . obtain ⟨pdp', happly, happlied⟩ := applyUpdates_of_hasType htypes node.pdp
      rw [checkUpdates_true_iff.mpr (hall.mpr htypes)]
      simp only [happly]
      cases tellPeers with
      | false =>
        refine iff_of_true ⟨_, rfl, happlied, List.forall₂_same.mpr (fun peer _ => ?_)⟩
          ⟨htypes, fun h => absurd h Bool.false_ne_true⟩
        exact ⟨fun h => absurd h.1 Bool.false_ne_true, fun _ => rfl⟩
      | true =>
        rw [if_pos rfl, forall_prop_of_true rfl, ← tellsAll_iff h htypes modem now node.peers]
        simp only [true_and]
        constructor
        . rintro ⟨node', hcalls, -, htold⟩
          refine ⟨htypes, ?_⟩
          rcases hloop : mapUntil (fun peer => Peer.peerUpdate cfg modem now peer updates)
            node.peers with ⟨peers', _ | e⟩
          . rw [hloop] at hcalls
            cases hcalls
            exact ⟨peers', rfl, htold⟩
          . rw [hloop] at hcalls
            cases (Prod.mk.inj hcalls).2
        . rintro ⟨-, peers', hcalls, htold⟩
          rw [hcalls]
          exact ⟨_, rfl, happlied, htold⟩
    . refine iff_of_false ?_ (fun h => htypes h.1)
      rintro ⟨node', hcalls, -⟩
      cases hcheck : checkUpdates cfg node.pdp.items.metricDataItems updates with
      | error e =>
        rw [hcheck] at hcalls
        cases (Prod.mk.inj hcalls).2
      | ok declared =>
        cases declared with
        | false => exact hfalse hcheck
        | true => exact htypes (hall.mp (checkUpdates_true_iff.mp hcheck))

theorem updateDataItems_propagates_iff (signalPrefix : Bytes)
    (signalLengthSize signalIdSize dataItemLengthSize dataItemIdSize extensionIdSize : FieldSizeInBytes)
    {modules : List ModuleNode}
    (h : modules.foldlM extractModule
      (.empty signalPrefix signalLengthSize signalIdSize dataItemLengthSize dataItemIdSize
        extensionIdSize) = .ok cfg)
    (modem : Bool) (now : Nat) (node : Node) (updates : List DataItem) (tellPeers : Bool)
    : Propagates cfg modem now node updates tellPeers ↔ Acceptable cfg node updates tellPeers := by
  have hsound :=
    (load_consistent signalPrefix signalLengthSize signalIdSize dataItemLengthSize dataItemIdSize
    extensionIdSize h).1.1
  exact propagates_of_sound hsound modem now node updates tellPeers

def sessionModule : ModuleNode where
  name := "core"
  draft := "RFC8175"
  experimentName := ""
  extensionId := 0
  dataItems := [
    { name := "Status", type := .div_u8_string, id := 1, metric := .word false, units := none },
    { name := "Peer_Type", type := .div_u8_string, id := 4, metric := .word false, units := none },
    { name := "MAC_Address", type := .div_dlepmac, id := 7, metric := .word false, units := none },
    { name := "Latency", type := .div_u64, id := 16, metric := .word true, units := some .microseconds }
  ]
  signals := [
    {
      name := "Session_Update_Response"
      id := some 4
      message := some (.word true)
      sender := some .both
      response := none
      dataItems := [{ name := "Status", occurs := .zeroOrOne }]
    },
    {
      name := "Session_Update"
      id := some 3
      message := some (.word true)
      sender := some .both
      response := some "Session_Update_Response"
      dataItems := [{ name := "Latency", occurs := .zeroOrOne }]
    }
  ]
  statusCodes := [{ name := "Success", id := 0, failureMode := .continue }]

def latencyItems : Items where
  metricDataItems := SortedMap.empty.set 16 ⟨16, .div_u64 40⟩
  ipDataItems := []

def latencyNode : Node where
  pdp := {
    peerId := none
    destinationData := SortedMap.empty.set [2, 0, 0, 0, 0, 1]
      { items := latencyItems, usingCreditWindowing := false, needsResponse := none }
    items := latencyItems
  }
  peers := [{ pstate := .inSession, responsesPending := .empty, notInterestedDestinations := [], sent := [] }]

theorem updateDataItems_propagates_iff_latency
    : Propagates (Wire.ProtocolMessage.loaded [sessionModule]) true 0 latencyNode
        [⟨16, .div_u64 10⟩, ⟨16, .div_u64 20⟩] true := by
  have hload : [sessionModule].foldlM extractModule (.empty [] .two .two .two .two .two)
      = .ok (Wire.ProtocolMessage.loaded [sessionModule]) := rfl
  apply (updateDataItems_propagates_iff [] .two .two .two .two .two hload true 0 latencyNode _ true).mpr
  right
  refine ⟨?_, fun _ => ?_⟩
  . intro di hdi
    simp only [List.mem_cons, List.not_mem_nil, or_false] at hdi
    rcases hdi with rfl | rfl
    . exact ⟨rfl, fun hund => by cases hund.2⟩
    . exact ⟨rfl, fun hund => by cases hund.2⟩
  . intro peer hpeer _
    obtain rfl := List.mem_singleton.mp hpeer
    refine ⟨⟨false, 3, [[0, 16, 0, 8, 0, 0, 0, 0, 0, 0, 0, 10],
      [0, 16, 0, 8, 0, 0, 0, 0, 0, 0, 0, 20]], ?_, ?_⟩, [], rfl, by simp⟩
    . exact ⟨rfl, by decide, by decide, by decide, .cons rfl (.cons rfl .nil), fun _ => ⟨by decide, by decide, by decide⟩⟩
    . exact ⟨_, rfl, by decide, rfl⟩

theorem length_serialize_text {cfg : ProtocolConfig} {id : DataItemIdType} {field1 : UInt8}
    {field2 buf : Bytes}
    (h : DataItem.serialize cfg ⟨id, .div_u8_string field1 field2⟩ = .ok buf)
    : field2.length < buf.length := by
  obtain ⟨valbuf, hvalue, rfl, -⟩ := DataItem.serialize_cases h
  cases hvalue
  have hsize := cfg.dataItemIdSize.property.1
  rw [List.length_append, List.length_append, List.length_append, BigEndian.length_digits]
  omega

theorem not_updateDataItems_propagates
    : (∃ di, (∀ other ∈ [⟨16, .div_u64 10⟩, di],
            ¬Undeclared (Wire.ProtocolMessage.loaded [sessionModule]) latencyItems.metricDataItems other)
          ∧ ¬ Propagates (Wire.ProtocolMessage.loaded [sessionModule]) true 0 latencyNode
            [⟨16, .div_u64 10⟩, di] true)
        ∧ ¬ Propagates (Wire.ProtocolMessage.loaded [sessionModule]) true 0 latencyNode
            [⟨99, .div_u64 10⟩] true := by
  have hload : [sessionModule].foldlM extractModule (.empty [] .two .two .two .two .two)
      = .ok (Wire.ProtocolMessage.loaded [sessionModule]) := rfl
  have hsound := (load_consistent [] .two .two .two .two .two hload).1.1
  constructor
  . let di : DataItem := ⟨4, .div_u8_string 0 (List.replicate 65531 120)⟩
    have hnone : ∀ other ∈ [⟨16, .div_u64 10⟩, di],
        ¬Undeclared (Wire.ProtocolMessage.loaded [sessionModule]) latencyItems.metricDataItems other := by
      intro other hother hund
      simp only [List.mem_cons, List.not_mem_nil, or_false] at hother
      rcases hother with rfl | rfl
      . cases hund.2
      . cases hund.1
    refine ⟨di, hnone, ?_⟩
    rw [propagates_of_sound hsound]
    rintro (⟨before, other, after, heq, -, hund⟩ | ⟨-, htellable⟩)
    . exact hnone other (by rw [heq]; simp) hund
    . obtain ⟨isSignal, id, bufs, hwritable, -⟩ := (htellable rfl _ (List.mem_singleton.mpr rfl) rfl).message
      obtain ⟨first, second, hfirst, hsecond, rfl⟩ : ∃ first second,
          DataItem.serialize (Wire.ProtocolMessage.loaded
            [sessionModule]).toMessageConfig.toProtocolConfig ⟨16, .div_u64 10⟩
            = .ok first
            ∧ DataItem.serialize (Wire.ProtocolMessage.loaded
              [sessionModule]).toMessageConfig.toProtocolConfig di = .ok second
            ∧ bufs = [first, second] := by
        cases hwritable.serialized with
        | cons hfirst hrest =>
          cases hrest with
          | cons hsecond hnil =>
            cases hnil
            exact ⟨_, _, hfirst, hsecond, rfl⟩
      obtain rfl : [0, 16, 0, 8, 0, 0, 0, 0, 0, 0, 0, 10] = first := Except.ok.inj hfirst
      -- with the latency there are 65548 bytes, the length has two bytes
      have hlong := length_serialize_text hsecond
      have hlt : _ < 65536 := (hwritable.fits (List.cons_ne_nil _ _)).2.1
      simp only [List.flatten_cons, List.flatten_nil, List.length_append, List.length_cons,
        List.length_nil] at hlt
      rw [List.length_replicate] at hlong
      omega
  . rw [propagates_of_sound hsound]
    rintro (⟨before, other, after, heq, -, hund⟩ | ⟨htypes, -⟩)
    . have hmem : other ∈ [(⟨99, .div_u64 10⟩ : DataItem)] := by
        rw [heq]
        simp
      obtain rfl := List.mem_singleton.mp hmem
      cases hund.1
    . cases (htypes ⟨99, .div_u64 10⟩ (List.mem_singleton.mpr rfl)).1

end Update
end Dlep
end Emane

import Emane.Dlep.Lemmas.AdvertItems
import Emane.Dlep.Lemmas.NodeOutcome
import Emane.Dlep.Lemmas.DestAdvertRun

/-!
This module contains what the calls of the sessions make of the advertisement of the node, and
what the node advertises of itself in every run.
-/

namespace Emane
namespace Dlep

open DataItem

structure Latest (updates dataItems : List DataItem) : Prop where
  once : ∀ k, about k dataItems = [] ∨ ∃ di, about k dataItems = [di]
    ∧ (about k updates).getLast? = some di
  there : ∀ di ∈ updates, di.ipKey.isSome = true → ∃ other ∈ dataItems, other.ipEqual di = true

theorem Latest.nil : Latest [] [] := by
  constructor
  . exact fun k => Or.inl rfl
  . simp

namespace OwnAdvert

theorem replaceDataitem_eq (di : DataItem) (dataItems : List DataItem)
    : replaceDataitem di dataItems = dataItems.filter (fun other => !other.ipEqual di) ++ [di] := by
  unfold replaceDataitem
  simp only
  rw [foldl_filter_ne]
  congr 1
  apply List.filter_congr
  intro other hother
  simp [hother]

theorem about_append (k : IpKey) (dataItems dataItems' : List DataItem)
    : about k (dataItems ++ dataItems') = about k dataItems ++ about k dataItems' := by
  exact List.filter_append ..

theorem about_singleton (k : IpKey) (di : DataItem)
    : about k [di] = if di.ipKey = some k then [di] else [] := by
  unfold about
  rw [List.filter_singleton]
  split
  . next h => rw [decide_eq_true h, cond_true]
  . next h => rw [decide_eq_false h, cond_false]

theorem about_filter_eq_nil {k : IpKey} {di : DataItem} (hk : di.ipKey = some k)
    (dataItems : List DataItem)
    : about k (dataItems.filter (fun other => !other.ipEqual di)) = [] := by
  unfold about
  rw [List.filter_eq_nil_iff]
  intro other hother
  rw [decide_eq_true_eq]
  intro hkey
  have hequal : other.ipEqual di = true := (ipEqual_iff other di).mpr (Or.inl ⟨k, hkey, hk⟩)
  have hkept := (List.mem_filter.mp hother).2
  rw [hequal] at hkept
  cases hkept

theorem latest_replaceDataitem {updates dataItems : List DataItem} (h : Latest updates dataItems)
    (di : DataItem)
    : Latest (updates ++ [di]) (replaceDataitem di dataItems) := by
  rw [replaceDataitem_eq]
  constructor
  . intro k
    rw [about_append, about_append, about_singleton]
    by_cases hk : di.ipKey = some k
    . rw [if_pos hk, about_filter_eq_nil hk]
      exact Or.inr ⟨di, rfl, by simp⟩
    . rw [if_neg hk, List.append_nil, List.append_nil]
      have hsublist : (about k (dataItems.filter (fun other => !other.ipEqual di))).Sublist
          (about k dataItems) :=
        List.filter_sublist.filter _
      rcases h.once k with hnil | ⟨di', hone, hlast⟩
      . rw [hnil] at hsublist
        exact Or.inl (List.sublist_nil.mp hsublist)
      . rw [hone] at hsublist
        rcases List.sublist_singleton.mp hsublist with hnil | hsame
        . exact Or.inl hnil
        . exact Or.inr ⟨di', hsame, hlast⟩
  . intro di' hdi' hkey
    rcases List.mem_append.mp hdi' with hold | hnew
    . obtain ⟨other, hother, hequal⟩ := h.there di' hold hkey
      cases hreplaced : other.ipEqual di with
      | true =>
        refine ⟨di, by simp, ?_⟩
        rw [ipEqual_comm] at hreplaced
        exact ipEqual_trans hreplaced hequal
      | false => exact ⟨other, by simp [hother, hreplaced], hequal⟩
    . obtain rfl := List.mem_singleton.mp hnew
      obtain ⟨k, hk⟩ := Option.isSome_iff_exists.mp hkey
      exact ⟨di', by simp, (ipEqual_iff di' di').mpr (Or.inl ⟨k, hk, hk⟩)⟩

theorem mem_addDestination (own : OwnAdvert) (mac mac' : DlepMac)
    : (own.addDestination mac).destinations.contains mac' = true ↔ mac' = mac
        ∨ own.destinations.contains mac' = true := by
  unfold addDestination SortedMap.contains
  rw [SortedMap.find?_insert]
  split
  . next heq => simp [heq]
  . next hne => simp [hne]

theorem addDataitems {cfg : AdvertConfig} {dataItems : List DataItem}
    (hnamed : ∀ di ∈ dataItems, (selfDataItems cfg di).isSome = true) (own : OwnAdvert)
    : ∃ own', (dataItems.map Call.advertAddDataitem).foldlM (perform cfg) own = some own'
        ∧ own'.destinations = own.destinations
        ∧ ∀ kind updates, Latest updates (own.localPeerDataItems kind) →
            Latest (updates ++ dataItems.filter (fun di => selfDataItems cfg di = some kind))
                (own'.localPeerDataItems kind) := by
  induction dataItems generalizing own with
  | nil => exact ⟨own, rfl, rfl, fun kind updates h => by simpa using h⟩
  | cons di dataItems ih =>
    obtain ⟨kind, hkind⟩ := Option.isSome_iff_exists.mp (hnamed di List.mem_cons_self)
    have hperform : ∃ own₁, perform cfg own (.advertAddDataitem di) = some own₁
      ∧ own₁.destinations = own.destinations
        ∧ ∀ kind', own₁.localPeerDataItems kind' =
            if kind' = kind then replaceDataitem di (own.localPeerDataItems kind)
                else own.localPeerDataItems kind' := by
      simp only [perform, addDataitem, hkind, Option.map_some]
      exact ⟨_, rfl, rfl, fun _ => rfl⟩
    obtain ⟨own₁, hown₁, hdestinations, hlists⟩ := hperform
    obtain ⟨own', hown', hdestinations', hlatest⟩ := ih
      (fun di hdi => hnamed di (List.mem_cons_of_mem _ hdi)) own₁
    refine ⟨own', ?_, hdestinations'.trans hdestinations, ?_⟩
    . rw [List.map_cons, List.foldlM_cons, hown₁]
      exact hown'
    . intro kind' updates hupdates
      by_cases heq : kind' = kind
      . have hnew := latest_replaceDataitem hupdates di
        rw [heq] at hnew ⊢
        have hlist := hlists kind
        rw [if_pos rfl] at hlist
        rw [← hlist] at hnew
        have hrest := hlatest kind _ hnew
        rw [List.append_assoc] at hrest
        rw [List.filter_cons_of_pos (by simp [hkind])]
        exact hrest
      . have hlist := hlists kind'
        rw [if_neg heq] at hlist
        rw [← hlist] at hupdates
        rw [List.filter_cons_of_neg (by simp [hkind, Ne.symm heq])]
        exact hlatest kind' updates hupdates

theorem clearDestinations_replicate (cfg : AdvertConfig) (cleared : Nat) (own : OwnAdvert)
    : (List.replicate cleared Call.advertClearDestinations).foldlM (perform cfg) own
        =
      some (if cleared = 0 then own else own.clearDestinations) := by
  induction cleared generalizing own with
  | zero => rfl
  | succ cleared ih =>
    have hperform : perform cfg own .advertClearDestinations = some own.clearDestinations := rfl
    rw [List.replicate_succ, List.foldlM_cons, hperform, Option.bind_eq_bind, Option.bind_some, ih,
      if_neg (Nat.succ_ne_zero cleared)]
    split
    . rfl
    . rfl

theorem foldlM_perform_filter (cfg : AdvertConfig) (calls : List Call) (own : OwnAdvert)
    : (calls.filter Call.concernsAdvert).foldlM (perform cfg) own = calls.foldlM (perform cfg) own := by
  induction calls generalizing own with
  | nil => rfl
  | cons c calls ih =>
    cases hc : c.concernsAdvert with
    | true =>
      rw [List.filter_cons_of_pos hc, List.foldlM_cons]
      exact congrArg _ (funext ih)
    | false =>
      rw [List.filter_cons_of_neg (by simp [hc]), ih]
      cases c with
      | peerUpdate _ _ => cases hc
      | advertAddDestination _ => cases hc
      | advertAddDataitem _ => cases hc
      | advertClearDestinations => cases hc
      | _ => rfl

end OwnAdvert

def Call.updates : Call → List DataItem
  | .peerUpdate _ dataItems => dataItems
  | _ => []

theorem flatMap_updates_filter (calls : List Call)
    : (calls.filter Call.concernsAdvert).flatMap Call.updates = calls.flatMap Call.updates := by
  induction calls with
  | nil => rfl
  | cons c calls ih =>
    cases hc : c.concernsAdvert with
    | true => rw [List.filter_cons_of_pos hc, List.flatMap_cons, List.flatMap_cons, ih]
    | false =>
      rw [List.filter_cons_of_neg (by simp [hc]), List.flatMap_cons, ih]
      cases c with
      | peerUpdate _ _ => cases hc
      | _ => rfl

namespace Node

open DestAdvert.Watched (rfc8175Advert)

def state (d : Node) (number : Nat) : Option PeerState :=
  (d.objects[number]?).map (fun p => p.pstate)

def updates (d : Node) : List DataItem :=
  d.calls.flatMap Call.updates

def Ends (d d' : Node) (number : Nat) : Prop :=
  d'.state number = some .terminating ∧ d.state number ≠ some .terminating

section

variable (cfg : AdvertConfig) (macOf : Nat → DlepMac)

structure Advertises (d : Node) (own : OwnAdvert) : Prop where
  destinations : ∀ mac, own.destinations.contains mac = true
    ↔ ∃ number, d.state number = some .inSession ∧ macOf number = mac
  lists : ∀ kind, Latest (d.updates.filter (fun di => OwnAdvert.selfDataItems cfg di = some kind))
    (own.localPeerDataItems kind)

/--
All data items of an update have one of the names with a list, the address of a peer is found when
its session comes up, and no session ends while that of another peer is up.
-/
structure Advertisable (d : Node) (e : Env × Event) : Prop where
  named : ∀ number pm, e.2 = .receive number (some pm) → pm.name = .sessionUpdate
    → d.accepts cfg.toSessionConfig e.1 number pm →
    ∀ di ∈ pm.dataItems, (OwnAdvert.selfDataItems cfg di).isSome = true
  found : ∀ number pm, e.2 = .receive number (some pm) → pm.name = .sessionInitialization →
    d.accepts cfg.toSessionConfig e.1 number pm → e.1.peerMac = some (macOf number)
  alone : ∀ d' number, handle cfg.toSessionConfig d e.1 e.2 = .ok d' → d.Ends d' number
    → ∀ other, d'.state other ≠ some .inSession

end

theorem getElem?_outline (d : Node) (number : Nat) : d.outline.states[number]? = d.state number := by
  simp [outline, state]

theorem updates_outline (d : Node) : d.updates = d.outline.calls.flatMap Call.updates := by
  exact (flatMap_updates_filter d.calls).symm

theorem ownAdvert_outline (cfg : AdvertConfig) (d : Node)
    : d.ownAdvert cfg = d.outline.calls.foldlM (OwnAdvert.perform cfg) .init := by
  exact (OwnAdvert.foldlM_perform_filter cfg d.calls .init).symm

theorem ownAdvert_append {cfg : AdvertConfig} {d d' : Node} {calls : List Call} {own : OwnAdvert}
    (hcalls : d'.outline.calls = d.outline.calls ++ calls) (hown : d.ownAdvert cfg = some own)
    : d'.ownAdvert cfg = calls.foldlM (OwnAdvert.perform cfg) own := by
  rw [ownAdvert_outline] at hown ⊢
  rw [hcalls, List.foldlM_append, hown]
  rfl

theorem updates_append {d d' : Node} {calls : List Call}
    (hcalls : d'.outline.calls = d.outline.calls ++ calls)
    : d'.updates = d.updates ++ calls.flatMap Call.updates := by
  rw [updates_outline, updates_outline, hcalls, List.flatMap_append]

theorem enter_states (o : NodeOutline) (event : Event) {pstate : PeerState}
    (hpstate : pstate ≠ .connected) (number : Nat)
    : (o.enter event).states[number]? = some pstate ↔ o.states[number]? = some pstate := by
  cases event with
  | connect peerId =>
    unfold NodeOutline.enter
    rw [List.getElem?_append]
    split
    . rfl
    . next hge =>
      rw [List.getElem?_eq_none (Nat.le_of_not_lt hge), List.getElem?_singleton]
      split
      . simp [Ne.symm hpstate]
      . rfl
  | _ => rfl

theorem enter_calls (o : NodeOutline) (event : Event) : (o.enter event).calls = o.calls := by
  cases event with
  | _ => rfl

variable {cfg : AdvertConfig} {macOf : Nat → DlepMac} {d d' : Node} {own : OwnAdvert}

theorem advertises_subsides {event : Event} (hown : d.ownAdvert cfg = some own)
    (hadvertises : d.Advertises cfg macOf own)
    (h : (d.outline.enter event).Subsides d'.outline)
    (halone : ∀ number, d.Ends d' number → ∀ other, d'.state other ≠ some .inSession)
    : ∃ own', d'.ownAdvert cfg = some own' ∧ d'.Advertises cfg macOf own' := by
  obtain ⟨cleared, hcalls, hstates, hended⟩ := h.spec
  rw [enter_calls] at hcalls
  have hupdates : d'.updates = d.updates := by
    rw [updates_append hcalls]
    simp [Call.updates]
  have hperformed := ownAdvert_append hcalls hown
  rw [OwnAdvert.clearDestinations_replicate] at hperformed
  refine ⟨_, hperformed, ?_⟩
  by_cases hcleared : cleared = 0
  . rw [if_pos hcleared]
    refine ⟨fun mac => ?_, ?_⟩
    . rw [hadvertises.destinations]
      have hsame : ∀ number, d'.state number = some .inSession ↔ d.state number = some .inSession := by
        intro number
        rw [← getElem?_outline, ← getElem?_outline, ← enter_states d.outline event (by decide)]
        rcases hstates number with heq | ⟨_, _, hne⟩
        . rw [heq]
        . exact absurd hcleared hne
      simp only [hsame]
    . rw [hupdates]
      exact hadvertises.lists
  . rw [if_neg hcleared]
    obtain ⟨number, hterminating, hbefore⟩ := hended hcleared
    have hnone : ∀ other, d'.state other ≠ some .inSession := by
      apply halone number
      rw [getElem?_outline] at hterminating
      refine ⟨hterminating, ?_⟩
      rw [Ne, enter_states d.outline event (by decide), getElem?_outline] at hbefore
      exact hbefore
    refine ⟨fun mac => ?_, ?_⟩
    . constructor
      . intro hcontains
        cases hcontains
      . rintro ⟨other, hother, -⟩
        exact absurd hother (hnone other)
    . rw [hupdates]
      exact hadvertises.lists

theorem advertises_initialized {env : Env} {number : Nat} {pm : ProtocolMessage}
    (hown : d.ownAdvert cfg = some own)
    (hadvertises : d.Advertises cfg macOf own) (haccepts : d.accepts cfg.toSessionConfig env number pm)
    (hfound : env.peerMac = some (macOf number))
    (h : d'.outline = {
      states := d.outline.states.set number .inSession
      calls := d.outline.calls ++ env.peerMac.toList.map .advertAddDestination })
    : ∃ own', d'.ownAdvert cfg = some own' ∧ d'.Advertises cfg macOf own' := by
  obtain ⟨-, p, hp, -⟩ := haccepts
  rw [hfound] at h
  have hcalls : d'.outline.calls = d.outline.calls
    ++ [.advertAddDestination (macOf number)] := by rw [h]; rfl
  refine ⟨own.addDestination (macOf number), ownAdvert_append hcalls hown, fun mac => ?_, ?_⟩
  . have hstate : ∀ other, d'.state other = some .inSession ↔ other = number
        ∨ d.state other = some .inSession := by
      intro other
      rw [← getElem?_outline, ← getElem?_outline, h]
      by_cases heq : other = number
      . have hlt : number < d.outline.states.length :=
          (List.getElem?_eq_some_iff.mp (outline_session hp).1).1
        simp [heq, List.getElem?_set_self hlt]
      . simp [heq, List.getElem?_set_ne (Ne.symm heq)]
    rw [OwnAdvert.mem_addDestination, hadvertises.destinations]
    simp only [hstate]
    constructor
    . rintro (rfl | ⟨other, hother, hmac⟩)
      . exact ⟨number, Or.inl rfl, rfl⟩
      . exact ⟨other, Or.inr hother, hmac⟩
    . rintro ⟨other, rfl | hother, hmac⟩
      . exact Or.inl hmac.symm
      . exact Or.inr ⟨other, hother, hmac⟩
  . have hupdates : d'.updates = d.updates := by
      rw [updates_append hcalls]
      simp [Call.updates]
    rw [hupdates]
    exact hadvertises.lists

theorem advertises_updated {peerId : PeerId} {dataItems : List DataItem}
    (hown : d.ownAdvert cfg = some own)
    (hadvertises : d.Advertises cfg macOf own)
    (hnamed : ∀ di ∈ dataItems, (OwnAdvert.selfDataItems cfg di).isSome = true)
    (h : d'.outline = { d.outline with calls := d.outline.calls ++ Session.updated peerId dataItems })
    : ∃ own', d'.ownAdvert cfg = some own' ∧ d'.Advertises cfg macOf own' := by
  have hcalls : d'.outline.calls = d.outline.calls ++ Session.updated peerId dataItems := by rw [h]
  obtain ⟨own', hown', hdestinations, hlatest⟩ := OwnAdvert.addDataitems hnamed own
  refine ⟨own', ?_, fun mac => ?_, fun kind => ?_⟩
  . rw [ownAdvert_append hcalls hown]
    exact hown'
  . have hstate : ∀ number, d'.state number = d.state number := by
      intro number
      rw [← getElem?_outline, ← getElem?_outline, h]
    rw [hdestinations, hadvertises.destinations]
    simp only [hstate]
  . have hupdates : d'.updates = d.updates ++ dataItems := by
      rw [updates_append hcalls]
      have hnone : (dataItems.map Call.advertAddDataitem).flatMap Call.updates
        = [] := by simp [Call.updates]
      unfold Session.updated
      rw [List.flatMap_cons, hnone, List.append_nil]
      rfl
    rw [hupdates, List.filter_append]
    exact hlatest kind _ (hadvertises.lists kind)

theorem advertises_handle (hmodem : cfg.modem = true) {e : Env × Event} (hown : d.ownAdvert cfg = some own)
    (hadvertises : d.Advertises cfg macOf own) (hok : d.Advertisable cfg macOf e)
    (hhandle : handle cfg.toSessionConfig d e.1 e.2 = .ok d')
    : ∃ own', d'.ownAdvert cfg = some own' ∧ d'.Advertises cfg macOf own' := by
  obtain ⟨env, event⟩ := e
  have houtcome := (handle_outcome env hmodem cfg.enabled d event).of_ok hhandle
  cases houtcome with
  | subsides h => exact advertises_subsides hown hadvertises h (fun number hends => hok.alone d' number hhandle hends)
  | initialized hname haccepts h =>
    exact advertises_initialized hown hadvertises haccepts (hok.found _ _ rfl hname haccepts) h
  | updated hname haccepts h => exact advertises_updated hown hadvertises (hok.named _ _ rfl hname haccepts) h

theorem advertises_init (cfg : AdvertConfig) (macOf : Nat → DlepMac) (localPdp : PeerData)
    : (init localPdp).Advertises cfg macOf .init := by
  constructor
  . simp [init, state, OwnAdvert.init, SortedMap.contains]
  . exact fun kind => .nil

theorem own_advert_in_guarded_runs (cfg : AdvertConfig) (hmodem : cfg.modem = true)
    (macOf : Nat → DlepMac) (localPdp : PeerData)
    {events : List (Env × Event)}
    (hguarded : Guarded (stepAdvertising cfg) (fun d e => d.Advertisable cfg macOf e)
      (init localPdp) events)
    {fed later : List (Env × Event)} (heq : events = fed ++ later) {d : Node}
    (hrun : run (stepAdvertising cfg) (init localPdp) fed = some d)
    : (∃ own, d.ownAdvert cfg = some own ∧ d.Advertises cfg macOf own)
        ∧ ∀ e rest, later = e :: rest → d.handleAdvertising cfg e.1 e.2 ≠ .error .nullDataItems := by
  rw [heq, guarded_append_iff] at hguarded
  have hinv : ∃ own, d.ownAdvert cfg = some own ∧ d.Advertises cfg macOf own := by
    refine @run_inv _ _ _ _ (fun d => ∃ own, d.ownAdvert cfg = some own
      ∧ d.Advertises cfg macOf own) ?_ _ _ _ ?_ hguarded.1 hrun
    . rintro s e s' ⟨own, hown, hadvertises⟩ hok hstep
      have hhandle : handle cfg.toSessionConfig s e.1 e.2 = .ok s' := by
        have hok' : handleAdvertising cfg s e.1 e.2 = .ok s' := toOption_eq_some_iff.mp hstep
        unfold handleAdvertising at hok'
        split at hok'
        . cases hok'
        . next d'' hd'' =>
          split at hok'
          . rw [hd'', Except.ok.inj hok']
          . cases hok'
      exact advertises_handle hmodem hown hadvertises hok hhandle
    . exact ⟨.init, rfl, advertises_init cfg macOf localPdp⟩
  refine ⟨hinv, ?_⟩
  rintro e rest rfl hnull
  obtain ⟨own, hown, hadvertises⟩ := hinv
  have hok : d.Advertisable cfg macOf e := (hguarded.2 d hrun).1
  unfold handleAdvertising at hnull
  split at hnull
  . cases hnull
  . next d' hd' =>
    obtain ⟨own', hown', -⟩ := advertises_handle hmodem hown hadvertises hok hd'
    rw [hown', Option.isSome_some, if_pos rfl] at hnull
    cases hnull

def keepsUp (cfg : AdvertConfig) (macOf : Nat → DlepMac) (d : Node) (e : Env × Event) : Bool :=
  (match e.2 with
    | .receive number (some pm) =>
      (pm.name ≠ .sessionUpdate || pm.dataItems.all (fun di => (OwnAdvert.selfDataItems cfg di).isSome))
        && (pm.name ≠ .sessionInitialization || e.1.peerMac = some (macOf number))
    | _ => true)
  && (handle cfg.toSessionConfig d e.1 e.2).toOption.all
    (fun d' => !d'.outline.states.contains .terminating)

theorem advertisable_of_keepsUp {e : Env × Event} (h : d.keepsUp cfg macOf e = true)
    : d.Advertisable cfg macOf e := by
  unfold keepsUp at h
  rw [Bool.and_eq_true] at h
  obtain ⟨hmessage, hstates⟩ := h
  constructor
  . intro number pm hevent hname _ di hdi
    simp only [hevent, hname, Bool.and_eq_true, Bool.or_eq_true, List.all_eq_true] at hmessage
    exact (hmessage.1.resolve_left (by simp)) di hdi
  . intro number pm hevent hname _
    simp only [hevent, hname, Bool.and_eq_true, Bool.or_eq_true] at hmessage
    simpa using hmessage.2
  . intro d' number hhandle hends
    rw [hhandle] at hstates
    have hnone : PeerState.terminating ∉ d'.outline.states := by simpa [Except.toOption] using hstates
    have hstate := hends.1
    rw [← getElem?_outline] at hstate
    exact absurd (List.mem_of_getElem? hstate) hnone

def lookupEnv (peerMac : DlepMac) : Env :=
  { quietEnv with peerMac := some peerMac }

def itemsMessage (dataItems : List DataItem) : ProtocolMessage where
  name := .sessionUpdate
  dataItems := dataItems

theorem length_advertisedAddress : ([10, 0, 0, 1] : Bytes).length = 4 := by
  rfl

def advertisedAddress : DataItem :=
  ⟨8, .div_u8_ipv4 1 ⟨[10, 0, 0, 1], length_advertisedAddress⟩⟩

def advertisingNode : Node :=
  .init (.create rfc8175Advert.toSessionConfig none [])

def advertisedPeer (peerId : PeerId) (number : Nat) (peerMac : DlepMac) : List (Env × Event) :=
  [(quietEnv, .connect peerId), (lookupEnv peerMac, .receive number (some initializationMessage))]

theorem own_advert_in_guarded_runs_update
    : ∃ d, run (stepAdvertising rfc8175Advert) advertisingNode
          (advertisedPeer 1 0 [2, 0, 0, 0, 0, 1]
            ++ [(quietEnv, .receive 0 (some (itemsMessage [advertisedAddress])))]) = some d
        ∧ ∃ own, d.ownAdvert rfc8175Advert = some own
            ∧ d.Advertises rfc8175Advert (fun _ => [2, 0, 0, 0, 0, 1]) own := by
  have hdefined : (run (stepAdvertising rfc8175Advert) advertisingNode
      (advertisedPeer 1 0 [2, 0, 0, 0, 0, 1]
          ++ [(quietEnv, .receive 0 (some (itemsMessage [advertisedAddress])))])).isSome
          = true := by
    decide +kernel
  obtain ⟨d, hrun⟩ := Option.isSome_iff_exists.mp hdefined
  refine ⟨d, hrun, (own_advert_in_guarded_runs rfc8175Advert rfl (fun _ => [2, 0, 0, 0, 0, 1])
    (.create rfc8175Advert.toSessionConfig none []) ?_ (List.append_nil _).symm hrun).1⟩
  exact Guarded.mono (fun _ _ => advertisable_of_keepsUp)
    (show Guarded (stepAdvertising rfc8175Advert)
      (fun d e => d.keepsUp rfc8175Advert (fun _ => [2, 0, 0, 0, 0, 1]) e = true) advertisingNode
      (advertisedPeer 1 0 [2, 0, 0, 0, 0, 1]
        ++ [(quietEnv, .receive 0 (some (itemsMessage [advertisedAddress])))]) by decide +kernel)

def metricItem : DataItem :=
  ⟨12, .div_u64 1000⟩

def twoAdvertised : List (Env × Event) :=
  advertisedPeer 1 0 [2, 0, 0, 0, 0, 1] ++ advertisedPeer 2 1 [2, 0, 0, 0, 0, 2]
    ++ [(quietEnv, .receive 0 (some terminationMessage))]

theorem not_own_advert_in_all_runs
    : (∃ d, run (stepAdvertising rfc8175Advert) advertisingNode
        (advertisedPeer 1 0 [2, 0, 0, 0, 0, 1]) = some d
          ∧ d.handleAdvertising rfc8175Advert quietEnv
            (.receive 0 (some (itemsMessage [metricItem]))) = .error .nullDataItems)
        ∧ ∃ d own, run (stepAdvertising rfc8175Advert) advertisingNode twoAdvertised = some d
          ∧ d.ownAdvert rfc8175Advert = some own
          ∧ d.state 1 = some .inSession
          ∧ own.destinations.contains [2, 0, 0, 0, 0, 2] = false := by
  constructor
  . have hmap : (run (stepAdvertising rfc8175Advert) advertisingNode
        (advertisedPeer 1 0 [2, 0, 0, 0, 0, 1])).map (fun d =>
        (d.handleAdvertising rfc8175Advert quietEnv
          (.receive 0 (some (itemsMessage [metricItem])))).map (fun _ => ()))
          = some (.error .nullDataItems) := by
      rfl
    obtain ⟨d, hrun, hd⟩ := Option.map_eq_some_iff.mp hmap
    refine ⟨d, hrun, ?_⟩
    cases hstep : d.handleAdvertising rfc8175Advert quietEnv
        (.receive 0 (some (itemsMessage [metricItem]))) with
    | ok after =>
      rw [hstep] at hd
      cases hd
    | error fault =>
      rw [hstep] at hd
      rw [Except.error.inj hd]
  . have hmap : (run (stepAdvertising rfc8175Advert) advertisingNode twoAdvertised).map (fun d =>
        ((d.ownAdvert rfc8175Advert).map (fun own => own.destinations.contains [2, 0, 0, 0, 0, 2]),
          d.state 1))
          = some (some false, some .inSession) := by
      decide +kernel
    obtain ⟨d, hrun, hd⟩ := Option.map_eq_some_iff.mp hmap
    obtain ⟨hown, hstate⟩ := Prod.mk.inj hd
    obtain ⟨own, hown, hcontains⟩ := Option.map_eq_some_iff.mp hown
    exact ⟨d, own, hrun, hown, hstate, hcontains⟩

end Node
end Dlep
end Emane

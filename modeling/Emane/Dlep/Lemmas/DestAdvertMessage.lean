import Emane.Dlep.Lemmas.AddDataItem
import Emane.Dlep.Lemmas.DestAdvertRun

/-!
This module contains which datagrams the destination advertisement gets over: it fails on a data
item that it can not read, and it takes data items that are not about addresses.
-/

namespace Emane
namespace Dlep

namespace SessionConfig

variable (cfg : SessionConfig) (mac : DlepMac)

def carries (name : MessageName) (dataItems : List DataItem) (status : Option StatusName) : Bool :=
  (Outgoing.create cfg name (some mac) dataItems status).isOk

def carriesUp (dataItems : List DataItem) (name : MessageName) : Bool :=
  cfg.carries mac name dataItems (cfg.commonStatus name)

def carriesDown : Bool :=
  cfg.carries mac .destinationDown [] none

theorem carries_iff {name : MessageName} {dataItems statusItems : List DataItem}
    {status : Option StatusName} {macItem : DataItem} {id : SignalIdType} {isSignal : Bool}
    (hmac : cfg.addMac mac = .ok macItem)
    (hstatus : status.toList.mapM cfg.addStatus = .ok statusItems)
    (hname : cfg.getSignalId name.text = .ok (id, isSignal))
    (hmemory : ∀ bufs, Wire.Serialized cfg.toMessageConfig ([macItem] ++ dataItems ++ statusItems) bufs
      → (Wire.headerStart cfg.toMessageConfig isSignal id).length + cfg.signalLengthSize.val
        + bufs.flatten.length ≤ Wire.maxVectorSize)
    : cfg.carries mac name dataItems status = true
        ↔ ∃ bufs, Wire.ProtocolMessage.Carried cfg.toMessageConfig id
            ([macItem] ++ dataItems ++ statusItems) bufs := by
  rw [← Wire.ProtocolMessage.exists_build_iff hname hmemory]
  have hmacs : (some mac).toList.mapM cfg.addMac = .ok [macItem] := by
    simp [hmac, pure, Except.pure, bind, Except.bind]
  unfold carries Outgoing.create Outgoing.build
  simp only [hmacs, hstatus, bind, Except.bind]
  cases Wire.build cfg.toMessageConfig name.text ([macItem] ++ dataItems ++ statusItems) with
  | error e => simp [throw, throwThe, MonadExceptOf.throw, Except.isOk, Except.toBool]
  | ok pm => simp [pure, Except.pure, Except.isOk, Except.toBool]

theorem carries_exact (name : MessageName) (dataItems : List DataItem) (status : Option StatusName)
    : Ensures (Outgoing.create cfg name (some mac) dataItems status)
        (fun message => message = ⟨name, some mac, status, dataItems⟩
          ∧ cfg.carries mac name dataItems status = true)
        (fun _ => cfg.carries mac name dataItems status = false) := by
  unfold carries
  cases hcreate : Outgoing.create cfg name (some mac) dataItems status with
  | ok message => exact .ok ⟨Outgoing.eq_of_create hcreate, rfl⟩
  | error fault => exact .error rfl

end SessionConfig

namespace Peer

variable (cfg : SessionConfig) (mac : DlepMac) (p : Peer)

def upName : Option MessageName :=
  p.peerPdp.map (fun pdp => (pdp.needsResponse mac).getD (Session.destinationUpName cfg))

def takesUp (dataItems : List DataItem) : Bool :=
  (p.upName cfg mac).any (cfg.carriesUp mac dataItems)

end Peer

namespace Session

variable {ctx : Context}

theorem sendMessageExpectingResponse_ok {message : Outgoing}
    (hresponds : ((ctx.cfg.signalInfo message.name).bind (fun info => info.response)).isSome)
    (s : Session)
    : Ensures (s.sendMessageExpectingResponse ctx message)
        (fun s' => s'.peer.peerPdp = s.peer.peerPdp) (fun _ => False) := by
  obtain ⟨responseName, hresponse⟩ := Option.isSome_iff_exists.mp hresponds
  rw [Option.bind_eq_some_iff] at hresponse
  obtain ⟨info, hinfo, hresponse⟩ := hresponse
  have hname : ctx.cfg.getMessageResponseName message.name = .ok (some responseName) := by
    unfold SessionConfig.getMessageResponseName SessionConfig.getSignalInfo
    rw [hinfo, ← hresponse]
    rfl
  have hpdp := s.sendMessageExpectingResponse_peerPdp ctx message
  unfold sendMessageExpectingResponse ResponsePending.create at hpdp ⊢
  rw [hname] at hpdp ⊢
  exact .ok (hpdp.of_ok rfl)

theorem needsResponse_clear (pdp : PeerData) (mac mac' : DlepMac)
    : (pdp.setNeedsResponse mac none).needsResponse mac' =
        if mac' = mac then none else pdp.needsResponse mac' := by
  unfold PeerData.setNeedsResponse PeerData.needsResponse
  split
  . next ddp hddp =>
    simp only [SortedMap.find?_set]
    split
    . rfl
    . rfl
  . next hnone =>
    split
    . next heq =>
      rw [heq, hnone]
      rfl
    . rfl

variable {cfg : AdvertConfig}

theorem destinationUp_exact (ctx : Context) (hcfg : ctx.cfg = cfg.toSessionConfig) (mac : DlepMac)
    (dataItems : List DataItem) (s : Session)
    : Ensures (s.destinationUp ctx mac dataItems)
        (fun s' => s.peer.takesUp ctx.cfg mac dataItems = true
          ∧ s'.peer.upName ctx.cfg mac = some (destinationUpName ctx.cfg)
          ∧ ∀ mac', mac' ≠ mac → s'.peer.upName ctx.cfg mac' = s.peer.upName ctx.cfg mac')
        (fun _ => s.peer.takesUp ctx.cfg mac dataItems = false) := by
  have hresponds : ((ctx.cfg.signalInfo (destinationUpName ctx.cfg)).bind
      (fun info => info.response)).isSome := by
    unfold destinationUpName
    rw [hcfg]
    split
    . next hannounce =>
      apply cfg.responds
      rw [Bool.and_eq_true] at hannounce
      exact Or.inr (Or.inr ⟨rfl, hannounce.2⟩)
    . exact cfg.responds _ (Or.inl rfl)
  unfold destinationUp peerPdp Peer.takesUp Peer.upName
  cases hpdp : s.peer.peerPdp with
  | none => exact .error rfl
  | some pdp =>
    simp only [Option.map_some, Option.any_some]
    apply Ensures.bind_of_eq rfl
    split
    . next responseName hneeds =>
      simp only [hneeds, Option.getD_some]
      apply (ctx.cfg.carries_exact mac responseName dataItems _).bind
      rintro message ⟨-, hcarries⟩
      have hpdp' : ((s.setPdp (pdp.setNeedsResponse mac none)).call (.send message)).peer.peerPdp
          = some (pdp.setNeedsResponse mac none) := rfl
      refine .ok ⟨hcarries, ?_, ?_⟩
      . rw [hpdp', Option.map_some, needsResponse_clear, if_pos rfl]
        rfl
      . intro mac' hne
        rw [hpdp', Option.map_some, needsResponse_clear, if_neg hne]
    . next hneeds =>
      simp only [hneeds, Option.getD_none]
      apply (ctx.cfg.carries_exact mac (destinationUpName ctx.cfg) dataItems _).bind
      rintro message ⟨rfl, hcarries⟩
      apply (sendMessageExpectingResponse_ok hresponds s).mono _ (fun _ => False.elim)
      intro s' hpdp'
      rw [hpdp', hpdp]
      exact ⟨hcarries, by rw [Option.map_some, hneeds]; rfl, fun _ _ => rfl⟩

theorem destinationDown_exact (ctx : Context) (hcfg : ctx.cfg = cfg.toSessionConfig) (mac : DlepMac)
    (s : Session)
    : Ensures (s.destinationDown ctx mac) (fun _ => ctx.cfg.carriesDown mac = true)
        (fun _ => ctx.cfg.carriesDown mac = false) := by
  apply (ctx.cfg.carries_exact mac .destinationDown [] none).bind
  rintro message ⟨rfl, hcarries⟩
  apply (sendMessageExpectingResponse_ok ?_ s).mono (fun _ _ => hcarries) (fun _ => False.elim)
  rw [hcfg]
  exact cfg.responds _ (Or.inr (Or.inl rfl))

end Session

namespace Node

section

variable (cfg : SessionConfig) (mac : DlepMac) (dataItems : List DataItem)

def upName (d : Node) (number : Nat) : Option (Option MessageName) :=
  (d.objects[number]?).map (Peer.upName cfg mac)

/--
A peer that is told a second time owes no response any more.
-/
def Admits (numbers : List Nat) (name : Nat → Option (Option MessageName)) : Prop :=
  (∀ number ∈ numbers, (name number).all (fun name => name.any (cfg.carriesUp mac dataItems)) = true)
    ∧ ((numbers.filter (fun number => (name number).isSome)).Nodup
    ∨ cfg.carriesUp mac dataItems (Session.destinationUpName cfg) = true)

def takesUp (d : Node) : Bool :=
  d.peerList.all (fun e => e.2.takesUp cfg mac dataItems)
    && (decide (d.peerList.map (fun e => e.1)).Nodup || cfg.carriesUp mac dataItems
      (Session.destinationUpName cfg))

def takesDown (d : Node) : Bool :=
  d.peerList.isEmpty || cfg.carriesDown mac

def numbers (d : Node) : List Nat :=
  d.peers.toList.map (fun e => e.2)

variable {cfg mac dataItems}

theorem map_fst_peerList (d : Node) : d.peerList.map (fun e => e.1) = d.numbers.filter
    (fun number => (d.objects[number]?).isSome) := by
  unfold peerList numbers
  generalize d.peers.toList = entries
  induction entries with
  | nil => rfl
  | cons e entries ih =>
    rw [List.filterMap_cons, List.map_cons, List.filter_cons]
    cases d.objects[e.2]? with
    | none => simpa using ih
    | some p => simpa using ih

theorem takesUp_iff {d : Node} : d.takesUp cfg mac dataItems = true
    ↔ Admits cfg mac dataItems d.numbers (d.upName cfg mac) := by
  have hsome : ∀ number, (d.upName cfg mac number).isSome = (d.objects[number]?).isSome := by
    intro number
    unfold upName
    rw [Option.isSome_map]
  have hall : d.peerList.all (fun e => e.2.takesUp cfg mac dataItems) = true
      ↔ ∀ number ∈ d.numbers, (d.upName cfg mac number).all
          (fun name => name.any (cfg.carriesUp mac dataItems)) = true := by
    rw [List.all_eq_true]
    constructor
    . intro htakes number hnumber
      unfold upName
      cases hp : d.objects[number]? with
      | none => rfl
      | some p => exact htakes (number, p) (mem_peerList.mpr ⟨hnumber, hp⟩)
    . rintro hnames ⟨number, p⟩ hmem
      obtain ⟨hnumber, hp⟩ := mem_peerList.mp hmem
      have hname := hnames number hnumber
      unfold upName at hname
      rw [hp] at hname
      exact hname
  unfold takesUp Admits
  rw [Bool.and_eq_true, Bool.or_eq_true, decide_eq_true_eq, hall, map_fst_peerList]
  simp only [hsome]

theorem admits_cons {numbers : List Nat} {number : Nat}
    {name name' : Nat → Option (Option MessageName)} {first : Option MessageName}
    (hfirst : name number = some first)
    (htold : name' number = some (some (Session.destinationUpName cfg)))
    (hothers : ∀ number', number' ≠ number → name' number' = name number')
    : Admits cfg mac dataItems (number :: numbers) name
        ↔ first.any (cfg.carriesUp mac dataItems) = true ∧ Admits cfg mac dataItems numbers name' := by
  have hsome : ∀ number', (name' number').isSome = (name number').isSome := by
    intro number'
    by_cases heq : number' = number
    . rw [heq, htold, hfirst]
      rfl
    . rw [hothers number' heq]
  have hhead : (name number).all (fun name => name.any (cfg.carriesUp mac dataItems)) = first.any
      (cfg.carriesUp mac dataItems) := by
    rw [hfirst]
    rfl
  have hagain : (name' number).all (fun name => name.any (cfg.carriesUp mac dataItems))
      = cfg.carriesUp mac dataItems (Session.destinationUpName cfg) := by
    rw [htold]
    rfl
  have hmem : ∀ {l : List Nat}, number ∈ l → number ∈ l.filter (fun number => (name number).isSome) := by
    intro l hl
    rw [List.mem_filter, hfirst]
    exact ⟨hl, rfl⟩
  unfold Admits
  simp only [hsome, List.filter_cons, hfirst, Option.isSome_some, ↓reduceIte, List.nodup_cons,
    List.forall_mem_cons]
  constructor
  . rintro ⟨⟨hone, hall⟩, honce⟩
    refine ⟨hone, ?_, honce.imp (fun hnodup => hnodup.2) id⟩
    intro number' hnumber'
    by_cases heq : number' = number
    . subst heq
      rw [hagain]
      exact honce.resolve_left (fun hnodup => hnodup.1 (hmem hnumber'))
    . rw [hothers number' heq]
      exact hall number' hnumber'
  . rintro ⟨hone, hall, honce⟩
    refine ⟨⟨hone, ?_⟩, ?_⟩
    . intro number' hnumber'
      by_cases heq : number' = number
      . rw [heq, hhead]
        exact hone
      . rw [← hothers number' heq]
        exact hall number' hnumber'
    . by_cases hin : number ∈ numbers
      . have hup := hall number hin
        rw [hagain] at hup
        exact Or.inr hup
      . refine honce.imp (fun hnodup => ⟨?_, hnodup⟩) id
        exact fun hmem' => hin (List.mem_filter.mp hmem').1

end

section

variable (cfg : AdvertConfig) (env : Env) (mac : DlepMac) (dataItems : List DataItem)

structure Unchanged (cfg : SessionConfig) (mac : DlepMac) (d d' : Node) : Prop where
  peers : d'.peers = d.peers
  localPdp : d'.localPdp = d.localPdp
  upName : ∀ mac', mac' ≠ mac → d'.upName cfg mac' = d.upName cfg mac'

theorem upName_close {d : Node} {number : Nat} {p : Peer} (hp : d.objects[number]? = some p)
    (s : Session) (mac : DlepMac) (number' : Nat)
    : (d.close number s).upName cfg.toSessionConfig mac number'
        = if number' = number then some (s.peer.upName cfg.toSessionConfig mac) else d.upName
            cfg.toSessionConfig mac number' := by
  obtain ⟨hlt, -⟩ := List.getElem?_eq_some_iff.mp hp
  change ((d.objects.set number s.peer)[number']?).map _ = _
  split
  . next heq =>
    rw [heq, List.getElem?_set_self hlt]
    rfl
  . next hne =>
    rw [List.getElem?_set_ne (Ne.symm hne)]
    rfl

theorem foldlM_up (numbers : List Nat) (d : Node)
    : Ensures (numbers.foldlM
        (withSession cfg.toSessionConfig env (fun ctx s => s.destinationUp ctx mac dataItems)) d)
        (fun d' => Admits cfg.toSessionConfig mac dataItems numbers (d.upName cfg.toSessionConfig mac)
          ∧ Unchanged cfg.toSessionConfig mac d d')
        (fun _ => ¬ Admits cfg.toSessionConfig mac dataItems numbers
            (d.upName cfg.toSessionConfig mac)) := by
  induction numbers generalizing d with
  | nil => exact .ok ⟨⟨by simp, Or.inl (by simp)⟩, ⟨rfl, rfl, fun _ _ => rfl⟩⟩
  | cons number numbers ih =>
    have hname : d.upName cfg.toSessionConfig mac number
      = (d.objects[number]?).map (Peer.upName cfg.toSessionConfig mac) := rfl
    rw [List.foldlM_cons]
    unfold withSession
    cases hp : d.objects[number]? with
    | none =>
      have hcons : Admits cfg.toSessionConfig mac dataItems (number :: numbers)
        (d.upName cfg.toSessionConfig mac)
          ↔ Admits cfg.toSessionConfig mac dataItems numbers (d.upName cfg.toSessionConfig mac) := by
        rw [hp, Option.map_none] at hname
        unfold Admits
        simp [hname]
      simp only [hcons]
      exact ih d
    | some p =>
      rw [hp, Option.map_some] at hname
      have hone := Session.destinationUp_exact (d.context cfg.toSessionConfig env number) rfl mac
        dataItems (d.session p)
      simp only
      cases hs : (d.session p).destinationUp (d.context cfg.toSessionConfig env number) mac dataItems with
      | error fault =>
        refine .error (fun hadmits => ?_)
        have hfirst := hadmits.1 number List.mem_cons_self
        rw [hname] at hfirst
        exact Bool.false_ne_true ((hone.of_error hs).symm.trans hfirst)
      | ok s =>
        obtain ⟨htakes, htold, hothers⟩ := hone.of_ok hs
        have hclose := upName_close cfg hp s
        have hcons : Admits cfg.toSessionConfig mac dataItems (number :: numbers)
          (d.upName cfg.toSessionConfig mac)
            ↔ p.takesUp cfg.toSessionConfig mac dataItems = true
              ∧ Admits cfg.toSessionConfig mac dataItems numbers
                  ((d.close number s).upName cfg.toSessionConfig mac) := by
          apply admits_cons hname
          . rw [hclose, if_pos rfl]
            exact congrArg some htold
          . intro number' hne
            rw [hclose, if_neg hne]
        rw [hcons]
        apply (ih (d.close number s)).mono
        . rintro d' ⟨hadmits, hunchanged⟩
          refine ⟨⟨htakes, hadmits⟩, hunchanged.peers, hunchanged.localPdp, ?_⟩
          intro mac' hne
          rw [hunchanged.upName mac' hne]
          funext number'
          rw [hclose]
          split
          . next heq =>
            unfold upName
            rw [heq, hp]
            exact congrArg some (hothers mac' hne)
          . rfl
        . exact fun _ hfail hadmits => hfail hadmits.2

theorem forPeers_up (d : Node)
    : Ensures (forPeers cfg.toSessionConfig env (fun ctx s => s.destinationUp ctx mac dataItems) d)
        (fun d' => d.takesUp cfg.toSessionConfig mac dataItems = true
          ∧ Unchanged cfg.toSessionConfig mac d d')
        (fun _ => ¬ d.takesUp cfg.toSessionConfig mac dataItems = true) := by
  rw [takesUp_iff]
  exact foldlM_up cfg env mac dataItems d.numbers d

theorem foldlM_down (numbers : List Nat) (d : Node)
    : Ensures (numbers.foldlM
        (withSession cfg.toSessionConfig env (fun ctx s => s.destinationDown ctx mac)) d)
        (fun d' => ((numbers.filter (fun number => (d.objects[number]?).isSome)).isEmpty
          || cfg.carriesDown mac) = true
          ∧ d'.peers = d.peers ∧ d'.localPdp = d.localPdp ∧ d'.objects.length = d.objects.length)
        (fun _ => ¬ ((numbers.filter (fun number => (d.objects[number]?).isSome)).isEmpty
            || cfg.carriesDown mac) = true) := by
  induction numbers generalizing d with
  | nil => exact .ok ⟨rfl, rfl, rfl, rfl⟩
  | cons number numbers ih =>
    rw [List.foldlM_cons]
    unfold withSession
    cases hp : d.objects[number]? with
    | none =>
      rw [List.filter_cons_of_neg (by simp [hp])]
      exact ih d
    | some p =>
      have hone := Session.destinationDown_exact (d.context cfg.toSessionConfig env number) rfl mac
        (d.session p)
      rw [List.filter_cons_of_pos (by simp [hp]), List.isEmpty_cons, Bool.false_or]
      simp only
      cases hs : (d.session p).destinationDown (d.context cfg.toSessionConfig env number) mac with
      | error fault =>
        exact .error (fun hcarries => Bool.false_ne_true ((hone.of_error hs).symm.trans hcarries))
      | ok s =>
        have hcarries : cfg.carriesDown mac = true := hone.of_ok hs
        apply (ih (d.close number s)).mono
        . rintro d' ⟨-, hpeers, hlocal, hlength⟩
          exact ⟨hcarries, hpeers, hlocal, hlength.trans List.length_set⟩
        . intro _ hfail _
          rw [hcarries, Bool.or_true] at hfail
          exact hfail rfl

theorem takesDown_eq (cfg : SessionConfig) (mac : DlepMac) (d : Node)
    : d.takesDown cfg mac = ((d.numbers.filter (fun number => (d.objects[number]?).isSome)).isEmpty
        || cfg.carriesDown mac) := by
  unfold takesDown
  rw [← map_fst_peerList, List.isEmpty_map]

def lookUp (cfg : SessionConfig) (dataItems : List DataItem) (d : Node) (mac : DlepMac)
    : Bool × Bool × Bool :=
  (d.localPdp.validDestination mac, d.takesUp cfg mac dataItems, d.takesDown cfg mac)

def lookDown (cfg : SessionConfig) (d : Node) (mac : DlepMac) : Bool × Bool :=
  (d.localPdp.validDestination mac, d.takesDown cfg mac)

variable {mac} in
theorem Unchanged.lookUp {d d' : Node} (h : Unchanged cfg.toSessionConfig mac d d') {mac' : DlepMac}
    (hne : mac' ≠ mac)
    : d'.lookUp cfg.toSessionConfig dataItems mac' = d.lookUp cfg.toSessionConfig dataItems mac' := by
  have hnumbers : d'.numbers = d.numbers := congrArg
    (fun peers => peers.toList.map (fun e => e.2)) h.peers
  have hname := h.upName mac' hne
  have hup : d'.takesUp cfg.toSessionConfig mac' dataItems
      = d.takesUp cfg.toSessionConfig mac' dataItems := by
    rw [Bool.eq_iff_iff, takesUp_iff, takesUp_iff, hnumbers, hname]
  have hsome : ∀ number : Nat, (d'.objects[number]?).isSome = (d.objects[number]?).isSome := by
    intro number
    have hat := congrArg Option.isSome (congrFun hname number)
    unfold Node.upName at hat
    rwa [Option.isSome_map, Option.isSome_map] at hat
  have hdown : d'.takesDown cfg.toSessionConfig mac' = d.takesDown cfg.toSessionConfig mac' := by
    simp only [takesDown_eq, hnumbers, hsome]
  unfold Node.lookUp
  rw [h.localPdp, hup, hdown]

theorem addDestination_exact (d : Node)
    : Ensures (addDestination cfg.toSessionConfig env mac dataItems d)
        (fun res => ((d.lookUp cfg.toSessionConfig dataItems mac).1
          || (d.lookUp cfg.toSessionConfig dataItems mac).2.1) = true
          ∧ ∀ mac', mac' ≠ mac → res.2.lookUp cfg.toSessionConfig dataItems mac'
            = d.lookUp cfg.toSessionConfig dataItems mac')
        (fun _ => ¬ ((d.lookUp cfg.toSessionConfig dataItems mac).1
            || (d.lookUp cfg.toSessionConfig dataItems mac).2.1) = true) := by
  have hsome := d.localPdp.addDestination_isSome cfg.toSessionConfig mac dataItems
  unfold addDestination
  split
  . next hadd =>
    rw [hadd] at hsome
    have hvalid : d.localPdp.validDestination mac = true := by
      simpa using hsome.symm
    refine .ok ⟨?_, fun _ _ => rfl⟩
    unfold lookUp
    rw [hvalid]
    rfl
  . next pdp hadd =>
    obtain ⟨hinvalid, hvalid⟩ := PeerData.validDestination_addDestination hadd
    have hlook : ((d.lookUp cfg.toSessionConfig dataItems mac).1
      || (d.lookUp cfg.toSessionConfig dataItems mac).2.1)
        = d.takesUp cfg.toSessionConfig mac dataItems := by
      unfold lookUp
      rw [hinvalid]
      rfl
    rw [hlook]
    apply (forPeers_up cfg env mac dataItems { d with localPdp := pdp }).map
    rintro d' ⟨htakes, hunchanged⟩
    refine ⟨htakes, fun mac' hne => ?_⟩
    rw [hunchanged.lookUp cfg dataItems hne]
    change (pdp.validDestination mac', _) = (d.localPdp.validDestination mac', _)
    rw [hvalid, decide_eq_false hne, Bool.false_or]
    rfl

theorem removeDestination_exact (d : Node)
    : Ensures (removeDestination cfg.toSessionConfig env mac d)
        (fun res => (!(d.lookDown cfg.toSessionConfig mac).1
          || (d.lookDown cfg.toSessionConfig mac).2) = true
          ∧ ∀ mac', mac' ≠ mac
            → res.2.lookDown cfg.toSessionConfig mac' = d.lookDown cfg.toSessionConfig mac')
        (fun _ => ¬ (!(d.lookDown cfg.toSessionConfig mac).1
            || (d.lookDown cfg.toSessionConfig mac).2) = true) := by
  unfold removeDestination
  split
  . next hremove =>
    have hinvalid : d.localPdp.validDestination mac = false := by
      unfold PeerData.removeDestination at hremove
      unfold PeerData.validDestination
      split at hremove
      . cases hremove
      . next hnone => rw [hnone]; rfl
    refine .ok ⟨?_, fun _ _ => rfl⟩
    unfold lookDown
    rw [hinvalid]
    rfl
  . next pdp hremove =>
    obtain ⟨htrue, hvalid⟩ := PeerData.validDestination_removeDestination hremove
    have hlook : (!(d.lookDown cfg.toSessionConfig mac).1 || (d.lookDown cfg.toSessionConfig mac).2)
        = ((d.numbers.filter (fun number => (d.objects[number]?).isSome)).isEmpty
            || cfg.carriesDown mac) := by
      unfold lookDown
      rw [htrue, takesDown_eq]
      rfl
    rw [hlook]
    apply (foldlM_down cfg env mac d.numbers { d with localPdp := pdp }).map
    rintro d' ⟨htakes, hpeers, hlocal, hlength⟩
    refine ⟨htakes, fun mac' hne => ?_⟩
    have hnumbers : d'.numbers = d.numbers := congrArg
      (fun peers => peers.toList.map (fun e => e.2)) hpeers
    have hsome : ∀ number : Nat, (d'.objects[number]?).isSome = (d.objects[number]?).isSome := by
      intro number
      rw [Bool.eq_iff_iff, Option.isSome_iff_ne_none, Option.isSome_iff_ne_none, ne_eq, ne_eq,
        List.getElem?_eq_none_iff,
        List.getElem?_eq_none_iff, hlength]
    unfold lookDown
    rw [hlocal, hvalid, decide_eq_true hne, Bool.true_and, takesDown_eq, takesDown_eq, hnumbers]
    simp only [hsome]

end

end Node

namespace DestAdvert

section

variable (cfg : AdvertConfig) (env : Env) {macs : List DlepMac}

theorem addDestinations_exact (hmacs : macs.Nodup) (dataItems : List DataItem) (dlep : Node)
    : Ensures (addDestinations cfg env macs dataItems dlep)
        (fun dlep' =>
          (∀ mac ∈ macs, (dlep.localPdp.validDestination mac || dlep.takesUp cfg.toSessionConfig mac
          dataItems) = true)
          ∧ ∀ mac, mac ∉ macs
            → dlep'.lookDown cfg.toSessionConfig mac = dlep.lookDown cfg.toSessionConfig mac)
        (fun _ => ¬ ∀ mac ∈ macs,
          (dlep.localPdp.validDestination mac || dlep.takesUp cfg.toSessionConfig mac dataItems)
              = true) := by
  have hall := Ensures.foldlM_exact (Node.lookUp cfg.toSessionConfig dataItems)
    (fun look => (look.1 || look.2.1) = true)
    (f := fun dlep mac => (dlep.addDestination cfg.toSessionConfig env mac dataItems).map
      (fun res => res.2))
    (fun dlep mac _ => by
      apply (dlep.addDestination_exact cfg env mac dataItems).map
      exact fun _ hres => hres) hmacs dlep
  apply hall.mono
  . rintro dlep' ⟨htakes, hothers⟩
    refine ⟨htakes, fun mac hmac => ?_⟩
    exact congrArg (fun look => (look.1, look.2.2)) (hothers mac hmac)
  . exact fun _ hfail => hfail

theorem removeDestinations_exact (hmacs : macs.Nodup) (dlep : Node)
    : Ensures (removeDestinations cfg env macs dlep)
        (fun _ => ∀ mac ∈ macs, (!(dlep.lookDown cfg.toSessionConfig mac).1
          || (dlep.lookDown cfg.toSessionConfig mac).2) = true)
        (fun _ => ¬ ∀ mac ∈ macs,
          (!(dlep.lookDown cfg.toSessionConfig mac).1 || (dlep.lookDown cfg.toSessionConfig mac).2)
              = true) := by
  have hall := Ensures.foldlM_exact (Node.lookDown cfg.toSessionConfig)
    (fun look => (!look.1 || look.2) = true)
    (f := fun dlep mac => (dlep.removeDestination cfg.toSessionConfig env mac).map (fun res => res.2))
    (fun dlep mac _ => by
      apply (dlep.removeDestination_exact cfg env mac).map
      exact fun _ hres => hres) hmacs dlep
  exact hall.mono (fun _ h => h.1) (fun _ hfail => hfail)

end

def canTell (cfg : AdvertConfig) (rfId : DlepMac) (destinations : DlepMacAddrs) (d : DestAdvert) : Bool :=
  match d.destAdvertDb.find? rfId with
  | none => true
  | some entry =>
    decide (entry.estate ≠ .up)
      || ((destinations.getDifference entry.info.destinations).all
          (fun mac => d.dlep.localPdp.validDestination mac || d.dlep.takesUp cfg.toSessionConfig mac
            entry.dataItems)
        && (entry.info.destinations.getDifference destinations).all
          (fun mac => !d.dlep.localPdp.validDestination mac || d.dlep.takesDown cfg.toSessionConfig mac))

section

variable (cfg : AdvertConfig) (env : Env)

theorem nodup_getDifference (a b : DlepMacAddrs) : (a.getDifference b).Nodup := by
  unfold DlepMacAddrs.getDifference DlepMacAddrs.toMacs List.Nodup
  apply List.Pairwise.filter
  rw [List.pairwise_map]
  exact a.sorted.imp (fun hlt => ne_of_lt hlt)

theorem not_mem_getDifference {a b : DlepMacAddrs} {mac : DlepMac} (h : mac ∈ b.getDifference a)
    : mac ∉ a.getDifference b := by
  intro hmem
  have hcontains : a.contains mac = false := by
    simpa using (List.mem_filter.mp h).2
  obtain ⟨⟨mac', u⟩, he, rfl⟩ := List.mem_map.mp (List.mem_filter.mp hmem).1
  have hfind := (SortedMap.find?_eq_some_iff _ _ _).mpr he
  unfold SortedMap.contains at hcontains
  rw [hfind] at hcontains
  cases hcontains

theorem handleAdvert_exact (info : DestAdvertInfo) (d : DestAdvert)
    : Ensures (handleAdvert cfg env info d) (fun _ => canTell cfg info.rfId info.destinations d = true)
        (fun _ => ¬ canTell cfg info.rfId info.destinations d = true) := by
  unfold handleAdvert canTell
  cases d.destAdvertDb.find? info.rfId with
  | none => exact .ok rfl
  | some entry =>
    simp only
    split
    . next hup =>
      simp only [hup, ne_eq, not_true_eq_false, decide_false, Bool.false_or, Bool.and_eq_true,
        List.all_eq_true]
      have hadds := addDestinations_exact cfg env
        (nodup_getDifference info.destinations entry.info.destinations) entry.dataItems d.dlep
      apply (hadds.mono (fun _ h => h) (fun _ hfail hadmits => hfail hadmits.1)).bind
      rintro dlep ⟨htakes, hothers⟩
      have hlook : (∀ mac ∈ entry.info.destinations.getDifference info.destinations,
            (!(dlep.lookDown cfg.toSessionConfig mac).1
              || (dlep.lookDown cfg.toSessionConfig mac).2) = true)
          ↔ ∀ mac ∈ entry.info.destinations.getDifference info.destinations,
            (!d.dlep.localPdp.validDestination mac || d.dlep.takesDown cfg.toSessionConfig mac) = true :=
        forall₂_congr (fun mac hmac => by rw [hothers mac (not_mem_getDifference hmac)]; rfl)
      have hremoves := removeDestinations_exact cfg env
        (nodup_getDifference entry.info.destinations info.destinations) dlep
      apply (hremoves.mono (fun _ h => h) (fun _ hfail hadmits => hfail (hlook.mpr hadmits.2))).bind
      intro dlep' hdown
      exact .ok ⟨htakes, hlook.mp hdown⟩
    . next hup =>
      refine .ok ?_
      simp [hup]

theorem handleAdvert_timestamp (info : DestAdvertInfo) (d : DestAdvert)
    : Ensures (handleAdvert cfg env info d)
        (fun d' => ∃ entry, d'.destAdvertDb.find? info.rfId = some entry
            ∧ entry.timestamp = env.now) (fun _ => True) := by
  apply (handleAdvert_ensures cfg env info d).mono _ (fun _ htrue => htrue)
  rintro d' (⟨-, -, hupdated⟩ | ⟨entry, -, hupdated, -⟩)
  . exact ⟨_, hupdated.find?_self, rfl⟩
  . exact ⟨_, hupdated.find?_self, rfl⟩

end

end DestAdvert

def DestinationAdvertisement.items (da : DestinationAdvertisement) : List (IpKind × Bytes) :=
  IpKind.all.flatMap (fun kind => (da.ipDataItems kind).map (fun str => (kind, str)))

namespace DestAdvert

section

variable (cfg : AdvertConfig)

def isOfKind (item : IpKind × Bytes) : Bool :=
  match doCopyStrToIpdi cfg item.1 item.2 with
  | .ok di => decide (cfg.ipDataItemId item.1 = some di.id)
  | .error _ => false

theorem unbuildDestinationAdvert_ensures (da : DestinationAdvertisement)
    : Ensures (unbuildDestinationAdvert cfg da)
        (fun info => (∀ item ∈ da.items, ∃ di, doCopyStrToIpdi cfg item.1 item.2 = .ok di)
          ∧ info.rfId = da.localId ∧ info.destinations = .ofList da.destinations)
        (fun _ => ¬∀ item ∈ da.items, ∃ di, doCopyStrToIpdi cfg item.1 item.2 = .ok di) := by
  have hitems : (∀ item ∈ da.items, ∃ di, doCopyStrToIpdi cfg item.1 item.2 = .ok di) ↔
      ∀ kind, ∃ dis, (da.ipDataItems kind).mapM (doCopyStrToIpdi cfg kind) = .ok dis := by
    simp only [mapM_isOk_iff, DestinationAdvertisement.items, List.mem_flatMap, List.mem_map]
    constructor
    . intro hall kind str hstr
      have hkind : kind ∈ IpKind.all := by
        cases kind with
        | _ => simp [IpKind.all]
      exact hall (kind, str) ⟨kind, hkind, str, hstr, rfl⟩
    . rintro hall item ⟨kind, -, str, hstr, rfl⟩
      exact hall kind str hstr
  have hfails : ∀ kind fault, (da.ipDataItems kind).mapM (doCopyStrToIpdi cfg kind) = .error fault →
      ¬∀ item ∈ da.items, ∃ di, doCopyStrToIpdi cfg item.1 item.2 = .ok di := by
    intro kind fault hfault hall
    obtain ⟨dis, hdis⟩ := hitems.mp hall kind
    rw [hfault] at hdis
    cases hdis
  apply Ensures.bind_of_fail (hfails .ipv4Address)
  intro ipv4 hipv4
  apply Ensures.bind_of_fail (hfails .ipv4AttachedSubnet)
  intro ipv4Sn hipv4Sn
  apply Ensures.bind_of_fail (hfails .ipv6Address)
  intro ipv6 hipv6
  apply Ensures.bind_of_fail (hfails .ipv6AttachedSubnet)
  intro ipv6Sn hipv6Sn
  refine .ok ⟨hitems.mpr ?_, rfl, rfl⟩
  intro kind
  cases kind with
  | ipv4Address => exact ⟨ipv4, hipv4⟩
  | ipv4AttachedSubnet => exact ⟨ipv4Sn, hipv4Sn⟩
  | ipv6Address => exact ⟨ipv6, hipv6⟩
  | ipv6AttachedSubnet => exact ⟨ipv6Sn, hipv6Sn⟩

variable (parse : Bytes → Option DestinationAdvertisement)

def Robust (msg : Bytes) (d : DestAdvert) : Prop :=
  ∀ env, ∃ d', d.handleMessage cfg env parse msg = .ok d'
    ∧ (∀ da, msg.length ≠ 0 → parse msg = some da → (∃ item ∈ da.items, isOfKind cfg item = false) →
        d'.destAdvertDb = d.destAdvertDb ∧ d'.dlep.localPdp = d.dlep.localPdp)

def accepts (msg : Bytes) (d : DestAdvert) : Bool :=
  msg.isEmpty
    ||
  (parse msg).all (fun da =>
    da.items.all (isOfKind cfg) && canTell cfg da.localId (.ofList da.destinations) d)

variable {cfg parse} {msg : Bytes} {d : DestAdvert} {da : DestinationAdvertisement}

theorem handleMessage_ensures (hmsg : msg.length ≠ 0) (hparse : parse msg = some da) (env : Env)
    : Ensures (d.handleMessage cfg env parse msg)
        (fun d' => (∀ item ∈ da.items, ∃ di, doCopyStrToIpdi cfg item.1 item.2 = .ok di)
          ∧ canTell cfg da.localId (.ofList da.destinations) d = true
          ∧ ∃ entry, d'.destAdvertDb.find? da.localId = some entry ∧ entry.timestamp = env.now)
        (fun _ => ¬(∀ item ∈ da.items, ∃ di, doCopyStrToIpdi cfg item.1 item.2 = .ok di)
          ∨ ¬ canTell cfg da.localId (.ofList da.destinations) d = true) := by
  unfold handleMessage
  simp only [if_neg hmsg, hparse]
  apply ((unbuildDestinationAdvert_ensures cfg da).mono (fun _ hinfo => hinfo)
    (fun _ hfail => Or.inl hfail)).bind
  rintro info ⟨hitems, hrfId, hdestinations⟩
  rw [← hrfId, ← hdestinations]
  have hexact := handleAdvert_exact cfg env info d
  cases hadvert : handleAdvert cfg env info d with
  | error fault => exact .error (Or.inr (hexact.of_error hadvert))
  | ok d' => exact .ok ⟨hitems, hexact.of_ok hadvert,
    (handleAdvert_timestamp cfg env info d).of_ok hadvert⟩

theorem Robust.items (h : Robust cfg parse msg d) (hmsg : msg.length ≠ 0) (hparse : parse msg = some da)
    : ∀ item ∈ da.items, isOfKind cfg item = true := by
  by_contra hbad
  have hitem : ∃ item ∈ da.items, isOfKind cfg item = false := by
    simpa using hbad
  have htimestamp : ∀ env : Env, ∃ entry, d.destAdvertDb.find? da.localId = some entry
      ∧ entry.timestamp = env.now := by
    intro env
    obtain ⟨d', hd', hsame⟩ := h env
    obtain ⟨hdb, -⟩ := hsame da hmsg hparse hitem
    obtain ⟨-, -, hentry⟩ := (handleMessage_ensures hmsg hparse env).of_ok hd'
    rw [hdb] at hentry
    exact hentry
  obtain ⟨entry, hfind, hzero⟩ := htimestamp { Node.quietEnv with now := 0 }
  obtain ⟨entry', hfind', hone⟩ := htimestamp { Node.quietEnv with now := 1 }
  obtain rfl := Option.some.inj (hfind.symm.trans hfind')
  rw [hzero] at hone
  cases hone

end

def macItem : Bytes :=
  [0, 7, 0, 6, 2, 0, 0, 0, 0, 9]

end DestAdvert
end Dlep
end Emane

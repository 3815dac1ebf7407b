import Emane.Lib.StopAndWait
import Emane.Dlep.Lemmas.Standing

/-!
This module contains the queues of messages that wait for a response.
-/

namespace Emane
namespace Dlep

namespace ResponsePending

def kind : StopAndWait ResponsePending DlepMac Outgoing where
  key := ResponsePending.destination
  message := ResponsePending.message
  tries := ResponsePending.sendTries

end ResponsePending

inductive Deed where
  | queue (act : StopAndWait.Act ResponsePending)
  | call (c : Call)

def Deed.act? : Deed → Option (StopAndWait.Act ResponsePending)
  | .queue act => some act
  | .call _ => none

def Deed.calls : Deed → List Call
  | .queue (.send rp _) => [.send rp.message]
  | .queue _ => []
  | .call c => [c]

def SessionConfig.IsResponse (cfg : SessionConfig) (name : MessageName) : Prop :=
  ∃ request, cfg.getMessageResponseName request = .ok (some name)

def SessionConfig.SentAtOnce (cfg : SessionConfig) (name : MessageName) : Prop :=
  name ∈ [.heartbeat, .destinationUpdate, .sessionInitializationResponse, .sessionUpdateResponse,
    .sessionTerminationResponse,
    .destinationDownResponse, .linkCharacteristicsResponse]
    ∨ cfg.IsResponse name

def PeerData.OwesResponses (cfg : SessionConfig) (pdp : PeerData) : Prop :=
  ∀ mac ddp name, pdp.destinationData.find? mac = some ddp → ddp.needsResponse = some name
    → cfg.IsResponse name

def ProtocolMessage.Answers (cfg : SessionConfig) (pm : ProtocolMessage) (rp : ResponsePending) : Prop :=
  pm.name = rp.responseName ∧ ∃ mac, optional (pm.getMac cfg) = .ok mac ∧ mac.getD [] = rp.destination

def ResponsePending.Tried (cfg : SessionConfig) (rp : ResponsePending) : Prop :=
  1 ≤ rp.sendTries ∧ rp.sendTries ≤ cfg.sendTries

/--
What may be done. Only elements for which `answers` holds are taken out, and if all was well
before then they have been tried.
-/
def Deed.Allowed (cfg : SessionConfig) (answers : ResponsePending → Prop) (well : Prop) : Deed → Prop
  | .queue (.push rp) => ResponsePending.create cfg rp.message = .ok rp
  | .queue (.send rp rp') => ResponsePending.kind.Resent rp rp'
  | .queue (.pop rp) => answers rp ∧ (well → rp.Tried cfg)
  | .call c => ∀ message, c = .send message → cfg.SentAtOnce message.name

def ProtocolMessage.notInterested (cfg : SessionConfig) (pm : ProtocolMessage) : Bool :=
  match pm.getStatus cfg with
  | .ok info => info.name = .notInterested
  | .error _ => false

namespace Session

def losesInterest (ctx : Context) (s : Session) (pm : ProtocolMessage) : Bool :=
  match pm.getMac ctx.cfg with
  | .ok mac =>
    match pm.name with
    | .destinationDown =>
      s.peer.peerPdp.any (fun pdp => !pdp.validDestination mac) && ctx.localPdp.validDestination mac
        && !(StopAndWait.queue s.peer.responsesPending mac).isEmpty
    | .destinationUpResponse | .destinationAnnounceResponse =>
      pm.notInterested ctx.cfg &&
        match s.peer.responsesPending.find? mac with
        | some (rp :: rest) => rp.responseName = pm.name && !rest.isEmpty
        | _ => false
    | _ => false
  | .error _ => false

def blocks (ctx : Context) (s : Session) : Input → Bool
  | .receive (some pm) =>
    ctx.cfg.allowsSender pm.name (!ctx.cfg.modem) && !pm.statusTerminates ctx.cfg
      && s.losesInterest ctx pm
  | _ => false

structure Sound (cfg : SessionConfig) (s : Session) : Prop where
  keyed : ∀ destination, ∀ rp ∈ StopAndWait.queue s.peer.responsesPending destination,
    rp.destination = destination
  owed : ∀ pdp, s.peer.peerPdp = some pdp → pdp.OwesResponses cfg

structure Unblocked (cfg : SessionConfig) (s : Session) : Prop where
  head : ∀ destination rp rest, s.peer.responsesPending.find? destination = some (rp :: rest)
    → rp.Tried cfg
  tail : ∀ destination rp rest, s.peer.responsesPending.find? destination = some (rp :: rest)
    → ∀ rp' ∈ rest, rp'.sendTries = 0
  interested : ∀ destination rp rest, s.peer.responsesPending.find? destination = some (rp :: rest)
    → s.isNotInterested destination = false

structure Does (cfg : SessionConfig) (answers : ResponsePending → Prop) (well : Prop)
    (deeds : List Deed) (s s' : Session) : Prop where
  pending : run ResponsePending.kind.apply s.peer.responsesPending (deeds.filterMap Deed.act?)
    = some s'.peer.responsesPending
  calls : s'.calls = s.calls ++ deeds.flatMap Deed.calls
  allowed : ∀ deed ∈ deeds, deed.Allowed cfg answers well

structure Progress (cfg : SessionConfig) (answers : ResponsePending → Prop) (s s' : Session) : Prop where
  does : ∃ deeds, Does cfg answers (s.Unblocked cfg) deeds s s'
  sound : s'.Sound cfg
  unblocked : s.Unblocked cfg → s'.Unblocked cfg

end Session

theorem Deed.Allowed.mono {cfg : SessionConfig} {answers answers' : ResponsePending → Prop}
    {well well' : Prop} {deed : Deed}
    (hanswers : ∀ rp, answers rp → answers' rp) (hwell : well' → well) (h : deed.Allowed cfg answers well)
    : deed.Allowed cfg answers' well' := by
  unfold Allowed at h ⊢
  split
  . exact h
  . exact h
  . exact ⟨hanswers _ h.1, fun hwell' => h.2 (hwell hwell')⟩
  . exact h

namespace Session

variable {cfg : SessionConfig} {answers : ResponsePending → Prop} {s s' s'' : Session}

namespace Does

variable {well : Prop} {deeds deeds' : List Deed}

theorem nil (hpending : s'.peer.responsesPending = s.peer.responsesPending) (hcalls : s'.calls = s.calls)
    : Does cfg answers well [] s s' := by
  constructor
  . exact congrArg some hpending.symm
  . rw [hcalls]
    exact (List.append_nil _).symm
  . simp

theorem trans (h : Does cfg answers well deeds s s') (h' : Does cfg answers well deeds' s' s'')
    : Does cfg answers well (deeds ++ deeds') s s'' := by
  constructor
  . rw [List.filterMap_append, run_append, h.pending]
    exact h'.pending
  . rw [h'.calls, h.calls, List.flatMap_append, List.append_assoc]
  . intro deed hdeed
    rw [List.mem_append] at hdeed
    rcases hdeed with hdeed | hdeed
    . exact h.allowed deed hdeed
    . exact h'.allowed deed hdeed

theorem mono {answers' : ResponsePending → Prop} {well' : Prop}
    (hanswers : ∀ rp, answers rp → answers' rp) (hwell : well' → well)
    (h : Does cfg answers well deeds s s')
    : Does cfg answers' well' deeds s s' := by
  refine ⟨h.pending, h.calls, ?_⟩
  intro deed hdeed
  exact (h.allowed deed hdeed).mono hanswers hwell

theorem act (act : StopAndWait.Act ResponsePending) {pending : SortedMap DlepMac (List ResponsePending)}
    (hallowed : (Deed.queue act).Allowed cfg answers well)
    (happly : ResponsePending.kind.apply s.peer.responsesPending act = some pending)
    (hpending : s'.peer.responsesPending = pending)
    (hcalls : s'.calls = s.calls ++ (Deed.queue act).calls)
    : Does cfg answers well [.queue act] s s' := by
  constructor
  . change (ResponsePending.kind.apply _ act).bind some = _
    rw [happly, hpending]
    rfl
  . rw [hcalls, List.flatMap_cons, List.flatMap_nil, List.append_nil]
  . intro deed hdeed
    obtain rfl := List.mem_singleton.mp hdeed
    exact hallowed

end Does

namespace Progress

theorem refl (h : s.Sound cfg) : Progress cfg answers s s := by
  exact ⟨⟨[], .nil rfl rfl⟩, h, id⟩

theorem trans (h : Progress cfg answers s s') (h' : Progress cfg answers s' s'')
    : Progress cfg answers s s'' := by
  obtain ⟨deeds, hdoes⟩ := h.does
  obtain ⟨deeds', hdoes'⟩ := h'.does
  refine ⟨⟨deeds ++ deeds', ?_⟩, h'.sound, fun hunblocked => h'.unblocked (h.unblocked hunblocked)⟩
  exact hdoes.trans (hdoes'.mono (fun _ hrp => hrp) h.unblocked)

end Progress

theorem Unblocked.congr (h : s.Unblocked cfg)
    (hpending : s'.peer.responsesPending = s.peer.responsesPending)
    (hinterested : ∀ destination, s.isNotInterested destination = false
      → s'.isNotInterested destination = false)
    : s'.Unblocked cfg := by
  constructor
  . rw [hpending]
    exact h.head
  . rw [hpending]
    exact h.tail
  . rw [hpending]
    exact fun destination rp rest hfind => hinterested destination
      (h.interested destination rp rest hfind)

theorem progress_call (h : s.Sound cfg) {c : Call}
    (hc : ∀ message, c = .send message → cfg.SentAtOnce message.name)
    : Progress cfg answers s (s.call c) := by
  refine ⟨⟨[.call c], ?_⟩, ⟨h.keyed, h.owed⟩, fun hunblocked => hunblocked.congr rfl
    (fun _ hdestination => hdestination)⟩
  constructor
  . rfl
  . rfl
  . intro deed hdeed
    obtain rfl := List.mem_singleton.mp hdeed
    exact hc

theorem progress_of_eq (h : s.Sound cfg)
    (hpending : s'.peer.responsesPending = s.peer.responsesPending) (hcalls : s'.calls = s.calls)
    (hnotInterested : s'.peer.notInterestedDestinations = s.peer.notInterestedDestinations)
    (howed : ∀ pdp, s'.peer.peerPdp = some pdp → pdp.OwesResponses cfg)
    : Progress cfg answers s s' := by
  refine ⟨⟨[], .nil hpending hcalls⟩, ⟨?_, howed⟩, ?_⟩
  . rw [hpending]
    exact h.keyed
  . intro hunblocked
    apply hunblocked.congr hpending
    intro destination hdestination
    unfold isNotInterested at hdestination ⊢
    rw [hnotInterested]
    exact hdestination

theorem progress_interested (h : s.Sound cfg) (mac : DlepMac)
    : Progress cfg answers s (s.interested mac) := by
  refine ⟨⟨[], .nil rfl rfl⟩, ⟨h.keyed, h.owed⟩, ?_⟩
  intro hunblocked
  refine hunblocked.congr rfl ?_
  intro destination hdestination
  unfold isNotInterested at hdestination ⊢
  rw [List.contains_eq_mem, decide_eq_false_iff_not] at hdestination ⊢
  intro hmem
  exact hdestination (List.mem_of_mem_erase hmem)

theorem progress_notInterested (h : s.Sound cfg) {mac : DlepMac}
    (hqueue : StopAndWait.queue s.peer.responsesPending mac = [])
    : Progress cfg answers s (s.notInterested mac) := by
  refine ⟨⟨[], .nil rfl rfl⟩, ⟨h.keyed, h.owed⟩, ?_⟩
  intro hunblocked
  constructor
  . exact hunblocked.head
  . exact hunblocked.tail
  . intro destination rp rest hfind
    have hold := hunblocked.interested destination rp rest hfind
    unfold isNotInterested at hold ⊢
    rw [List.contains_eq_mem, decide_eq_false_iff_not] at hold ⊢
    intro hmem
    change destination ∈ s.peer.notInterestedDestinations.insert mac at hmem
    rw [List.mem_insert_iff] at hmem
    rcases hmem with rfl | hmem
    . have hcons := StopAndWait.queue_of_find? hfind
      change StopAndWait.queue s.peer.responsesPending destination = rp :: rest at hcons
      rw [hqueue] at hcons
      cases hcons
    . exact hold hmem

section

variable (ctx : Context) {well : Prop} {destination : DlepMac} {rp : ResponsePending}
  {rest : List ResponsePending}

def resent (now : Nat) (rp : ResponsePending) : ResponsePending :=
  { rp with sendTime := now, sendTries := rp.sendTries + 1 }

theorem sendHead_of_find? (hinterested : s.isNotInterested destination = false)
    (hfind : s.peer.responsesPending.find? destination = some (rp :: rest))
    : s.sendHead ctx destination
        =
      (s.setPending (s.peer.responsesPending.set destination (resent ctx.env.now rp :: rest))).call
          (.send rp.message) := by
  unfold sendHead
  rw [hinterested, hfind]
  rfl

theorem find?_set_self (queues : SortedMap DlepMac (List ResponsePending)) (destination : DlepMac)
    (queue : List ResponsePending)
    : (queues.set destination queue).find? destination = some queue := by
  rw [SortedMap.find?_set, if_pos rfl]

theorem find?_set_of_ne (queues : SortedMap DlepMac (List ResponsePending))
    (queue : List ResponsePending) {destination' : DlepMac}
    (hne : destination' ≠ destination)
    : (queues.set destination queue).find? destination' = queues.find? destination' := by
  rw [SortedMap.find?_set, if_neg hne]

theorem sendHead_set (hinterested : s.isNotInterested destination = false)
    (queues : SortedMap DlepMac (List ResponsePending))
    : (s.setPending (queues.set destination (rp :: rest))).sendHead ctx destination
        =
      (s.setPending ((queues.set destination (rp :: rest)).set destination
          (resent ctx.env.now rp :: rest))).call (.send rp.message) := by
  exact sendHead_of_find? (s := s.setPending (queues.set destination (rp :: rest))) ctx hinterested
    (find?_set_self _ _ _)

theorem Sound.set (h : s.Sound cfg) {queue : List ResponsePending}
    (hqueue : ∀ rp ∈ queue, rp.destination = destination)
    : (s.setPending (s.peer.responsesPending.set destination queue)).Sound cfg := by
  refine ⟨?_, h.owed⟩
  intro destination' rp hrp
  change rp ∈ StopAndWait.queue (s.peer.responsesPending.set destination queue) destination' at hrp
  rw [StopAndWait.queue_set] at hrp
  split at hrp
  . next heq =>
    rw [heq]
    exact hqueue rp hrp
  . exact h.keyed destination' rp hrp

theorem Sound.of_find? (h : s.Sound cfg)
    (hfind : s.peer.responsesPending.find? destination = some (rp :: rest))
    : rp.destination = destination ∧ ∀ rp' ∈ rest, rp'.destination = destination := by
  have hkeyed := h.keyed destination
  rw [StopAndWait.queue_of_find? hfind] at hkeyed
  exact List.forall_mem_cons.mp hkeyed

theorem does_sendHead (h : s.Sound cfg) (destination : DlepMac)
    : ∃ deeds, Does cfg answers well deeds s (s.sendHead ctx destination)
        ∧ (s.sendHead ctx destination).Sound cfg := by
  cases hinterested : s.isNotInterested destination with
  | true =>
    have hsame : s.sendHead ctx destination = s := by
      unfold sendHead
      rw [hinterested]
      rfl
    rw [hsame]
    exact ⟨[], .nil rfl rfl, h⟩
  | false =>
    rcases hfind : s.peer.responsesPending.find? destination with _ | _ | ⟨rp, rest⟩
    . have hsame : s.sendHead ctx destination = s := by
        unfold sendHead
        rw [hinterested, hfind]
        rfl
      rw [hsame]
      exact ⟨[], .nil rfl rfl, h⟩
    . have hsame : s.sendHead ctx destination = s := by
        unfold sendHead
        rw [hinterested, hfind]
        rfl
      rw [hsame]
      exact ⟨[], .nil rfl rfl, h⟩
    . rw [sendHead_of_find? ctx hinterested hfind]
      obtain ⟨hkey, hkeys⟩ := h.of_find? hfind
      refine ⟨[.queue (.send rp (resent ctx.env.now rp))], ?_, ?_⟩
      . apply Does.act (.send rp (resent ctx.env.now rp)) ⟨rfl, rfl, rfl⟩
        . exact StopAndWait.apply_send_iff.mpr ⟨rest, by rw [← hkey] at hfind; exact hfind, rfl⟩
        . change s.peer.responsesPending.set destination _ = s.peer.responsesPending.set rp.destination _
          rw [hkey]
        . rfl
      . have hset := @Sound.set cfg s destination h (resent ctx.env.now rp :: rest)
          (List.forall_mem_cons.mpr ⟨hkey, hkeys⟩)
        exact ⟨hset.keyed, hset.owed⟩

theorem Unblocked.set (h : s.Unblocked cfg) {s' : Session}
    (hqueue : s'.peer.responsesPending.find? destination = some (rp :: rest))
    (hothers : ∀ destination', destination' ≠ destination →
      s'.peer.responsesPending.find? destination' = s.peer.responsesPending.find? destination')
    (hnotInterested : s'.peer.notInterestedDestinations = s.peer.notInterestedDestinations)
    (htried : rp.Tried cfg)
    (hrest : ∀ rp' ∈ rest, rp'.sendTries = 0) (hinterested : s.isNotInterested destination = false)
    : s'.Unblocked cfg := by
  have hcases : ∀ destination' rp' rest', s'.peer.responsesPending.find? destination'
    = some (rp' :: rest') →
      (destination' = destination ∧ rp' = rp ∧ rest' = rest)
          ∨ s.peer.responsesPending.find? destination' = some (rp' :: rest') := by
    intro destination' rp' rest' hfind
    by_cases heq : destination' = destination
    . rw [heq, hqueue, Option.some.injEq, List.cons.injEq] at hfind
      exact .inl ⟨heq, hfind.1.symm, hfind.2.symm⟩
    . rw [hothers destination' heq] at hfind
      exact .inr hfind
  have hsame : ∀ destination', s'.isNotInterested destination' = s.isNotInterested destination' := by
    intro destination'
    unfold isNotInterested
    rw [hnotInterested]
  constructor
  . intro destination' rp' rest' hfind
    rcases hcases destination' rp' rest' hfind with ⟨_, rfl, _⟩ | hfind
    . exact htried
    . exact h.head destination' rp' rest' hfind
  . intro destination' rp' rest' hfind
    rcases hcases destination' rp' rest' hfind with ⟨_, _, rfl⟩ | hfind
    . exact hrest
    . exact h.tail destination' rp' rest' hfind
  . intro destination' rp' rest' hfind
    rw [hsame]
    rcases hcases destination' rp' rest' hfind with ⟨rfl, _, _⟩ | hfind
    . exact hinterested
    . exact h.interested destination' rp' rest' hfind

theorem progress_retransmit (h : s.Sound ctx.cfg)
    (hfind : s.peer.responsesPending.find? destination = some (rp :: rest))
    (htries : rp.sendTries < ctx.cfg.sendTries)
    : Progress ctx.cfg answers s (s.sendHead ctx destination) := by
  obtain ⟨deeds, hdoes, hsound⟩ := @does_sendHead ctx.cfg answers s ctx
    (s.Unblocked ctx.cfg) h destination
  refine ⟨⟨deeds, hdoes⟩, hsound, ?_⟩
  intro hunblocked
  have hinterested := hunblocked.interested destination rp rest hfind
  rw [sendHead_of_find? ctx hinterested hfind]
  apply hunblocked.set
  . exact find?_set_self _ _ _
  . exact fun _ hne => find?_set_of_ne _ _ hne
  . rfl
  . unfold ResponsePending.Tried resent
    simp only
    omega
  . exact hunblocked.tail destination rp rest hfind
  . exact hinterested

theorem progress_enqueue (h : s.Sound ctx.cfg) (hsendTries : 1 ≤ ctx.cfg.sendTries)
    (hcreate : ResponsePending.create ctx.cfg rp.message = .ok rp) (hnew : rp.sendTries = 0)
    (hinterested : s.isNotInterested rp.destination = false)
    : Progress ctx.cfg answers s (s.enqueue ctx rp) := by
  have hpush : Does ctx.cfg answers (s.Unblocked ctx.cfg) [.queue (.push rp)] s
      (s.setPending (s.peer.responsesPending.set rp.destination
          (StopAndWait.queue s.peer.responsesPending rp.destination ++ [rp]))) := by
    apply Does.act (.push rp) hcreate
    . rfl
    . rfl
    . exact (List.append_nil _).symm
  have hkeyed : ∀ rp' ∈ StopAndWait.queue s.peer.responsesPending rp.destination ++ [rp],
      rp'.destination = rp.destination := by
    intro rp' hrp'
    rw [List.mem_append, List.mem_singleton] at hrp'
    rcases hrp' with hrp' | rfl
    . exact h.keyed rp.destination rp' hrp'
    . rfl
  have hsound := h.set hkeyed
  cases hqueue : StopAndWait.queue s.peer.responsesPending rp.destination with
  | nil =>
    have heq : s.enqueue ctx rp
        = (s.setPending (s.peer.responsesPending.set rp.destination [rp])).sendHead ctx
            rp.destination := by
      unfold enqueue
      unfold StopAndWait.queue at hqueue
      rw [hqueue]
      rfl
    rw [hqueue, List.nil_append] at hpush hsound
    rw [heq]
    obtain ⟨deeds, hdoes, hsound'⟩ := @does_sendHead ctx.cfg answers _ ctx
      (s.Unblocked ctx.cfg) hsound rp.destination
    refine ⟨⟨_, hpush.trans hdoes⟩, hsound', ?_⟩
    intro hunblocked
    rw [sendHead_set ctx hinterested]
    apply hunblocked.set
    . exact find?_set_self _ _ _
    . exact fun _ hne => (find?_set_of_ne _ _ hne).trans (find?_set_of_ne _ _ hne)
    . rfl
    . unfold ResponsePending.Tried resent
      simp only
      omega
    . simp
    . exact hinterested
  | cons first rest =>
    have heq : s.enqueue ctx rp = s.setPending
        (s.peer.responsesPending.set rp.destination (first :: rest ++ [rp])) := by
      unfold enqueue
      unfold StopAndWait.queue at hqueue
      rw [hqueue]
      rfl
    have hfind := StopAndWait.find?_of_queue hqueue
    rw [hqueue] at hpush hsound
    rw [heq]
    refine ⟨⟨_, hpush⟩, hsound, ?_⟩
    intro hunblocked
    apply hunblocked.set
    . exact find?_set_self _ _ _
    . exact fun _ hne => find?_set_of_ne _ _ hne
    . rfl
    . exact hunblocked.head _ first rest hfind
    . intro rp' hrp'
      change rp' ∈ rest ++ [rp] at hrp'
      rw [List.mem_append, List.mem_singleton] at hrp'
      rcases hrp' with hrp' | rfl
      . exact hunblocked.tail _ first rest hfind rp' hrp'
      . exact hnew
    . exact hinterested

theorem progress_popPending (h : s.Sound ctx.cfg) (hsendTries : 1 ≤ ctx.cfg.sendTries)
    (hfind : s.peer.responsesPending.find? destination = some (rp :: rest)) (hanswers : answers rp)
    : Progress ctx.cfg answers s (s.popPending ctx destination rest) := by
  obtain ⟨hkey, hkeys⟩ := h.of_find? hfind
  have hpop : ∀ pending,
    pending = (if rest.isEmpty then s.peer.responsesPending.erase destination
    else s.peer.responsesPending.set destination rest) →
      Does ctx.cfg answers (s.Unblocked ctx.cfg) [.queue (.pop rp)] s (s.setPending pending) := by
    intro pending hpending
    have happly : ResponsePending.kind.apply s.peer.responsesPending (.pop rp) = some pending := by
      rw [StopAndWait.apply_pop_iff]
      rw [← hkey] at hfind hpending
      exact ⟨rest, hfind, hpending⟩
    apply Does.act (.pop rp) ?_ happly
    . rfl
    . exact (List.append_nil _).symm
    . exact ⟨hanswers, fun hunblocked => hunblocked.head destination rp rest hfind⟩
  cases rest with
  | nil =>
    refine ⟨⟨_, hpop _ rfl⟩, ⟨?_, h.owed⟩, ?_⟩
    . intro destination' rp' hrp'
      change rp' ∈ StopAndWait.queue (s.peer.responsesPending.erase destination) destination' at hrp'
      rw [StopAndWait.queue_erase] at hrp'
      split at hrp'
      . cases hrp'
      . exact h.keyed destination' rp' hrp'
    . intro hunblocked
      have hold : ∀ destination' queue,
        (s.peer.responsesPending.erase destination).find? destination' = some queue →
          s.peer.responsesPending.find? destination' = some queue := by
        intro destination' queue hfind'
        rw [SortedMap.find?_erase] at hfind'
        split at hfind'
        . cases hfind'
        . exact hfind'
      constructor
      . exact fun destination' rp' rest' hfind' => hunblocked.head destination' rp' rest'
          (hold _ _ hfind')
      . exact fun destination' rp' rest' hfind' => hunblocked.tail destination' rp' rest'
          (hold _ _ hfind')
      . exact fun destination' rp' rest' hfind' => hunblocked.interested destination' rp' rest'
          (hold _ _ hfind')
  | cons next rest =>
    have heq : s.popPending ctx destination (next :: rest)
        = (s.setPending (s.peer.responsesPending.set destination (next :: rest))).sendHead ctx
          destination := rfl
    rw [heq]
    obtain ⟨deeds, hdoes, hsound'⟩ :=
      @does_sendHead ctx.cfg answers _ ctx (s.Unblocked ctx.cfg)
        (h.set (fun rp' hrp' => hkeys rp' hrp')) destination
    refine ⟨⟨_, (hpop _ rfl).trans hdoes⟩, hsound', ?_⟩
    intro hunblocked
    have hinterested := hunblocked.interested destination rp (next :: rest) hfind
    have htail := List.forall_mem_cons.mp (hunblocked.tail destination rp (next :: rest) hfind)
    rw [sendHead_set ctx hinterested]
    apply hunblocked.set
    . exact find?_set_self _ _ _
    . exact fun _ hne => (find?_set_of_ne _ _ hne).trans (find?_set_of_ne _ _ hne)
    . rfl
    . unfold ResponsePending.Tried resent
      simp only
      omega
    . exact htail.2
    . exact hinterested

end

def Proceeds (cfg : SessionConfig) (answers : ResponsePending → Prop) (s : Session)
    (x : Except Fault Session) : Prop :=
  Ensures x (Progress cfg answers s) (fun _ => True)

namespace Proceeds

variable {x : Except Fault Session}

theorem ok (h : Progress cfg answers s s') : Proceeds cfg answers s (.ok s') := by
  exact h

theorem error (fault : Fault) : Proceeds cfg answers s (.error fault) := by
  trivial

theorem bind {f : Session → Except Fault Session} (h : Proceeds cfg answers s x)
    (hf : ∀ s', s'.Sound cfg → Proceeds cfg answers s' (f s'))
    : Proceeds cfg answers s (x >>= f) := by
  apply Ensures.bind h
  intro s' hs'
  exact (hf s' hs'.sound).mono (fun s'' hs'' => hs'.trans hs'') (fun _ htrue => htrue)

theorem after (h : Progress cfg answers s s') (h' : s'.Sound cfg → Proceeds cfg answers s' x)
    : Proceeds cfg answers s x := by
  exact (h' h.sound).mono (fun s'' hs'' => h.trans hs'') (fun _ htrue => htrue)

end Proceeds

theorem create_eq {message : Outgoing} {rp : ResponsePending}
    (h : ResponsePending.create cfg message = .ok rp)
    : ResponsePending.create cfg rp.message = .ok rp ∧ rp.sendTries = 0 := by
  unfold ResponsePending.create at h
  split at h
  . cases h
  . cases h
  . next responseName hname =>
    cases h
    refine ⟨?_, rfl⟩
    unfold ResponsePending.create
    simp only [hname]

section

variable (ctx : Context) (hsendTries : 1 ≤ ctx.cfg.sendTries)

include hsendTries

theorem sendMessageExpectingResponse_proceeds (h : s.Sound ctx.cfg) (message : Outgoing)
    : Proceeds ctx.cfg answers s (s.sendMessageExpectingResponse ctx message) := by
  unfold sendMessageExpectingResponse
  split
  . exact .error _
  . next rp hrp =>
    obtain ⟨hcreate, hnew⟩ := create_eq hrp
    apply Proceeds.ok
    split
    . exact .refl h
    . next hinterested =>
        exact progress_enqueue ctx h hsendTries hcreate hnew (Bool.eq_false_iff.mpr hinterested)

omit hsendTries in
theorem progress_stopPeer (h : s.Sound ctx.cfg) : Progress ctx.cfg answers s (s.stopPeer ctx) := by
  unfold stopPeer setStateTerminating
  split
  . exact .refl h
  . have hset : Progress ctx.cfg answers s (s.setState .terminating) :=
      progress_of_eq h rfl rfl rfl h.owed
    have hdown := hset.trans (progress_call (c := .peerDown s.peer.peerId) hset.sound (by simp))
    split
    . exact hdown.trans (progress_call hdown.sound (by simp))
    . exact hdown

theorem terminate_proceeds (h : s.Sound ctx.cfg) (status : StatusName)
    : Proceeds ctx.cfg answers s (s.terminate ctx status) := by
  unfold terminate
  split
  . exact .ok (.refl h)
  . apply Proceeds.after (progress_stopPeer ctx h)
    intro hstop
    apply (sendMessageExpectingResponse_proceeds ctx hsendTries hstop _).bind
    intro s' hs'
    exact .ok (progress_of_eq hs' rfl rfl rfl hs'.owed)

end

end Session
end Dlep
end Emane

import Emane.Dlep.Lemmas.DestAdvert
import Emane.Dlep.Lemmas.Run

/-!
This module contains the agreement between the table of advertisements and the destinations of the
node, in every run.
-/

namespace Emane
namespace Dlep

namespace DestAdvert

variable (cfg : AdvertConfig) (parse : Bytes → Option DestinationAdvertisement)

def received (msg : Bytes) : Option DestAdvertInfo :=
  if msg.length = 0 then
    none
  else
    (parse msg).bind (fun da => (unbuildDestinationAdvert cfg da).toOption)

variable {d : DestAdvert}

theorem handleMessage_ok {env : Env} {msg : Bytes} {d' : DestAdvert}
    (h : d.handleMessage cfg env parse msg = .ok d')
    : (received cfg parse msg = none ∧ d' = d)
        ∨ ∃ info, received cfg parse msg = some info ∧ handleAdvert cfg env info d = .ok d' := by
  unfold handleMessage at h
  unfold received
  split at h
  . next hempty => exact Or.inl ⟨if_pos hempty, (Except.ok.inj h).symm⟩
  . next hnonempty =>
    rw [if_neg hnonempty]
    cases hparse : parse msg with
    | none =>
      simp only [hparse] at h
      exact Or.inl ⟨rfl, (Except.ok.inj h).symm⟩
    | some da =>
      simp only [hparse] at h
      cases hunbuild : unbuildDestinationAdvert cfg da with
      | error fault =>
        rw [hunbuild] at h
        cases h
      | ok info =>
        rw [hunbuild] at h
        refine Or.inr ⟨info, by simp [hunbuild, Except.toOption], ?_⟩
        cases hadvert : handleAdvert cfg env info d with
        | error fault =>
          have herror : (handleAdvert cfg env info d).mapError AdvertFault.session = .ok d' := h
          rw [hadvert] at herror
          cases herror
        | ok d'' =>
          have hok : (handleAdvert cfg env info d).mapError AdvertFault.session = .ok d' := h
          rw [hadvert] at hok
          rw [Except.ok.inj hok]

def listedElsewhere (d : DestAdvert) (rfId : DlepMac) (mac : DlepMac) : Bool :=
  d.destAdvertDb.toList.any (fun e =>
    decide (e.1 ≠ rfId) && decide (e.2.estate = .up) && e.2.info.destinations.toMacs.contains mac)

theorem not_mem_viewOthers {rfId mac : DlepMac} (h : d.listedElsewhere rfId mac = false)
    : mac ∉ d.destAdvertDb.viewOthers DestAdvertDBEntry.listed rfId := by
  rintro ⟨rfId', entry, hne, hfind, hup, hmem⟩
  rw [SortedMap.find?_eq_some_iff] at hfind
  unfold listedElsewhere at h
  rw [List.any_eq_false] at h
  apply h _ hfind
  simp [hne, hup, hmem]

def keptElsewhere (env : Env) (holdInterval expireCount : UInt32) (d : DestAdvert) (mac : DlepMac)
    : Bool :=
  d.destAdvertDb.toList.any (fun e =>
    decide (fate env holdInterval expireCount e.2 = .kept) && decide (e.2.estate = .up)
      && e.2.info.destinations.toMacs.contains mac)

theorem not_listed_of_kept {env : Env} {holdInterval expireCount : UInt32} {rfId mac : DlepMac}
    {entry : DestAdvertDBEntry} (h : d.keptElsewhere env holdInterval expireCount mac = false)
    (hfind : d.destAdvertDb.find? rfId = some entry)
    (hkept : fate env holdInterval expireCount entry = .kept)
    : mac ∉ entry.listed := by
  rintro ⟨hup, hmem⟩
  rw [SortedMap.find?_eq_some_iff] at hfind
  unfold keptElsewhere at h
  rw [List.any_eq_false] at h
  apply h _ hfind
  simp [hkept, hup, hmem]

/--
The destinations of the node are all listed by entries that are up, and if nothing has been lost
then there are no others.
-/
def Agrees (undisturbed : Prop) (d : DestAdvert) : Prop :=
  d.dlep.localDestinations ⊆ d.destAdvertDb.view DestAdvertDBEntry.listed
    ∧ (undisturbed → d.destAdvertDb.view DestAdvertDBEntry.listed ⊆ d.dlep.localDestinations)

theorem Agrees.same {undisturbed : Prop} {d' : DestAdvert} (h : Agrees undisturbed d)
    (hdlep : d'.dlep.localDestinations = d.dlep.localDestinations)
    (hview : d'.destAdvertDb.view DestAdvertDBEntry.listed = d.destAdvertDb.view DestAdvertDBEntry.listed)
    : Agrees undisturbed d' := by
  unfold Agrees
  rw [hdlep, hview]
  exact h

structure Watched where
  advert : DestAdvert
  latest : SortedMap DlepMac DestAdvertInfo
  called : DlepMacAddrs

namespace Watched

def init (localPdp : PeerData) : Watched where
  advert := .init localPdp
  latest := .empty
  called := .empty

def listen (w : Watched) : Event → SortedMap DlepMac DestAdvertInfo
  | .message msg =>
    match received cfg parse msg with
    | some info => w.latest.set info.rfId info
    | none => w.latest
  | .destinationUp mac _ => if w.advert.destAdvertDb.contains mac then w.latest else w.latest.erase mac
  | _ => w.latest

def calls (w : Watched) : Event → DlepMacAddrs
  | .message msg =>
    match received cfg parse msg with
    | some info => if w.advert.destAdvertDb.contains info.rfId then w.called else w.called.erase info.rfId
    | none => w.called
  | .destinationUp mac _ => if w.advert.destAdvertDb.contains mac then w.called else w.called.set mac ()
  | _ => w.called

def step (w : Watched) (e : Env × Event) : Option Watched :=
  (w.advert.step cfg parse e).map (fun d =>
    { advert := d, latest := w.listen cfg parse e.2, called := w.calls cfg parse e.2 })

def listed (w : Watched) : Set DlepMac :=
  {mac | ∃ rfId entry info, w.advert.destAdvertDb.find? rfId = some entry ∧ entry.estate = .up
    ∧ w.latest.find? rfId = some info ∧ mac ∈ info.destinations.toMacs}

def unheard (w : Watched) (e : Env × Event) : Bool :=
  match e.2 with
  | .purgeAdvertTimeout aborted holdInterval expireCount =>
    aborted || w.advert.destAdvertDb.toList.all (fun entry =>
      decide (fate e.1 holdInterval expireCount entry.2 ≠ .removedAsPlaceholder)
        || !w.latest.contains entry.1)
  | _ => true

def exclusive (w : Watched) (e : Env × Event) : Bool :=
  match e.2 with
  | .message msg =>
    match received cfg parse msg with
    | some info =>
      (w.advert.destAdvertDb.find? info.rfId).all (fun entry =>
        decide (entry.estate ≠ .up)
          || (entry.info.destinations.getDifference info.destinations).all
              (fun mac => !w.advert.listedElsewhere info.rfId mac))
    | none => true
  | .destinationDown mac =>
    match w.advert.destAdvertDb.find? mac with
    | some entry =>
      decide (entry.estate ≠ .up) || entry.info.destinations.toMacs.all
        (fun dest => !w.advert.listedElsewhere mac dest)
    | none => !w.advert.dlep.localPdp.validDestination mac
  | .purgeAdvertTimeout aborted holdInterval expireCount =>
    aborted || w.advert.destAdvertDb.toList.all (fun entry =>
      decide (fate e.1 holdInterval expireCount entry.2 ≠ .expired) || decide (entry.2.estate ≠ .up)
        || entry.2.info.destinations.toMacs.all
          (fun mac => !w.advert.keptElsewhere e.1 holdInterval expireCount mac))
  | _ => true

/--
The invariant: the destinations of the node are those of the entries, the entries have the latest
advertisements, and the placeholders are those that the client has made.
-/
structure Sound (undisturbed : Prop) (w : Watched) : Prop where
  agrees : Agrees undisturbed w.advert
  info : ∀ rfId entry, w.advert.destAdvertDb.find? rfId = some entry
    → entry.info = (w.latest.find? rfId).getD .empty
  placeholder : ∀ rfId entry, w.advert.destAdvertDb.find? rfId = some entry
    → entry.placeholder = w.called.contains rfId

variable {cfg parse} {undisturbed : Prop} {w w' : Watched} {e : Env × Event}

theorem Sound.listed_eq (h : w.Sound undisturbed)
    : w.listed = w.advert.destAdvertDb.view DestAdvertDBEntry.listed := by
  ext mac
  constructor
  . rintro ⟨rfId, entry, info, hfind, hup, hlatest, hmem⟩
    have hinfo := h.info rfId entry hfind
    rw [hlatest, Option.getD_some] at hinfo
    exact ⟨rfId, entry, hfind, hup, by rw [hinfo]; exact hmem⟩
  . rintro ⟨rfId, entry, hfind, hup, hmem⟩
    have hinfo := h.info rfId entry hfind
    rw [hinfo] at hmem
    cases hlatest : w.latest.find? rfId with
    | none =>
      rw [hlatest] at hmem
      cases hmem
    | some info =>
      rw [hlatest] at hmem
      exact ⟨rfId, entry, info, hfind, hup, hlatest, hmem⟩

variable {d : DestAdvert} {mac : DlepMac} {entry : DestAdvertDBEntry}

theorem Sound.keeps (h : w.Sound undisturbed) {entry' : DestAdvertDBEntry}
    (hfind : w.advert.destAdvertDb.find? mac = some entry) (hkeeps : Keeps entry entry')
    (hupdated : w.advert.destAdvertDb.Updated d.destAdvertDb mac entry') (hagrees : Agrees undisturbed d)
    : Sound undisturbed { advert := d, latest := w.latest, called := w.called } := by
  refine ⟨hagrees, ?_, ?_⟩
  . intro rfId entry'' hfind'
    rcases hupdated.find?_cases hfind' with ⟨rfl, rfl⟩ | ⟨-, hfind'⟩
    . rw [hkeeps.info]
      exact h.info rfId entry hfind
    . exact h.info rfId entry'' hfind'
  . intro rfId entry'' hfind'
    rcases hupdated.find?_cases hfind' with ⟨rfl, rfl⟩ | ⟨-, hfind'⟩
    . rw [hkeeps.placeholder]
      exact h.placeholder rfId entry hfind
    . exact h.placeholder rfId entry'' hfind'

theorem listed_of_keeps {entry' : DestAdvertDBEntry} (hkeeps : Keeps entry entry')
    (hestate : entry'.estate = entry.estate)
    : entry'.listed = entry.listed := by
  unfold DestAdvertDBEntry.listed
  rw [hkeeps.info, hestate]

variable {env : Env}

theorem Sound.agrees_of_update (h : w.Sound undisturbed) {msg : Bytes} {info : DestAdvertInfo}
    (hexclusive : undisturbed → w.exclusive cfg parse (env, .message msg) = true)
    (hreceived : received cfg parse msg = some info)
    (hfind : w.advert.destAdvertDb.find? info.rfId = some entry)
    (hup : entry.estate = .up)
    (hupdated : w.advert.destAdvertDb.Updated d.destAdvertDb info.rfId (updateEntry env info entry))
    (hdlep : d.dlep.localDestinations =
      (w.advert.dlep.localDestinations
        ∪ {mac | mac ∈ info.destinations.getDifference entry.info.destinations})
        \ {mac | mac ∈ entry.info.destinations.getDifference info.destinations})
    : Agrees undisturbed d := by
  have hadded : ∀ {a b : DlepMacAddrs}, {mac | mac ∈ a.getDifference b}
      = {mac | mac ∈ a.toMacs} \ {mac | mac ∈ b.toMacs} := by
    intro a b
    ext mac
    exact DlepMacAddrs.mem_getDifference
  have hlisted : (updateEntry env info entry).listed = {mac | mac ∈ info.destinations.toMacs} :=
    DestAdvertDBEntry.listed_of_up hup
  obtain ⟨hcovered, hcomplete⟩ := h.agrees
  rw [SortedMap.view_eq_of_find? hfind, DestAdvertDBEntry.listed_of_up hup] at hcovered hcomplete
  unfold Agrees
  rw [hdlep, hupdated.view, hlisted, hadded, hadded]
  refine ⟨SortedMap.replace_subset hcovered, ?_⟩
  intro hundisturbed
  apply SortedMap.subset_replace (hcomplete hundisturbed)
  intro mac hmac
  apply not_mem_viewOthers
  have hall := hexclusive hundisturbed
  simp only [exclusive, hreceived, hfind, Option.all_some, hup, ne_eq, not_true_eq_false,
    decide_false, Bool.false_or,
    List.all_eq_true, Bool.not_eq_true', DlepMacAddrs.mem_getDifference] at hall
  exact hall mac hmac

theorem Sound.message (h : w.Sound undisturbed) {msg : Bytes}
    (hexclusive : undisturbed → w.exclusive cfg parse (env, .message msg) = true)
    (hd : w.advert.handleMessage cfg env parse msg = .ok d)
    : Sound undisturbed
        { advert := d, latest := w.listen cfg parse (.message msg), called := w.calls cfg parse
            (.message msg) } := by
  unfold listen calls
  rcases handleMessage_ok cfg parse hd with ⟨hreceived, rfl⟩ | ⟨info, hreceived, hadvert⟩
  . simp only [hreceived]
    exact ⟨h.agrees, h.info, h.placeholder⟩
  . simp only [hreceived]
    have hinfo : ∀ {entry' : DestAdvertDBEntry}, entry'.info = info →
        w.advert.destAdvertDb.Updated d.destAdvertDb info.rfId entry'
          → ∀ rfId entry, d.destAdvertDb.find? rfId = some entry →
          entry.info = ((w.latest.set info.rfId info).find? rfId).getD .empty := by
      intro entry' hentry' hupdated rfId entry hfind
      rw [SortedMap.find?_set]
      rcases hupdated.find?_cases hfind with ⟨heq, rfl⟩ | ⟨hne, hfind⟩
      . rw [if_pos heq]
        exact hentry'
      . rw [if_neg hne]
        exact h.info rfId entry hfind
    rcases (handleAdvert_ensures cfg env info w.advert).of_ok hadvert with
      ⟨hfind, hdlep, hupdated⟩ | ⟨entry, hfind, hupdated, hdlep⟩
    . have hnew : w.advert.destAdvertDb.contains info.rfId = false := by
        simp [SortedMap.contains, hfind]
      simp only [hnew, Bool.false_eq_true, if_false]
      refine ⟨?_, hinfo rfl hupdated, ?_⟩
      . -- the new entry is down
        have hlisted : (newEntry env info).listed = ∅ := DestAdvertDBEntry.listed_of_not_up
          (by simp [newEntry])
        apply h.agrees.same (congrArg Node.localDestinations hdlep)
        rw [hupdated.view_new hfind, hlisted, Set.empty_union]
      . intro rfId entry hfind'
        unfold SortedMap.contains
        rw [SortedMap.find?_erase]
        rcases hupdated.find?_cases hfind' with ⟨heq, rfl⟩ | ⟨hne, hfind'⟩
        . rw [if_pos heq]
          rfl
        . rw [if_neg hne]
          exact h.placeholder rfId entry hfind'
    . have hold : w.advert.destAdvertDb.contains info.rfId = true := by
        simp [SortedMap.contains, hfind]
      simp only [hold, if_true]
      refine ⟨?_, hinfo rfl hupdated, ?_⟩
      . by_cases hup : entry.estate = .up
        . rw [if_pos hup] at hdlep
          exact h.agrees_of_update hexclusive hreceived hfind hup hupdated hdlep
        . rw [if_neg hup] at hdlep
          apply h.agrees.same hdlep
          apply hupdated.view_same hfind
          rw [DestAdvertDBEntry.listed_of_not_up hup]
          exact DestAdvertDBEntry.listed_of_not_up hup
      . intro rfId entry' hfind'
        rcases hupdated.find?_cases hfind' with ⟨rfl, rfl⟩ | ⟨-, hfind'⟩
        . exact h.placeholder info.rfId entry hfind
        . exact h.placeholder rfId entry' hfind'

variable {res : ReturnStatus × DestAdvert}

theorem Sound.destinationUp (h : w.Sound undisturbed) {dataItems : List DataItem}
    (hres : w.advert.destinationUp cfg env mac dataItems = .ok res)
    : Sound undisturbed
        { advert := res.2, latest := w.listen cfg parse (.destinationUp mac dataItems),
          called := w.calls cfg parse (.destinationUp mac dataItems) } := by
  unfold listen calls
  rcases (destinationUp_ensures cfg env mac dataItems w.advert).of_ok hres with
    ⟨hfind, hdlep, hupdated⟩ | ⟨entry, entry', hfind, hkeeps, hup', hupdated, hdlep⟩
  . have hnew : w.advert.destAdvertDb.contains mac = false := by
      simp [SortedMap.contains, hfind]
    simp only [hnew, Bool.false_eq_true, if_false]
    refine ⟨?_, ?_, ?_⟩
    . have hlisted : (placeholderEntry env dataItems).listed = ∅ := by
        ext mac'
        simp [DestAdvertDBEntry.listed, placeholderEntry, DestAdvertInfo.empty, DlepMacAddrs.toMacs]
      apply h.agrees.same hdlep
      rw [hupdated.view_new hfind, hlisted, Set.empty_union]
    . intro rfId entry hfind'
      rw [SortedMap.find?_erase]
      rcases hupdated.find?_cases hfind' with ⟨heq, rfl⟩ | ⟨hne, hfind'⟩
      . rw [if_pos heq]
        rfl
      . rw [if_neg hne]
        exact h.info rfId entry hfind'
    . intro rfId entry hfind'
      unfold SortedMap.contains
      rw [SortedMap.find?_set]
      rcases hupdated.find?_cases hfind' with ⟨heq, rfl⟩ | ⟨hne, hfind'⟩
      . rw [if_pos heq]
        rfl
      . rw [if_neg hne]
        exact h.placeholder rfId entry hfind'
  . have hold : w.advert.destAdvertDb.contains mac = true := by
      simp [SortedMap.contains, hfind]
    simp only [hold, if_true]
    apply h.keeps hfind hkeeps hupdated
    by_cases hup : entry.estate = .up
    . rw [if_pos hup] at hdlep
      exact h.agrees.same hdlep (hupdated.view_same hfind (listed_of_keeps hkeeps (hup'.trans hup.symm)))
    . rw [if_neg hup] at hdlep
      obtain ⟨hcovered, hcomplete⟩ := h.agrees
      have hview : res.2.destAdvertDb.view DestAdvertDBEntry.listed
          = w.advert.destAdvertDb.view DestAdvertDBEntry.listed
              ∪ {dest | dest ∈ entry.info.destinations.toMacs} := by
        rw [hupdated.view, DestAdvertDBEntry.listed_of_up hup', hkeeps.info,
          SortedMap.view_eq_of_find? hfind,
          DestAdvertDBEntry.listed_of_not_up hup, Set.empty_union]
        exact Set.union_comm _ _
      unfold Agrees
      rw [hdlep, hview]
      exact ⟨Set.union_subset_union_left _ hcovered,
        fun hundisturbed => Set.union_subset_union_left _ (hcomplete hundisturbed)⟩

theorem Sound.destinationUpdate (h : w.Sound undisturbed) {dataItems : List DataItem}
    (hres : w.advert.destinationUpdate cfg env mac dataItems = .ok res)
    : Sound undisturbed { advert := res.2, latest := w.latest, called := w.called } := by
  obtain ⟨hdlep, ⟨-, hdb⟩ | ⟨entry, entry', hfind, hkeeps, hestate, hupdated⟩⟩ :=
    (destinationUpdate_ensures cfg env mac dataItems w.advert).of_ok hres
  . refine ⟨h.agrees.same hdlep (by rw [hdb]), ?_, ?_⟩
    . simp only [hdb]
      exact h.info
    . simp only [hdb]
      exact h.placeholder
  . apply h.keeps hfind hkeeps hupdated
    exact h.agrees.same hdlep (hupdated.view_same hfind (listed_of_keeps hkeeps hestate))

theorem Sound.destinationDown (h : w.Sound undisturbed)
    (hexclusive : undisturbed → w.exclusive cfg parse (env, .destinationDown mac) = true)
    (hres : w.advert.destinationDown cfg env mac = .ok res)
    : Sound undisturbed { advert := res.2, latest := w.latest, called := w.called } := by
  unfold exclusive at hexclusive
  obtain ⟨hcovered, hcomplete⟩ := h.agrees
  rcases (destinationDown_ensures cfg env mac w.advert).of_ok hres with
    ⟨hfind, hdb, hdlep⟩ | ⟨entry, entry', hfind, hkeeps, hdown', hupdated, hdlep⟩
  . refine ⟨⟨?_, ?_⟩, ?_, ?_⟩
    . rw [hdlep, hdb]
      exact Set.sdiff_subset.trans hcovered
    . intro hundisturbed
      have hnot : mac ∉ w.advert.dlep.localDestinations := by
        simpa [Node.localDestinations, hfind] using hexclusive hundisturbed
      rw [hdlep, hdb, Set.sdiff_singleton_eq_self hnot]
      exact hcomplete hundisturbed
    . simp only [hdb]
      exact h.info
    . simp only [hdb]
      exact h.placeholder
  . apply h.keeps hfind hkeeps hupdated
    have hlisted : entry'.listed = ∅ := DestAdvertDBEntry.listed_of_not_up (by simp [hdown'])
    by_cases hup : entry.estate = .up
    . rw [if_pos hup] at hdlep
      rw [SortedMap.view_eq_of_find? hfind, DestAdvertDBEntry.listed_of_up hup] at hcovered hcomplete
      unfold Agrees
      rw [hdlep, hupdated.view, hlisted, Set.empty_union]
      refine ⟨SortedMap.remove_subset hcovered, ?_⟩
      intro hundisturbed
      apply SortedMap.subset_remove (hcomplete hundisturbed)
      intro dest hdest
      apply not_mem_viewOthers
      have hall := hexclusive hundisturbed
      simp only [hfind, hup, ne_eq, not_true_eq_false, decide_false, Bool.false_or, List.all_eq_true,
        Bool.not_eq_true'] at hall
      exact hall dest hdest
    . rw [if_neg hup] at hdlep
      apply h.agrees.same hdlep
      apply hupdated.view_same hfind
      rw [hlisted, DestAdvertDBEntry.listed_of_not_up hup]

variable {holdInterval expireCount : UInt32}

theorem unheard_purge
    (hunheard : w.unheard (env, .purgeAdvertTimeout false holdInterval expireCount) = true)
    {rfId : DlepMac} (hfind : w.advert.destAdvertDb.find? rfId = some entry)
    (hfate : fate env holdInterval expireCount entry = .removedAsPlaceholder)
    : w.latest.find? rfId = none := by
  simp only [unheard, Bool.false_or, List.all_eq_true] at hunheard
  have hentry := hunheard (rfId, entry) ((SortedMap.find?_eq_some_iff _ _ _).mp hfind)
  simp only [hfate] at hentry
  simpa [SortedMap.contains] using hentry

theorem exclusive_purge
    (hexclusive : w.exclusive cfg parse (env, .purgeAdvertTimeout false holdInterval expireCount)
      = true) {rfId : DlepMac} (hfind : w.advert.destAdvertDb.find? rfId = some entry)
    (hfate : fate env holdInterval expireCount entry = .expired) (hmac : mac ∈ entry.listed)
    : w.advert.keptElsewhere env holdInterval expireCount mac = false := by
  simp only [exclusive, Bool.false_or, List.all_eq_true] at hexclusive
  have hentry := hexclusive (rfId, entry) ((SortedMap.find?_eq_some_iff _ _ _).mp hfind)
  obtain ⟨hup, hmem⟩ := hmac
  simp only [hfate, hup, ne_eq, not_true_eq_false, decide_false, Bool.false_or, List.all_eq_true,
    Bool.not_eq_true'] at hentry
  exact hentry mac hmem

theorem Sound.purge (h : w.Sound undisturbed)
    (hunheard : w.unheard (env, .purgeAdvertTimeout false holdInterval expireCount) = true)
    (hexclusive : undisturbed
      → w.exclusive cfg parse (env, .purgeAdvertTimeout false holdInterval expireCount) = true)
    (hd : w.advert.handlePurgeAdvertTimeout cfg env false holdInterval expireCount = .ok d)
    : Sound undisturbed { advert := d, latest := w.latest, called := w.called } := by
  obtain ⟨hdb, hdlep⟩ :=
    (handlePurgeAdvertTimeout_ensures cfg env holdInterval expireCount w.advert).of_ok hd
  obtain ⟨hcovered, hcomplete⟩ := h.agrees
  refine ⟨⟨?_, ?_⟩, ?_, ?_⟩
  . intro mac hmac
    rw [hdlep] at hmac
    obtain ⟨rfId, entry, hfind, hlisted⟩ := hcovered hmac.1
    refine ⟨rfId, entry, (hdb rfId entry).mpr ⟨hfind, ?_⟩, hlisted⟩
    cases hfate : fate env holdInterval expireCount entry with
    | removedAsPlaceholder =>
      -- nothing has been heard of the radio, so that nothing is listed
      have hinfo := h.info rfId entry hfind
      rw [unheard_purge hunheard hfind hfate] at hinfo
      have hmem := hlisted.2
      rw [hinfo] at hmem
      cases hmem
    | expired => exact absurd ⟨rfId, entry, hfind, hfate, hlisted⟩ hmac.2
    | kept => rfl
  . rintro hundisturbed mac ⟨rfId, entry, hfind', hlisted⟩
    obtain ⟨hfind, hkept⟩ := (hdb rfId entry).mp hfind'
    rw [hdlep]
    refine ⟨hcomplete hundisturbed ⟨rfId, entry, hfind, hlisted⟩, ?_⟩
    rintro ⟨rfId', entry', hfind'', hfate, hlisted'⟩
    exact not_listed_of_kept (exclusive_purge (hexclusive hundisturbed) hfind'' hfate hlisted')
      hfind hkept hlisted
  . intro rfId entry hfind'
    exact h.info rfId entry ((hdb rfId entry).mp hfind').1
  . intro rfId entry hfind'
    exact h.placeholder rfId entry ((hdb rfId entry).mp hfind').1

theorem Sound.step (h : w.Sound undisturbed) (hunheard : w.unheard e = true)
    (hexclusive : undisturbed → w.exclusive cfg parse e = true) (hstep : w.step cfg parse e = some w')
    : w'.Sound undisturbed := by
  obtain ⟨env, event⟩ := e
  unfold Watched.step at hstep
  rw [Option.map_eq_some_iff] at hstep
  obtain ⟨d, hd, rfl⟩ := hstep
  unfold DestAdvert.step at hd
  cases event with
  | message msg => exact h.message hexclusive (toOption_eq_some_iff.mp hd)
  | destinationUp mac dataItems =>
    rw [Option.map_eq_some_iff] at hd
    obtain ⟨res, hres, rfl⟩ := hd
    exact h.destinationUp (toOption_eq_some_iff.mp hres)
  | destinationUpdate mac dataItems =>
    rw [Option.map_eq_some_iff] at hd
    obtain ⟨res, hres, rfl⟩ := hd
    exact h.destinationUpdate (toOption_eq_some_iff.mp hres)
  | destinationDown mac =>
    rw [Option.map_eq_some_iff] at hd
    obtain ⟨res, hres, rfl⟩ := hd
    exact h.destinationDown hexclusive (toOption_eq_some_iff.mp hres)
  | purgeAdvertTimeout aborted holdInterval expireCount =>
    cases aborted with
    | true =>
      have hsame : w.advert = d := Option.some.inj hd
      exact hsame ▸ ⟨h.agrees, h.info, h.placeholder⟩
    | false => exact h.purge hunheard hexclusive (toOption_eq_some_iff.mp hd)
  | node event =>
    simp only at hd
    split at hd
    . next hof =>
      rw [Option.map_eq_some_iff] at hd
      obtain ⟨dlep, hdlep, rfl⟩ := hd
      exact ⟨h.agrees.same (Node.step_local hof hdlep) rfl, h.info, h.placeholder⟩
    . cases hd

theorem sound_init (cfg : AdvertConfig) (dataItems : List DataItem)
    : (init (.create cfg.toSessionConfig none dataItems)).Sound undisturbed := by
  have hview : (init (.create cfg.toSessionConfig none dataItems)).advert.destAdvertDb.view
      DestAdvertDBEntry.listed = ∅ :=
    SortedMap.view_empty
  have hlocal : (init (.create cfg.toSessionConfig none dataItems)).advert.dlep.localDestinations
      = ∅ := by
    ext mac
    simp [init, DestAdvert.init, Node.init, Node.localDestinations, PeerData.create,
      PeerData.validDestination]
  refine ⟨?_, ?_, ?_⟩
  . unfold Agrees
    rw [hview, hlocal]
    exact ⟨Set.Subset.rfl, fun _ => Set.Subset.rfl⟩
  . intro rfId entry hfind
    cases hfind
  . intro rfId entry hfind
    cases hfind

/--
In every run in which no entry with an advertisement is removed as a placeholder the destinations
of the node are in the latest advertisements of the radios that are up.
-/
theorem destinations_advertised {dataItems : List DataItem} {es : List (Env × Event)}
    (hunheard : Guarded (step cfg parse) (fun w e => w.unheard e = true)
      (init (.create cfg.toSessionConfig none dataItems)) es)
    (hrun : run (step cfg parse) (init (.create cfg.toSessionConfig none dataItems)) es = some w)
    : w.advert.dlep.localDestinations ⊆ w.listed
        ∧ (Guarded (step cfg parse) (fun w e => w.exclusive cfg parse e = true)
        (init (.create cfg.toSessionConfig none dataItems)) es
          → w.advert.dlep.localDestinations = w.listed)
        ∧ ∀ env holdInterval expireCount w',
        w.step cfg parse (env, .purgeAdvertTimeout false holdInterval expireCount) = some w' →
        ∀ rfId entry, w.advert.destAdvertDb.find? rfId = some entry → entry.estate = .up
          → w.called.contains rfId = false →
          ¬(expireCount > 0
            ∧ (env.now - entry.timestamp : Int) ≥ (expireCount * entry.info.reportInterval).toNat) →
          w'.advert.destAdvertDb.find? rfId = some entry := by
  have hsound : w.Sound False := by
    exact run_inv (fun _ _ _ hw hok hstep => hw.step hok (fun hfalse => hfalse.elim) hstep)
      (sound_init cfg dataItems) hunheard hrun
  refine ⟨?_, ?_, ?_⟩
  . rw [hsound.listed_eq]
    exact hsound.agrees.1
  . intro hexclusive
    have hsound' : w.Sound True := by
      exact run_inv (fun _ _ _ hw hok hstep => hw.step hok.1 (fun _ => hok.2) hstep)
        (sound_init cfg dataItems)
        (hunheard.and hexclusive) hrun
    rw [hsound'.listed_eq]
    exact Set.Subset.antisymm hsound'.agrees.1 (hsound'.agrees.2 trivial)
  . intro env holdInterval expireCount w' hstep rfId entry hfind _ hcalled hage
    have hfate : fate env holdInterval expireCount entry = .kept := by
      have hplaceholder : entry.placeholder = false := (hsound.placeholder rfId entry hfind).trans hcalled
      unfold fate
      simp only [hplaceholder, Bool.false_eq_true, false_and, and_false, if_false, if_neg hage]
    unfold step DestAdvert.step at hstep
    rw [Option.map_eq_some_iff] at hstep
    obtain ⟨d, hd, rfl⟩ := hstep
    obtain ⟨hdb, -⟩ :=
      (handlePurgeAdvertTimeout_ensures cfg env holdInterval expireCount w.advert).of_toOption hd
    exact (hdb rfId entry).mpr ⟨hfind, hfate⟩

def rfc8175Advert : AdvertConfig where
  toSessionConfig := { Node.rfc8175 true with destAdvertEnabled := true }
  ipDataItemId
    | .ipv4Address => some 8
    | .ipv6Address => some 9
    | .ipv4AttachedSubnet => some 10
    | .ipv6AttachedSubnet => some 11
  enabled := rfl
  responds := by
    rintro name (rfl | rfl | ⟨rfl, -⟩)
    . rfl
    . rfl
    . rfl

def exampleMac (host : UInt8) : DlepMac :=
  [2, 0, 0, 0, 0, host]

def exampleAdvert (reportInterval : UInt32) (radio : UInt8) (hosts : List UInt8)
    : DestinationAdvertisement where
  reportInterval := reportInterval
  sequenceNumber := 1
  uptimeInSeconds := 10
  localId := [0, radio]
  destinations := hosts.map exampleMac
  ipDataItems := fun _ => []

def exampleBytes (reportInterval : UInt8) (radio : UInt8) (hosts : List UInt8) : Bytes :=
  [0x08, reportInterval, 0x10, 1, 0x18, 10, 0x22, 2, 0, radio]
    ++ hosts.flatMap (fun host => [0x2a, 6] ++ exampleMac host)

def exampleParse (msg : Bytes) : Option DestinationAdvertisement :=
  List.lookup msg [(exampleBytes 5 1 [1, 2], exampleAdvert 5 1 [1, 2]),
    (exampleBytes 5 1 [2], exampleAdvert 5 1 [2]),
    (exampleBytes 5 2 [2], exampleAdvert 5 2 [2]), (exampleBytes 30 2 [3], exampleAdvert 30 2 [3])]

def atTime (now : Nat) : Env :=
  { Node.quietEnv with now := now }

def exampleInit : Watched :=
  init (.create rfc8175Advert.toSessionConfig none [])

def twoRadios : List (Env × Event) :=
  [(atTime 0, .destinationUp [0, 2] []), (atTime 0, .message (exampleBytes 5 1 [1, 2])),
    (atTime 0, .destinationUp [0, 1] []),
    (atTime 3, .message (exampleBytes 5 1 [2])), (atTime 10, .message (exampleBytes 30 2 [3]))]

theorem destinations_advertised_two_radios
    : ∃ w w' entry, run (step rfc8175Advert exampleParse) exampleInit twoRadios = some w
        ∧ w.step rfc8175Advert exampleParse (atTime 16, .purgeAdvertTimeout false 5 3) = some w'
        ∧ w.advert.dlep.localDestinations ⊆ w.listed
        ∧ w.advert.dlep.localDestinations = w.listed
        ∧ w.advert.destAdvertDb.find? [0, 1] = some entry
        ∧ w'.advert.destAdvertDb.find? [0, 1] = some entry := by
  have hunheard : Guarded (step rfc8175Advert exampleParse)
      (fun w e => w.unheard e = true) exampleInit twoRadios := by
    decide +kernel
  have hexclusive : Guarded (step rfc8175Advert exampleParse)
    (fun w e => w.exclusive rfc8175Advert exampleParse e = true)
      exampleInit twoRadios := by
    decide +kernel
  have hmap : (run (step rfc8175Advert exampleParse) exampleInit twoRadios).map (fun w =>
      ((w.step rfc8175Advert exampleParse (atTime 16, .purgeAdvertTimeout false 5 3)).isSome,
        (w.advert.destAdvertDb.find? [0, 1]).map (fun entry =>
          decide (entry.estate = .up ∧ entry.timestamp = 3 ∧ entry.info.reportInterval = 5)),
        w.called.contains [0, 1]))
        = some (true, some true, false) := by
    decide +kernel
  obtain ⟨w, hrun, hw⟩ := Option.map_eq_some_iff.mp hmap
  simp only [Prod.mk.injEq] at hw
  obtain ⟨hdefined, hentry, hcalled⟩ := hw
  obtain ⟨w', hstep⟩ := Option.isSome_iff_exists.mp hdefined
  obtain ⟨entry, hfind, hfields⟩ := Option.map_eq_some_iff.mp hentry
  obtain ⟨hup, htimestamp, hinterval⟩ := of_decide_eq_true hfields
  obtain ⟨hsubset, hlisted, hkept⟩ := destinations_advertised hunheard hrun
  refine ⟨w, w', entry, hrun, hstep, hsubset, hlisted hexclusive, hfind, ?_⟩
  apply hkept (atTime 16) 5 3 w' hstep [0, 1] entry hfind hup hcalled
  rw [htimestamp, hinterval]
  decide

def heardPlaceholder : List (Env × Event) :=
  [(atTime 0, .destinationUp [0, 2] []), (atTime 1, .message (exampleBytes 30 2 [3])),
    (atTime 20, .purgeAdvertTimeout false 10 3)]

def sharedDestination : List (Env × Event) :=
  [(atTime 0, .message (exampleBytes 5 1 [2])), (atTime 0, .message (exampleBytes 5 2 [2])),
    (atTime 0, .destinationUp [0, 1] []),
    (atTime 0, .destinationUp [0, 2] []), (atTime 1, .destinationDown [0, 1])]

theorem destinations_not_advertised
    : (∃ w, run (step rfc8175Advert exampleParse) exampleInit heardPlaceholder = some w
          ∧ w.advert.destAdvertDb.toList = [] ∧ exampleMac 3 ∈ w.advert.dlep.localDestinations
          ∧ w.advert.dlep.localDestinations ≠ w.listed)
        ∧ (∃ w, run (step rfc8175Advert exampleParse) exampleInit sharedDestination = some w
          ∧ exampleMac 2 ∈ w.listed ∧ exampleMac 2 ∉ w.advert.dlep.localDestinations
          ∧ w.advert.dlep.localDestinations ≠ w.listed) := by
  constructor
  . have hmap : (run (step rfc8175Advert exampleParse) exampleInit heardPlaceholder).map (fun w =>
        (w.advert.destAdvertDb.toList.isEmpty, w.advert.dlep.localPdp.validDestination (exampleMac 3)))
          = some (true, true) := by
      decide +kernel
    obtain ⟨w, hrun, hw⟩ := Option.map_eq_some_iff.mp hmap
    simp only [Prod.mk.injEq, List.isEmpty_iff] at hw
    obtain ⟨hempty, hvalid⟩ := hw
    refine ⟨w, hrun, hempty, hvalid, ?_⟩
    intro heq
    have hmem : exampleMac 3 ∈ w.listed := heq ▸ hvalid
    obtain ⟨rfId, entry, info, hfind, -⟩ := hmem
    rw [SortedMap.find?_eq_some_iff, hempty] at hfind
    cases hfind
  . have hmap : (run (step rfc8175Advert exampleParse) exampleInit sharedDestination).map (fun w =>
        ((w.advert.destAdvertDb.find? [0, 2]).map (fun entry => entry.estate),
          (w.latest.find? [0, 2]).map (fun info => info.destinations.toMacs),
          w.advert.dlep.localPdp.validDestination (exampleMac 2)))
          = some (some .up, some [exampleMac 2], false) := by
      decide +kernel
    obtain ⟨w, hrun, hw⟩ := Option.map_eq_some_iff.mp hmap
    simp only [Prod.mk.injEq] at hw
    obtain ⟨hentry, hlatest, hvalid⟩ := hw
    obtain ⟨entry, hfind, hup⟩ := Option.map_eq_some_iff.mp hentry
    obtain ⟨info, hinfo, hmacs⟩ := Option.map_eq_some_iff.mp hlatest
    have hlisted : exampleMac 2 ∈ w.listed := by
      exact ⟨[0, 2], entry, info, hfind, hup, hinfo, by rw [hmacs]; exact List.mem_cons_self⟩
    have hnot : exampleMac 2 ∉ w.advert.dlep.localDestinations := by
      simp [Node.localDestinations, hvalid]
    refine ⟨w, hrun, hlisted, hnot, ?_⟩
    intro heq
    rw [heq] at hnot
    exact hnot hlisted

end Watched
end DestAdvert
end Dlep
end Emane

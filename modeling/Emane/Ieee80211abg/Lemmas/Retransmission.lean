import Emane.Ieee80211abg.Lemmas.Conservation

/-!
This module contains what becomes of a unicast packet: the copies that are sent of it, and what
the node that it is for makes of them.
-/

namespace Emane
namespace Ieee80211abg

open TxState

/--
When a turn is taken, and the radio in that moment. Between two turns it may have been used for
other messages.
-/
structure Moment where
  tick : Tick
  radio : Radio

structure Service where
  txState : TxState
  entry : DownstreamQueueEntry
  sent : List Transmission
  departure : Option Departure

def frame (cfg : MACConfig) (common : CommonMACHeader) (header : MACHeaderParams) (payload : Bytes)
    : Bytes :=
  lengthPrefix (cfg.commonCodec.encode common).length
    ++ (cfg.commonCodec.encode common
      ++ (lengthPrefix (cfg.headerCodec.encode header).length
        ++ (cfg.headerCodec.encode header ++ payload)))

theorem length_frame (cfg : MACConfig) (common : CommonMACHeader) (header : MACHeaderParams)
    (payload : Bytes)
    : payload.length < (frame cfg common header payload).length := by
  simp only [frame, List.length_append, length_lengthPrefix]
  omega

theorem frame_inj {cfg : MACConfig} {common : CommonMACHeader} {header : MACHeaderParams}
    {payload payload' : Bytes}
    (h : frame cfg common header payload = frame cfg common header payload')
    : payload = payload' := by
  simpa [frame] using h

def unicastPre (rtsCts : Bool) : TxState :=
  if rtsCts then unicastRtsCtsPreTx else unicastPreTx

def unicastSend (rtsCts : Bool) : TxState :=
  if rtsCts then unicastRtsCtsTx else unicastTx

def unicastPost (rtsCts : Bool) : TxState :=
  if rtsCts then unicastRtsCtsPostTx else unicastPostTx

structure IsCopy (cfg : MACConfig) (entry : DownstreamQueueEntry) (payload : Bytes)
    (t : Transmission) : Prop where
  bytes : t.pkt.bytes = frame cfg t.common t.header payload
  registrationId : t.common.registrationId = REGISTERED_EMANE_MAC_IEEE_802_11_ABG
  messageType : t.header.messageType ≠ .unicastCtsCtrl
  numRetries : t.header.numRetries = entry.maxRetries
  srcNEM : t.header.srcNEM = cfg.id
  dstNEM : t.header.dstNEM = entry.pkt.info.destination

namespace Service

variable (cfg : MACConfig)

def start (entry : DownstreamQueueEntry) : Service where
  txState := .idle
  entry := entry
  sent := []
  departure := none

def turn (s : Service) (moment : Moment) : Service :=
  match s.departure with
  | some _ => s
  | none =>
    let res := s.txState.process cfg moment.tick s.entry moment.radio
    {
      txState := res.txState
      entry := res.entry
      sent := s.sent ++ res.transmission.toList
      departure := res.departure
    }

def serve (moments : List Moment) (entry : DownstreamQueueEntry) : Service :=
  moments.foldl (turn cfg) (start entry)

variable {cfg : MACConfig}

theorem foldl_turn_of_departure {s : Service} (h : s.departure ≠ none) (moments : List Moment)
    : moments.foldl (turn cfg) s = s := by
  induction moments with
  | nil => rfl
  | cons moment moments ih =>
    have hturn : s.turn cfg moment = s := by
      unfold turn
      split
      . rfl
      . next hnone => exact absurd hnone h
    rw [List.foldl_cons, hturn, ih]

theorem sent_turn (s : Service) (moment : Moment) : s.sent <+: (s.turn cfg moment).sent := by
  unfold turn
  split
  . apply List.prefix_refl
  . apply List.prefix_append

theorem sent_foldl_turn (cfg : MACConfig) (s : Service) (moments : List Moment)
    : s.sent <+: (moments.foldl (turn cfg) s).sent := by
  induction moments generalizing s with
  | nil => apply List.prefix_refl
  | cons moment moments ih =>
    exact (sent_turn s moment).trans (ih _)

theorem exists_cons_of_departure {s : Service} {moments : List Moment} (h : s.departure = none)
    (hleft : (moments.foldl (turn cfg) s).departure ≠ none)
    : ∃ moment moments', moments = moment :: moments' := by
  cases moments with
  | nil => exact absurd h hleft
  | cons moment moments' => exact ⟨moment, moments', rfl⟩

theorem turn_start (moment : Moment) {entry : DownstreamQueueEntry}
    (hunicast : entry.pkt.info.destination ≠ NEM_BROADCAST_MAC_ADDRESS)
    (htxop : ¬txopTimedOut moment.tick entry)
    : (start entry).turn cfg moment
      =
      ⟨unicastPre entry.rtsCtsEnable, setDelayTime moment.tick.later moment.tick.delay entry,
          [], none⟩ := by
  have hpre : preTx entry = unicastPre entry.rtsCtsEnable := by
    rw [preTx, if_neg hunicast]
    rfl
  simp [turn, start, process, processIdle, hpre, htxop]

theorem turn_pre (moment : Moment) (rtsCts : Bool) (entry : DownstreamQueueEntry)
    (sent : List Transmission)
    : turn cfg ⟨unicastPre rtsCts, entry, sent, none⟩ moment
        = ⟨unicastSend rtsCts, entry, sent, none⟩ := by
  cases rtsCts with
  | false => simp [turn, unicastPre, unicastSend, process, processPreTx]
  | true => simp [turn, unicastPre, unicastSend, process, processPreTx]

theorem turn_send (cfg : MACConfig) (moment : Moment) (rtsCts : Bool) (entry : DownstreamQueueEntry)
    (sent : List Transmission)
    : ∃ (t : Transmission) (entry' : DownstreamQueueEntry),
        turn cfg ⟨unicastSend rtsCts, entry, sent, none⟩ moment
          = ⟨unicastPost rtsCts, entry', sent ++ [t], none⟩
        ∧ IsCopy cfg entry entry.pkt.bytes t
        ∧ (entry.numRetries = 0 → t.header.sequenceNumber = moment.radio.entrySequenceNumber)
        ∧ entry'.pkt = t.pkt
        ∧ entry'.numRetries = entry.numRetries
        ∧ entry'.maxRetries = entry.maxRetries
        ∧ entry'.collisionOccured = entry.collisionOccured := by
  have hcopy : ∀ (entry : DownstreamQueueEntry) (radio : Radio) (now : Nat),
      IsCopy cfg entry entry.pkt.bytes (sendDownstreamUnicastData cfg now entry radio).transmission
      ∧ (entry.numRetries = 0 →
        (sendDownstreamUnicastData cfg now entry radio).transmission.header.sequenceNumber
            = radio.entrySequenceNumber) := by
    intro entry radio now
    simp only [sendDownstreamUnicastData, sendDownstreamMessage]
    rw [setEntrySequenceNumber_entry]
    constructor
    . constructor
      . simp [CommonMACHeader.bytes_prependTo, DownstreamPacket.prependLengthPrefixFraming, frame]
      . rfl
      . split
        . simp
        . simp
      . rfl
      . rfl
      . rfl
    . intro hfirst
      simp [setEntrySequenceNumber, hfirst]
  have hentry : ∀ (entry : DownstreamQueueEntry) (radio : Radio) (now : Nat),
      (sendDownstreamUnicastData cfg now entry radio).entry.pkt
        = (sendDownstreamUnicastData cfg now entry radio).transmission.pkt
      ∧ (sendDownstreamUnicastData cfg now entry radio).entry.numRetries = entry.numRetries
      ∧ (sendDownstreamUnicastData cfg now entry radio).entry.maxRetries = entry.maxRetries
      ∧ (sendDownstreamUnicastData cfg now entry radio).entry.collisionOccured
          = entry.collisionOccured := by
    intro entry radio now
    simp only [sendDownstreamUnicastData, sendDownstreamMessage]
    rw [setEntrySequenceNumber_entry]
    simp
  have hsame : ∀ (duration txTime : Nat) (t : Transmission),
      IsCopy cfg { entry with durationMicroseconds := duration, txTime := txTime } entry.pkt.bytes t
        → IsCopy cfg entry entry.pkt.bytes t := by
    intro duration txTime t h
    exact ⟨h.bytes, h.registrationId, h.messageType, h.numRetries, h.srcNEM, h.dstNEM⟩
  cases rtsCts with
  | false =>
    obtain ⟨hcopy, hseq⟩ := hcopy { entry with
      durationMicroseconds := cfg.messageDurationMicroseconds .unicastData entry.pkt.length
      txTime := moment.tick.start } moment.radio moment.tick.later
    exact ⟨_, _, rfl, hsame _ _ _ hcopy, hseq, hentry _ _ _⟩
  | true =>
    obtain ⟨hcopy, hseq⟩ := hcopy { entry with
      durationMicroseconds := cfg.messageDurationMicroseconds .unicastRtsCtsData entry.pkt.length
      txTime := moment.tick.start } moment.radio moment.tick.later
    exact ⟨_, _, rfl, hsame _ _ _ hcopy, hseq, hentry _ _ _⟩

theorem turn_post (cfg : MACConfig) (moment : Moment) (rtsCts : Bool) (entry : DownstreamQueueEntry)
    (sent : List Transmission)
    : (entry.collisionOccured = true ∧ ¬entry.numRetries ≥ entry.maxRetries
        ∧ turn cfg ⟨unicastPost rtsCts, entry, sent, none⟩ moment
          =
          ⟨unicastPre rtsCts, setDelayTime moment.tick.later moment.tick.delay
            { entry with numRetries := entry.numRetries + 1 },
            sent, none⟩)
      ∨ ((entry.collisionOccured = false ∨ entry.numRetries ≥ entry.maxRetries)
        ∧ (turn cfg ⟨unicastPost rtsCts, entry, sent, none⟩ moment).departure ≠ none
        ∧ (turn cfg ⟨unicastPost rtsCts, entry, sent, none⟩ moment).sent = sent) := by
  have hpost : ∃ retry, retry = unicastPre rtsCts ∧ ∀ st, st = unicastPost rtsCts →
      st.process cfg moment.tick entry moment.radio
          = processUnicastPostTx moment.tick entry moment.radio retry := by
    refine ⟨_, rfl, ?_⟩
    rintro st rfl
    cases rtsCts with
    | false => rfl
    | true => rfl
  obtain ⟨retry, rfl, hprocess⟩ := hpost
  simp only [turn, hprocess _ rfl, processUnicastPostTx]
  split
  . next hcollision =>
    split
    . next hlimit => exact Or.inr ⟨Or.inr hlimit, by simp, by simp⟩
    . next hlimit => exact Or.inl ⟨hcollision, hlimit, by simp⟩
  . next hcollision => exact Or.inr ⟨Or.inl (by simpa using hcollision), by simp, by simp⟩

theorem serve_cases {moments : List Moment} {entry : DownstreamQueueEntry}
    (hunicast : entry.pkt.info.destination ≠ NEM_BROADCAST_MAC_ADDRESS) (hfirst : entry.numRetries = 0)
    (hleft : (serve cfg moments entry).departure ≠ none)
    : ∃ first, moments[0]? = some first
        ∧ ((txopTimedOut first.tick entry ∧ (serve cfg moments entry).sent = [])
          ∨ (¬txopTimedOut first.tick entry ∧ (entry.maxRetries = 0 ∨ first.tick.delay.collision = false)
            ∧ ∃ third t, moments[2]? = some third ∧ (serve cfg moments entry).sent = [t]
              ∧ IsCopy cfg entry entry.pkt.bytes t
              ∧ t.header.sequenceNumber = third.radio.entrySequenceNumber)
          ∨ (¬txopTimedOut first.tick entry ∧ entry.maxRetries ≠ 0 ∧ first.tick.delay.collision = true
            ∧ ∃ t t', t ∈ (serve cfg moments entry).sent ∧ t' ∈ (serve cfg moments entry).sent
              ∧ t.pkt.bytes = frame cfg t.common t.header entry.pkt.bytes
              ∧ t'.pkt.bytes = frame cfg t'.common t'.header t.pkt.bytes)) := by
  unfold serve at hleft ⊢
  obtain ⟨first, moments, rfl⟩ := exists_cons_of_departure rfl hleft
  refine ⟨first, rfl, ?_⟩
  rw [List.foldl_cons] at hleft ⊢
  by_cases htxop : txopTimedOut first.tick entry
  . left
    have hturn : ((start entry).turn cfg first).departure ≠ none
        ∧ ((start entry).turn cfg first).sent = [] := by
      simp [turn, start, process, processIdle, htxop]
    rw [foldl_turn_of_departure hturn.1]
    exact ⟨htxop, hturn.2⟩
  . right
    rw [turn_start first hunicast htxop] at hleft ⊢
    obtain ⟨second, moments, rfl⟩ := exists_cons_of_departure rfl hleft
    rw [List.foldl_cons, turn_pre] at hleft ⊢
    obtain ⟨third, moments, rfl⟩ := exists_cons_of_departure rfl hleft
    obtain ⟨t, entry', hsend, hcopy, hseq, hpkt, hnum, hmax, hcollision⟩ :=
      turn_send cfg third entry.rtsCtsEnable (setDelayTime first.tick.later first.tick.delay entry) []
    rw [List.foldl_cons, hsend, List.nil_append] at hleft ⊢
    obtain ⟨fourth, moments, rfl⟩ := exists_cons_of_departure rfl hleft
    rw [List.foldl_cons] at hleft ⊢
    have hnum' : entry'.numRetries = 0 := hnum.trans hfirst
    have hmax' : entry'.maxRetries = entry.maxRetries := hmax
    have hcollision' : entry'.collisionOccured = first.tick.delay.collision := hcollision
    have hcopy' : IsCopy cfg entry entry.pkt.bytes t :=
      ⟨hcopy.bytes, hcopy.registrationId, hcopy.messageType, hcopy.numRetries, hcopy.srcNEM, hcopy.dstNEM⟩
    rcases turn_post cfg fourth entry.rtsCtsEnable entry'
      [t] with ⟨hagain, hlimit, hturn⟩ | ⟨hover, hdeparture, hsent⟩
    . right
      rw [hturn] at hleft ⊢
      obtain ⟨fifth, moments, rfl⟩ := exists_cons_of_departure rfl hleft
      rw [List.foldl_cons, turn_pre] at hleft ⊢
      obtain ⟨sixth, moments, rfl⟩ := exists_cons_of_departure rfl hleft
      obtain ⟨t', entry'', hsend', hcopy'', -, -, -, -, -⟩ :=
        turn_send cfg sixth entry.rtsCtsEnable
          (setDelayTime fourth.tick.later fourth.tick.delay
            { entry' with numRetries := entry'.numRetries + 1 }) [t]
      rw [List.foldl_cons, hsend'] at hleft ⊢
      have hsent : [t] ++ [t'] <+: _ := sent_foldl_turn cfg
        ⟨unicastPost entry.rtsCtsEnable, entry'', [t] ++ [t'], none⟩ moments
      refine ⟨htxop, ?_, hcollision'.symm.trans hagain, t, t', hsent.subset (by simp),
        hsent.subset (by simp), hcopy'.bytes, ?_⟩
      . intro hzero
        rw [hnum', hmax', hzero] at hlimit
        exact hlimit (le_refl 0)
      . have hbytes := hcopy''.bytes
        simp only [setDelayTime, hpkt] at hbytes
        exact hbytes
    . left
      rw [foldl_turn_of_departure hdeparture, hsent]
      refine ⟨htxop, ?_, third, t, rfl, rfl, hcopy', hseq hfirst⟩
      rcases hover with hnone | hlimit
      . exact Or.inr (hcollision'.symm.trans hnone)
      . left
        rw [hnum', hmax'] at hlimit
        exact UInt8.le_antisymm hlimit (UInt8.zero_le)

end Service

structure Arrival where
  env : Env
  checks : Nat → Bool
  info : PacketInfo

def Action.delivered : Action → Option Bytes
  | .sendUpstreamPacket pkt => some pkt.get
  | _ => none

namespace MACLayer

theorem processPending_turn (cfg : MACConfig) (tick : Tick) {m : MACLayer} {s : Service}
    (hstate : m.txState = s.txState)
    (hnone : s.departure = none)
    : ∃ s' sent rest, s.turn cfg ⟨tick, m.radio⟩ = s' ∧ s'.sent = s.sent ++ sent
        ∧ (m.processPending cfg tick s.entry).txState = s'.txState
        ∧ (m.processPending cfg tick s.entry).pending
          = (if s'.departure = none then some s'.entry else m.queue.dequeue.1)
        ∧ (m.processPending cfg tick s.entry).actions
          = m.actions ++ .process s.txState s.entry tick.start
            :: (sent.map .transmit ++ (s'.departure.toList.map (.leave s'.entry) ++ rest))
        ∧ ∀ t, Action.transmit t ∉ rest := by
  obtain ⟨next, tokens, hactions⟩ := m.actions_processPending cfg tick s.entry
  obtain ⟨htx, -, -⟩ := m.processPending_spec cfg tick s.entry
  have hpending := m.pending_processPending cfg tick s.entry
  rw [hstate] at hactions htx hpending
  simp only [Service.turn, hnone]
  refine ⟨_, _, _, rfl, rfl, htx, ?_, hactions, by simp⟩
  rcases hpending with ⟨hdeparture, hsame, -⟩ | ⟨hdeparture, hnext, -⟩
  . rw [if_pos hdeparture, hsame]
  . rw [if_neg hdeparture, hnext]

def deliveries (m : MACLayer) : List Bytes :=
  m.actions.filterMap Action.delivered

def receive (cfg : MACConfig) (arrivals : Nat → Option Arrival) (sent : List Transmission)
    (m : MACLayer) : MACLayer :=
  sent.zipIdx.foldl
    (fun m copy =>
      match arrivals copy.2 with
      | some arrival => m.processUpstreamPacket cfg arrival.env arrival.checks
        (.create arrival.info copy.1.pkt.bytes)
      | none => m)
    m

def passed (arrivals : Nat → Option Arrival) (sent : List Transmission) : Bool :=
  sent.zipIdx.any
    (fun copy => (arrivals copy.2).any (fun arrival => received arrival.checks copy.1.header))

theorem deliveries_act (m : MACLayer) (actions : List Action)
    : (m.act actions).deliveries = m.deliveries ++ actions.filterMap Action.delivered := by
  apply List.filterMap_append

theorem deliveries_answerRts (cfg : MACConfig) (now : Nat) (params : MACHeaderParams) (m : MACLayer)
    : (m.answerRts cfg now params).deliveries = m.deliveries := by
  unfold answerRts
  split
  . rw [deliveries_act]
    simp [Action.delivered, deliveries]
  . rfl

theorem duplicateMap_answerRts (cfg : MACConfig) (now : Nat) (params : MACHeaderParams) (m : MACLayer)
    : (m.answerRts cfg now params).duplicateMap = m.duplicateMap := by
  unfold answerRts
  split
  . rfl
  . rfl

theorem isDuplicate_congr {m m' : MACLayer} (h : m'.duplicateMap = m.duplicateMap) (now : Nat)
    (src : NEMId) (seq : UInt16)
    : (m'.isDuplicate now src seq).1 = (m.isDuplicate now src seq).1 := by
  unfold isDuplicate
  rw [h]
  split
  . rfl
  . rfl

theorem deliveries_isDuplicate (now : Nat) (src : NEMId) (seq : UInt16) (m : MACLayer)
    : (m.isDuplicate now src seq).2.deliveries = m.deliveries := by
  unfold isDuplicate
  split
  . rfl
  . rfl

theorem deliveries_handleData {cfg : MACConfig} (env : Env) (checks : Nat → Bool)
    {params : MACHeaderParams} (pkt : UpstreamPacket)
    (m : MACLayer) (hdst : params.dstNEM = cfg.id)
    : (m.handleData cfg env checks params pkt).deliveries
      =
      m.deliveries
        ++ if (m.isDuplicate env.test params.srcNEM params.sequenceNumber).1 = false
            ∧ received checks params = true then
            [pkt.get]
          else
            [] := by
  unfold handleData
  simp only
  split
  . next hduplicate => simp [deliveries_isDuplicate, hduplicate]
  . next hduplicate =>
    have hnot : ¬(params.dstNEM ≠ cfg.id ∧ params.dstNEM ≠ NEM_BROADCAST_MAC_ADDRESS
        ∧ (!cfg.promiscuosEnable) = true) := by
      simp [hdst]
    split
    . next hreceived =>
      rw [deliveries_act, deliveries_isDuplicate]
      simp [hduplicate, hreceived, Action.delivered]
    . next hreceived => simp [deliveries_isDuplicate, hreceived]

theorem deliveries_processUpstreamPacket {cfg receiver : MACConfig} {entry : DownstreamQueueEntry}
    {payload : Bytes}
    {t : Transmission} (hcopy : IsCopy cfg entry payload t)
    (hheader : receiver.headerCodec = cfg.headerCodec)
    (hcommon : receiver.commonCodec = cfg.commonCodec)
    (hid : receiver.id = entry.pkt.info.destination) (arrival : Arrival)
    (m : MACLayer)
    : (m.processUpstreamPacket receiver arrival.env arrival.checks
        (.create arrival.info t.pkt.bytes)).deliveries
      =
      m.deliveries
        ++ if (m.isDuplicate arrival.env.test cfg.id t.header.sequenceNumber).1 = false
              ∧ received arrival.checks t.header = true then
            [payload]
          else
            [] := by
  have hget : (UpstreamPacket.create arrival.info t.pkt.bytes).get
      = frame cfg t.common t.header payload := by
    rw [← hcopy.bytes]
    rfl
  unfold frame at hget
  rw [← hcommon] at hget
  obtain ⟨pkt, htake, hpkt, -⟩ := CommonMACHeader.take_eq receiver.commonCodec hget
  rw [← hheader] at hpkt
  have hpos := receiver.headerCodec.length_pos t.header
  have hne : receiver.headerCodec.encode t.header ++ payload ≠ [] := by
    intro hnil
    rw [(List.append_eq_nil_iff.mp hnil).1] at hpos
    exact Nat.lt_irrefl 0 hpos
  obtain ⟨hstrip, hrest⟩ := UpstreamPacket.stripLengthPrefixFraming_eq
    (receiver.headerCodec.length_lt t.header) hne hpkt
  unfold processUpstreamPacket
  rw [htake]
  simp only
  rw [if_pos hcopy.registrationId]
  unfold handleUpstreamPacket
  rw [hstrip]
  simp only
  have hlength : (receiver.headerCodec.encode t.header).length
      ≤ ({ pkt with head := pkt.head + 2 } : UpstreamPacket).length := by
    rw [UpstreamPacket.length_eq, hrest, List.length_append]
    apply Nat.le_add_right
  rw [if_pos ⟨Nat.ne_of_gt hpos, hlength⟩, hrest, List.take_left, receiver.headerCodec.decode_encode]
  simp only
  rw [if_neg hcopy.messageType]
  rw [deliveries_handleData _ _ _ _ (hcopy.dstNEM.trans hid.symm), deliveries_answerRts]
  rw [isDuplicate_congr (duplicateMap_answerRts _ _ _ _), hcopy.srcNEM, UpstreamPacket.get_strip hrest]

/--
Retransmissions can not be noticed: every copy has the headers in front of the payload once, and
the payload goes upstream once if one of the copies passes its checks.
-/
structure Transparent (cfg receiver : MACConfig) (arrivals : Nat → Option Arrival)
    (sent : List Transmission) (payload : Bytes)
    (m : MACLayer) : Prop where
  framed : ∀ t ∈ sent, t.pkt.bytes = frame cfg t.common t.header payload
  delivered : (m.receive receiver arrivals sent).deliveries
    =
    m.deliveries ++ if passed arrivals sent = true then [payload] else []

theorem transparent_nil (cfg receiver : MACConfig) (arrivals : Nat → Option Arrival)
    (payload : Bytes) (m : MACLayer)
    : m.Transparent cfg receiver arrivals [] payload := by
  constructor
  . simp
  . simp [receive, passed]

theorem transparent_singleton_iff {cfg receiver : MACConfig} {entry : DownstreamQueueEntry}
    {payload : Bytes} {t : Transmission}
    (hcopy : IsCopy cfg entry payload t) (hheader : receiver.headerCodec = cfg.headerCodec)
    (hcommon : receiver.commonCodec = cfg.commonCodec) (hid : receiver.id = entry.pkt.info.destination)
    (arrivals : Nat → Option Arrival) (m : MACLayer)
    : m.Transparent cfg receiver arrivals [t] payload
      ↔
      ∀ arrival, arrivals 0 = some arrival
        → (List.range (entry.maxRetries.toNat + 1)).any arrival.checks = true →
        (m.isDuplicate arrival.env.test cfg.id t.header.sequenceNumber).1 = false := by
  have hframed : ∀ t' ∈ [t], t'.pkt.bytes = frame cfg t'.common t'.header payload := by
    intro t' ht'
    rw [List.mem_singleton.mp ht']
    exact hcopy.bytes
  cases harrival : arrivals 0 with
  | none =>
    constructor
    . intro _ arrival hsome
      cases hsome
    . intro _
      refine ⟨hframed, ?_⟩
      simp [receive, passed, harrival]
  | some arrival =>
    have hreceived : received arrival.checks t.header
        = (List.range (entry.maxRetries.toNat + 1)).any arrival.checks := by
      rw [received, hcopy.numRetries]
    have hdeliveries := deliveries_processUpstreamPacket hcopy hheader hcommon hid arrival m
    have hreceive : m.receive receiver arrivals [t]
        = m.processUpstreamPacket receiver arrival.env arrival.checks
            (.create arrival.info t.pkt.bytes) := by
      simp [receive, harrival]
    have hpassed : passed arrivals [t] = received arrival.checks t.header := by
      simp [passed, harrival]
    constructor
    . rintro ⟨-, hdelivered⟩ arrival' hsome hpass
      cases hsome
      rw [← hreceived] at hpass
      rw [hreceive, hdeliveries, hpassed, hpass] at hdelivered
      by_contra hknown
      simp [hknown] at hdelivered
    . intro hnew
      refine ⟨hframed, ?_⟩
      rw [hreceive, hdeliveries, hpassed]
      cases hpass : received arrival.checks t.header with
      | true => simp [hnew arrival rfl (hreceived.symm.trans hpass)]
      | false => simp

theorem transparent_serve_iff {cfg receiver : MACConfig} {pkt : DownstreamPacket} {now : Nat}
    {moments : List Moment}
    (hunicast : pkt.info.destination ≠ NEM_BROADCAST_MAC_ADDRESS)
    (hleft : (Service.serve cfg moments (createEntry cfg now pkt)).departure ≠ none)
    (hheader : receiver.headerCodec = cfg.headerCodec) (hcommon : receiver.commonCodec = cfg.commonCodec)
    (hid : receiver.id = pkt.info.destination) (arrivals : Nat → Option Arrival) (m : MACLayer)
    : m.Transparent cfg receiver arrivals
        (Service.serve cfg moments (createEntry cfg now pkt)).sent pkt.bytes
      ↔
      ∀ first, moments[0]? = some first →
        txopTimedOut first.tick (createEntry cfg now pkt)
        ∨ (((createEntry cfg now pkt).maxRetries = 0 ∨ first.tick.delay.collision = false)
          ∧ ∀ third arrival, moments[2]? = some third → arrivals 0 = some arrival →
            (List.range ((createEntry cfg now pkt).maxRetries.toNat + 1)).any arrival.checks = true →
            (m.isDuplicate arrival.env.test cfg.id third.radio.entrySequenceNumber).1 = false) := by
  have hdestination : (createEntry cfg now pkt).pkt.info.destination
    ≠ NEM_BROADCAST_MAC_ADDRESS := hunicast
  obtain ⟨first, hfirst, hcases⟩ := Service.serve_cases hdestination rfl hleft
  rcases hcases with ⟨htxop, hsent⟩ | ⟨htxop, honce, third, t, hthird, hsent, hcopy, hseq⟩
    | ⟨htxop, hretries, hcollision, t, t', ht, ht', hbytes, hbytes'⟩
  . rw [hsent]
    constructor
    . intro _ first' hfirst'
      obtain rfl := Option.some.inj (hfirst.symm.trans hfirst')
      exact Or.inl htxop
    . intro _
      apply transparent_nil
  . rw [hsent]
    have hcopy' : IsCopy cfg (createEntry cfg now pkt) pkt.bytes t := hcopy
    rw [transparent_singleton_iff hcopy' hheader hcommon hid, hseq]
    constructor
    . intro hnew first' hfirst'
      obtain rfl := Option.some.inj (hfirst.symm.trans hfirst')
      refine Or.inr ⟨honce, ?_⟩
      intro third' arrival hthird' harrival hpass
      obtain rfl := Option.some.inj (hthird.symm.trans hthird')
      exact hnew arrival harrival hpass
    . intro h arrival harrival hpass
      rcases h first hfirst with hlate | ⟨-, hnew⟩
      . exact absurd hlate htxop
      . exact hnew third arrival hthird harrival hpass
  . constructor
    . rintro ⟨hframed, -⟩
      have hpayload : pkt.bytes = frame cfg t.common t.header pkt.bytes :=
        (frame_inj ((hframed t' ht').symm.trans hbytes')).trans hbytes
      have hlength := length_frame cfg t.common t.header pkt.bytes
      exact absurd (congrArg List.length hpayload) (Nat.ne_of_lt hlength)
    . intro h
      rcases h first hfirst with hlate | ⟨hzero | hnone, -⟩
      . exact absurd hlate htxop
      . exact absurd hzero hretries
      . rw [hcollision] at hnone
        cases hnone

def busyMoments (collision : Bool) : List Moment :=
  (List.range 7).map (fun k => {
    tick := ⟨k, k, k, ⟨0, 0, collision && k == 0⟩, Nat.le_refl _, Nat.le_refl _⟩
    radio := ⟨k, 7, 0⟩
  })

def lossy (collision : Bool) (k : Nat) : Option Arrival :=
  if collision && k == 0 then none else some
    ⟨.still 1000 ⟨0, 0, false⟩, fun _ => true, (packetTo 2 []).info⟩

theorem transparent_serve_iff_once
    : started.Transparent (mode80211b 1) (mode80211b 2) (lossy false)
        (Service.serve (mode80211b 1) (busyMoments false)
          (createEntry (mode80211b 1) 0 (packetTo 2 [1, 2, 3]))).sent [1, 2, 3]
      ∧ (Service.serve (mode80211b 1) (busyMoments false)
          (createEntry (mode80211b 1) 0 (packetTo 2 [1, 2, 3]))).sent.length = 1 := by
  have hleft : (Service.serve (mode80211b 1) (busyMoments false)
      (createEntry (mode80211b 1) 0 (packetTo 2 [1, 2, 3]))).departure ≠ none := by
    decide +kernel
  have hheader : (mode80211b 2).headerCodec = (mode80211b 1).headerCodec := rfl
  refine ⟨?_, by decide +kernel⟩
  refine (transparent_serve_iff (by decide) hleft hheader rfl rfl (lossy false) started).mpr ?_
  intro first hfirst
  cases hfirst
  refine Or.inr ⟨Or.inr rfl, ?_⟩
  intro third arrival _ _ _
  rfl

theorem headers_twice_of_collision
    : ¬started.Transparent (mode80211b 1) (mode80211b 2) (lossy true)
        (Service.serve (mode80211b 1) (busyMoments true)
          (createEntry (mode80211b 1) 0 (packetTo 2 [1, 2, 3]))).sent [1, 2, 3]
      ∧ (started.receive (mode80211b 2) (lossy true)
          (Service.serve (mode80211b 1) (busyMoments true)
            (createEntry (mode80211b 1) 0 (packetTo 2 [1, 2, 3]))).sent).deliveries
        =
        [[0, 4, 8, 3, 16, 2, 0, 15, 8, 2, 16, 2, 24, 1, 32, 7, 40, 1, 48, 2, 56, 162, 6, 1, 2, 3]] := by
  constructor
  . intro h
    have hframed := h.framed
    revert hframed
    decide +kernel
  . decide +kernel

end MACLayer
end Ieee80211abg
end Emane

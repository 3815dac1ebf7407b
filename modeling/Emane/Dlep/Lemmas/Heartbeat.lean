import Emane.Lib.Rounding
import Emane.Dlep.Lemmas.Run
import Emane.Dlep.Lemmas.WireRoundTrip

/-!
This module contains the way of the heartbeat interval from the configuration of one side to the
deadline of the other.
-/

namespace Emane
namespace Dlep

namespace DataItem

def Arrives (cfg : ProtocolConfig) (di di' : DataItem) : Prop :=
  ∃ buf, di.serialize cfg = .ok buf ∧ (deserialize cfg).run buf = .ok (di', [])

variable {cfg : ProtocolConfig} {di di' : DataItem}

theorem id_lt_of_serialize {buf : Bytes} (h : di.serialize cfg = .ok buf)
    : di.id.toNat < 256^cfg.dataItemIdSize.val := by
  obtain ⟨_, _, h⟩ := bind_eq_ok_iff.mp h
  obtain ⟨_, hid, _⟩ := bind_eq_ok_iff.mp h
  exact lt_of_serializeSized di.id.toNat_lt hid

theorem id_of_deserializeValue {id diLength : Nat} {bytes rest : Bytes}
    (h : deserializeValue cfg id diLength bytes = .ok (di, rest))
    : di.id = UInt32.ofNat id := by
  unfold deserializeValue at h
  split at h
  . cases h
  . obtain ⟨_, _, h⟩ := bind_eq_ok_iff.mp h
    obtain ⟨⟨value, unread⟩, _, h⟩ := bind_eq_ok_iff.mp h
    simp only at h
    split at h
    . cases h
    . cases h
      rfl

theorem Arrives.id (h : Arrives cfg di di') : di'.id = di.id := by
  obtain ⟨buf, hbuf, hrun⟩ := h
  obtain ⟨valbuf, -, heq, -⟩ := serialize_cases hbuf
  have hid := reads_deserializeSized 4 cfg.dataItemIdSize.property.2 di.id.toNat_lt
    (id_lt_of_serialize hbuf)
  rw [heq] at hrun
  unfold deserialize at hrun
  rw [hid.run_bind] at hrun
  cases hlength : (deserializeSized 8 cfg.dataItemLengthSize).run
      (BigEndian.digits cfg.dataItemLengthSize valbuf.length ++ valbuf) with
  | error e =>
    have hfails : (.error e : Except Error (DataItem × Bytes)) = .ok (di', []) := by
      rw [← hrun, StateT.run_bind, hlength]
      rfl
    cases hfails
  | ok res =>
    have hvalue : deserializeValue cfg di.id.toNat res.1 res.2 = .ok (di', []) := by
      rw [← hrun, StateT.run_bind, hlength]
      rfl
    rw [id_of_deserializeValue hvalue, UInt32.ofNat_toNat]

theorem Arrives.eq (h : Arrives cfg di di')
    (htype : cfg.getDataItemValueType di.id = .ok di.value.getType)
    (hshort : ∀ valbuf, di.value.serialize cfg = .ok valbuf → valbuf.length < 256)
    (hextensionIds : di.value.extensionIds = [])
    : di' = ⟨di.id, di.value.received⟩ := by
  obtain ⟨buf, hbuf, hrun⟩ := h
  have hfits : di.Fits cfg := by
    constructor
    . exact htype
    . exact id_lt_of_serialize hbuf
    . simp [hextensionIds]
    . intro valbuf hvalue
      exact Nat.lt_of_lt_of_le (hshort valbuf hvalue)
        (Nat.le_self_pow (by have := cfg.dataItemLengthSize.property.1; omega) 256)
  obtain ⟨valbuf, hvalue, heq, -⟩ := serialize_cases hbuf
  obtain ⟨e, hback⟩ := run_deserialize hfits hvalue []
  rw [List.append_nil, ← heq, hrun] at hback
  split at hback
  . cases hback
  . exact (Prod.mk.inj (Except.ok.inj hback)).1

theorem Arrives.eq_u16 {id : DataItemIdType} {value : UInt16}
    (hlookup : cfg.dataItemInfoMap.lookup id = some .div_u16)
    (h : Arrives cfg ⟨id, .div_u16 value⟩ di')
    : di' = ⟨id, .div_u16 value⟩ := by
  refine h.eq ?_ ?_ rfl
  . unfold ProtocolConfig.getDataItemValueType
    rw [hlookup]
    rfl
  . intro valbuf hvalue
    cases hvalue
    simp [serializeU16, Dlep.serialize]

theorem Arrives.eq_u32 {id : DataItemIdType} {value : UInt32}
    (hlookup : cfg.dataItemInfoMap.lookup id = some .div_u32)
    (h : Arrives cfg ⟨id, .div_u32 value⟩ di')
    : di' = ⟨id, .div_u32 value⟩ := by
  refine h.eq ?_ ?_ rfl
  . unfold ProtocolConfig.getDataItemValueType
    rw [hlookup]
    rfl
  . intro valbuf hvalue
    cases hvalue
    simp [serializeU32, Dlep.serialize]

theorem find?_of_arrive {before received : List DataItem} (hbefore : ∀ other ∈ before, other.id ≠ di.id)
    (hkept : ∀ di', Arrives cfg di di' → di' = di)
    (h : List.Forall₂ (Arrives cfg) (before ++ [di]) received)
    : received.find? (fun other => other.id = di.id) = some di := by
  induction before generalizing received with
  | nil =>
    cases h with
    | cons hdi _ =>
      rw [hkept _ hdi, List.find?_cons_of_pos (by simp)]
  | cons other before ih =>
    cases h with
    | cons hother hrest =>
      have hne : other.id ≠ di.id := hbefore other List.mem_cons_self
      rw [List.find?_cons_of_neg (by simp [hother.id, hne])]
      exact ih (fun other hmem => hbefore other (List.mem_cons_of_mem _ hmem)) hrest

end DataItem

namespace HeartbeatConfig

variable (cfg : HeartbeatConfig)

def fieldBits (id : DataItemIdType) : Option Nat :=
  match cfg.dataItemInfoMap.lookup id with
  | some .div_u16 => some 16
  | some .div_u32 => some 32
  | _ => none

def Representable (bits : Nat) : Prop :=
  cfg.heartbeatInterval.toNat * cfg.units.divisor < 2^bits
    ∧ cfg.heartbeatInterval.toNat * cfg.units.divisor + cfg.units.divisor / 2 < 2^32

instance (bits : Nat) : Decidable (cfg.Representable bits) :=
  inferInstanceAs (Decidable (_ ∧ _))

theorem divisor_pos (units : HeartbeatUnits) : 0 < units.divisor := by
  cases units with
  | _ => decide

theorem toNat_convertedInterval
    : cfg.convertedInterval.toNat = cfg.heartbeatInterval.toNat * cfg.units.divisor % 2^32 := by
  have hlt : cfg.heartbeatInterval.toNat < 2^32 := cfg.heartbeatInterval.toNat_lt
  unfold convertedInterval HeartbeatUnits.divisor
  cases cfg.units with
  | milliseconds => exact UInt32.toNat_mul _ _
  | microseconds => exact UInt32.toNat_mul _ _
  | _ =>
    simp only [Nat.mul_one]
    exact (Nat.mod_eq_of_lt hlt).symm

end HeartbeatConfig

namespace ProtocolMessage

variable {cfg : HeartbeatConfig} {id : DataItemIdType} {bits : Nat}

theorem getHeartbeatInterval_of_sent (hid : cfg.dataItemId .heartbeatInterval = some id)
    (hbits : cfg.fieldBits id = some bits)
    {pm sent received : ProtocolMessage} (hfresh : ∀ di ∈ pm.dataItems, di.id ≠ id)
    (hadd : pm.addHeartbeatInterval cfg = .ok sent)
    (harrives : List.Forall₂ (DataItem.Arrives cfg.toProtocolConfig) sent.dataItems received.dataItems)
    : received.getHeartbeatInterval cfg.toSessionConfig = .ok
        (cfg.heartbeatInterval.toNat * cfg.units.divisor % 2^32 % 2^bits) := by
  have hgetId : cfg.getDataItemId .heartbeatInterval = .ok id := by
    unfold SessionConfig.getDataItemId
    rw [hid]
  have hconverted := cfg.toNat_convertedInterval
  unfold addHeartbeatInterval at hadd
  rw [hgetId] at hadd
  unfold getHeartbeatInterval getDataItemValue SessionConfig.getDataItemValueTypeOf
  rw [hgetId]
  unfold HeartbeatConfig.fieldBits at hbits
  split at hbits
  . next hlookup =>
    cases hbits
    simp only [bind, Except.bind, hlookup] at hadd
    cases hadd
    have hfind := DataItem.find?_of_arrive hfresh (fun _ => DataItem.Arrives.eq_u16 hlookup) harrives
    simp only [bind, Except.bind, pure, Except.pure, hlookup]
    rw [hfind]
    simp only [UInt32.toNat_toUInt16, hconverted]
  . next hlookup =>
    cases hbits
    simp only [bind, Except.bind, hlookup] at hadd
    cases hadd
    have hfind := DataItem.find?_of_arrive hfresh (fun _ => DataItem.Arrives.eq_u32 hlookup) harrives
    simp only [bind, Except.bind, pure, Except.pure, hlookup]
    rw [hfind]
    simp only [hconverted, Nat.mod_mod]
  . cases hbits

end ProtocolMessage

namespace Session

variable (ctx : Context) (s : Session)

theorem storeHeartbeatInterval_of_get {pm : ProtocolMessage} {interval : Nat}
    (h : pm.getHeartbeatInterval ctx.cfg = .ok interval)
    : ∃ s', s.storeHeartbeatInterval ctx pm = .ok s'
        ∧ s'.peer.peerHeartbeatIntervalSec = nearest 32 ctx.cfg.heartbeatDivisor interval := by
  unfold storeHeartbeatInterval
  rw [h]
  exact ⟨_, rfl, rfl⟩

theorem lt_of_getHeartbeatInterval {cfg : SessionConfig} {pm : ProtocolMessage} {interval : Nat}
    (h : pm.getHeartbeatInterval cfg = .ok interval)
    : interval < 2^32 := by
  obtain ⟨_, _, h⟩ := bind_eq_ok_iff.mp h
  split at h
  . obtain ⟨_, _, h⟩ := bind_eq_ok_iff.mp h
    split at h
    . next value _ =>
      cases h
      have hlt : value.toNat < 2^16 := value.toNat_lt
      omega
    . cases h
  . obtain ⟨_, _, h⟩ := bind_eq_ok_iff.mp h
    split at h
    . next value _ =>
      cases h
      exact value.toNat_lt
    . cases h
  . cases h

def FindsInactive (env : Env) : Prop :=
  s.checkForActivity { ctx with env := env } ≠ .ok (true, s)

theorem findsInactive_iff (env : Env)
    : s.FindsInactive ctx env
        ↔
      s.peer.peerHeartbeatIntervalSec ≠ 0
        ∧ (s.peer.lastReceiveTime + s.peer.peerHeartbeatIntervalSec * ctx.cfg.heartbeatThreshold
            % 2^32) % 2^32 ≤ env.now := by
  unfold FindsInactive checkForActivity
  split
  . next hzero => exact iff_of_false (fun h => h rfl) (fun h => h.1 hzero)
  . next hne =>
    split
    . next hle =>
      refine iff_of_true ?_ ⟨hne, hle⟩
      intro hactive
      cases hterminate : s.terminate { ctx with env := env } .timedOut with
      | error fault =>
        rw [hterminate] at hactive
        cases hactive
      | ok s' =>
        rw [hterminate] at hactive
        have hflag := congrArg Prod.fst (Except.ok.inj hactive)
        cases hflag
    . next hgt => exact iff_of_false (fun h => h rfl) (fun h => hgt h.2)

theorem findsInactive_late_iff
    : (∀ env, s.FindsInactive ctx env →
          s.peer.lastReceiveTime + s.peer.peerHeartbeatIntervalSec * ctx.cfg.heartbeatThreshold ≤ env.now)
        ↔
      s.peer.peerHeartbeatIntervalSec = 0
        ∨ s.peer.lastReceiveTime + s.peer.peerHeartbeatIntervalSec * ctx.cfg.heartbeatThreshold
            < 2^32 := by
  simp only [findsInactive_iff]
  by_cases hzero : s.peer.peerHeartbeatIntervalSec = 0
  . exact iff_of_true (fun env h => absurd hzero h.1) (Or.inl hzero)
  . rw [or_iff_right hzero, ← deadline_iff]
    constructor
    . exact fun h now hnow => h { ctx.env with now := now } ⟨hzero, hnow⟩
    . exact fun h env henv => h env.now henv.2

end Session

/--
What the receiver stores for an interval, when that is zero, and when no peer is found inactive too
early.
-/
theorem heartbeat_interval_iff (ctx : Context) (s : Session)
    : (∀ (cfg : HeartbeatConfig) (id : DataItemIdType) (bits : Nat) (pm sent received : ProtocolMessage),
        ctx.cfg = cfg.toSessionConfig → cfg.dataItemId .heartbeatInterval = some id
          → cfg.fieldBits id = some bits →
        1 ≤ cfg.heartbeatInterval.toNat → (∀ di ∈ pm.dataItems, di.id ≠ id)
          → pm.addHeartbeatInterval cfg = .ok sent →
        List.Forall₂ (DataItem.Arrives cfg.toProtocolConfig) sent.dataItems received.dataItems →
          ∃ s', s.storeHeartbeatInterval ctx received = .ok s'
            ∧ (s'.peer.peerHeartbeatIntervalSec = cfg.heartbeatInterval.toNat ↔ cfg.Representable bits))
        ∧ (∀ (cfg : HeartbeatConfig) (pm : ProtocolMessage) (interval : Nat),
        ctx.cfg = cfg.toSessionConfig → pm.getHeartbeatInterval ctx.cfg = .ok interval →
          ∃ s', s.storeHeartbeatInterval ctx pm = .ok s'
            ∧ (s'.peer.peerHeartbeatIntervalSec ≠ 0
                ↔ cfg.units.divisor ≤ interval + cfg.units.divisor / 2
                  ∧ interval + cfg.units.divisor / 2 < 2^32))
        ∧ ((∀ env, s.FindsInactive ctx env →
            s.peer.lastReceiveTime + s.peer.peerHeartbeatIntervalSec
              * ctx.cfg.heartbeatThreshold ≤ env.now)
          ↔
        s.peer.peerHeartbeatIntervalSec = 0
          ∨ s.peer.lastReceiveTime + s.peer.peerHeartbeatIntervalSec * ctx.cfg.heartbeatThreshold
              < 2^32) := by
  refine ⟨?_, ?_, s.findsInactive_late_iff ctx⟩
  . intro cfg id bits pm sent received hcfg hid hbits hpos hfresh hadd harrives
    have hget := ProtocolMessage.getHeartbeatInterval_of_sent hid hbits hfresh hadd harrives
    rw [← hcfg] at hget
    obtain ⟨s', hstore, hsec⟩ := s.storeHeartbeatInterval_of_get ctx hget
    refine ⟨s', hstore, ?_⟩
    have hle : bits ≤ 32 := by
      unfold HeartbeatConfig.fieldBits at hbits
      split at hbits
      . cases hbits
        decide
      . cases hbits
        decide
      . cases hbits
    rw [hsec, hcfg, cfg.divisor]
    exact nearest_scaled_iff hle (HeartbeatConfig.divisor_pos cfg.units) hpos
  . intro cfg pm interval hcfg hget
    obtain ⟨s', hstore, hsec⟩ := s.storeHeartbeatInterval_of_get ctx hget
    refine ⟨s', hstore, ?_⟩
    rw [hsec, hcfg, cfg.divisor]
    exact nearest_ne_zero_iff (HeartbeatConfig.divisor_pos cfg.units)
      (Session.lt_of_getHeartbeatInterval hget)

theorem divisor_milliseconds (heartbeatThreshold : Nat)
    : ({ Node.rfc8175 true with heartbeatThreshold :=
        heartbeatThreshold } : SessionConfig).heartbeatDivisor
        = HeartbeatUnits.milliseconds.divisor := by
  rfl

def heartbeatConfig (heartbeatInterval : UInt32) (heartbeatThreshold : Nat) : HeartbeatConfig where
  toSessionConfig := { Node.rfc8175 true with heartbeatThreshold := heartbeatThreshold }
  units := .milliseconds
  heartbeatInterval := heartbeatInterval
  divisor := divisor_milliseconds heartbeatThreshold

def heartbeatContext (cfg : HeartbeatConfig) : Context where
  cfg := cfg.toSessionConfig
  env := Node.quietEnv
  self := 0
  localPdp := .create (Node.rfc8175 true) none []
  peers := []

def heartbeatSession (seconds now : Nat) : Session where
  peer := { Peer.create 1 now with peerHeartbeatIntervalSec := seconds }
  infoBase := .empty
  calls := []

def heartbeatMessage (interval : UInt32) : ProtocolMessage where
  name := .sessionInitialization
  dataItems := [⟨5, .div_u32 interval⟩]

theorem arrives_heartbeatMessage (interval : UInt32)
    : List.Forall₂ (DataItem.Arrives (heartbeatConfig 0 0).toProtocolConfig)
        (heartbeatMessage interval).dataItems
        (heartbeatMessage interval).dataItems := by
  have htrips : DataItem.RoundTrips (heartbeatConfig 0 0).toProtocolConfig ⟨5, .div_u32 interval⟩ := by
    have hfits : DataItem.Fits (heartbeatConfig 0 0).toProtocolConfig ⟨5, .div_u32 interval⟩ := by
      constructor
      . rfl
      . exact (by decide : (5 : UInt32).toNat < 256^2)
      . simp [DataItemValue.extensionIds]
      . intro valbuf hvalue
        cases hvalue
        simp [serializeU32, serialize, heartbeatConfig, Node.rfc8175, rfc8175Wire, FieldSizeInBytes.two]
    rw [DataItem.roundTrips_iff hfits]
    exact ⟨by decide, Or.inl (by decide), trivial⟩
  obtain ⟨buf, hbuf, hread⟩ := htrips
  refine .cons ⟨buf, hbuf, ?_⟩ .nil
  have hall := hread []
  rw [List.append_nil] at hall
  exact hall

theorem heartbeat_interval_iff_minute
    : ∃ s', (heartbeatSession 0 0).storeHeartbeatInterval (heartbeatContext (heartbeatConfig 60 4))
        (heartbeatMessage 60000) = .ok s'
        ∧ s'.peer.peerHeartbeatIntervalSec = 60 := by
  have hstored := (heartbeat_interval_iff (heartbeatContext (heartbeatConfig 60 4))
    (heartbeatSession 0 0)).1 (heartbeatConfig 60 4) 5 32
    ⟨.sessionInitialization, []⟩ (heartbeatMessage 60000) (heartbeatMessage 60000) rfl rfl rfl
      (by decide) (by simp) rfl
    (arrives_heartbeatMessage 60000)
  obtain ⟨s', hstore, hiff⟩ := hstored
  exact ⟨s', hstore, hiff.mpr (by decide)⟩

theorem not_heartbeat_interval
    : (∃ sent s', ProtocolMessage.addHeartbeatInterval (heartbeatConfig 4294968 4)
        ⟨.sessionInitialization, []⟩ = .ok sent
          ∧ List.Forall₂ (DataItem.Arrives (heartbeatConfig 4294968 4).toProtocolConfig)
            sent.dataItems sent.dataItems
          ∧ (heartbeatSession 0 0).storeHeartbeatInterval
            (heartbeatContext (heartbeatConfig 4294968 4)) sent = .ok s'
          ∧ s'.peer.peerHeartbeatIntervalSec = 1)
        ∧
      (∃ s', (heartbeatSession 0 0).storeHeartbeatInterval (heartbeatContext (heartbeatConfig 60 4))
        (heartbeatMessage 400) = .ok s'
          ∧ s'.peer.peerHeartbeatIntervalSec = 0)
        ∧ (heartbeatSession 4294966 1700000000).FindsInactive (heartbeatContext (heartbeatConfig 60 1000))
        { Node.quietEnv with now := 1700000000 } := by
  refine ⟨?_, ?_, ?_⟩
  . exact ⟨heartbeatMessage 704, _, rfl, arrives_heartbeatMessage 704, rfl, by decide⟩
  . exact ⟨_, rfl, by decide⟩
  . rw [Session.findsInactive_iff]
    decide

end Dlep
end Emane

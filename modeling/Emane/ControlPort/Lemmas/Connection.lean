import Emane.ControlPort.Lemmas.ControlPortClient
import Emane.Lib.Machine
import Mathlib.Data.List.Nodup

/-!
This module contains the pairing of requests and responses on the connection between a client and
a session.
-/

namespace Emane
namespace ControlPort
namespace Connection

open LengthPrefix (Receiver)
open LengthPrefix.Receiver (Follows)

variable {μ ρ ε : Type} {handlers : Handlers μ ρ ε} {requests : Codec (Request μ)}
  {responses : Codec (Response ρ)}

/--
The session handles what is sent, once and in order, a caller takes the response to its own
request, and no caller is left at its event when nothing is on its way any more.
-/
structure Paired (handlers : Handlers μ ρ ε) (requests : Codec (Request μ))
    (responses : Codec (Response ρ)) (s : Connection μ ρ ε)
    : Prop where
  sent : s.sent <+: s.client.calls.map Call.request
  handled : s.handled.map Prod.fst <+: s.sent
  complete : s.lost = false → s.toServer = [] → s.handled.map Prod.fst = s.sent
  own : ∀ (i : Nat) (call : Call μ ρ) (response : Response ρ),
    s.client.calls[i]? = some call → call.progress = .answered response
      → s.handled[i]? = some (call.request, response)
  quiet : s.lost = false → s.toServer = [] → s.toClient = [] → ∀ call ∈ s.client.calls,
    call.progress ≠ .waiting
  released : s.client.connected = false → ∀ call ∈ s.client.calls, call.progress ≠ .waiting
  noticed : s.lost = true → s.toClient = [] → s.client.connected = true
    → ∃ s', step handlers requests responses s (.clientReceive 0) = some s' ∧ s'.client.connected = false
  woken : ∀ (i : Nat) (call : Call μ ρ), s.client.calls[i]? = some call → call.progress = .woken
    → ∃ s' call', step handlers requests responses s (.collect i) = some s'
      ∧ s'.client.calls[i]? = some call'
      ∧ if s.client.connected then ∃ response, call'.progress = .answered response
        else call'.progress = .terminated
  keys : ∀ call ∈ s.client.calls, call.progress ≠ .keyError

def Alone (s : Connection μ ρ ε) : Event μ ε → Prop
  | .sendMessage _ => s.client.connected = true → s.client.eventMap.toList = []
  | .clientReceiveError => False
  | _ => True

instance Alone.decidable (s : Connection μ ρ ε) : (e : Event μ ε) → Decidable (Alone s e)
  | .sendMessage _ => inferInstanceAs (Decidable (_ → _))
  | .clientReceiveError => inferInstanceAs (Decidable False)
  | .collect _ | .serverReceive _ | .clientReceive _ | .stop | .connectionLoss _ _ | .emulator _ =>
    inferInstanceAs (Decidable True)

structure Inv (requests : Codec (Request μ)) (responses : Codec (Response ρ)) (s : Connection μ ρ ε)
    : Prop where
  toServer : ∃ later bodies, s.sent = s.handled.map Prod.fst ++ later ∧ requests.Encodes later bodies
    ∧ (s.session = none → s.lost = true) ∧ ∀ session, s.session = some session
      → session.receiver.Follows s.lost s.toServer bodies
  references : ∀ e ∈ s.handled, e.2.reference = e.1.sequence
  toClient : ∃ n later bodies, (s.handled.map Prod.snd).drop n = later ∧ n ≤ s.handled.length
    ∧ responses.Encodes later bodies
    ∧ s.client.receiver.Follows s.lost s.toClient bodies ∧ s.client.Callers s.sent s.handled n

variable {s s' : Connection μ ρ ε}

theorem inv_create (emulator : ε) : Inv requests responses (create emulator) where
  toServer := by
    refine ⟨[], [], rfl, .nil, ?_, ?_⟩
    . intro hnone
      cases hnone
    . intro session hsession
      cases hsession
      exact Receiver.follows_start
  references _ h := by cases h
  toClient := ⟨0, [], [], rfl, Nat.le_refl _, .nil, Receiver.follows_start,
    ControlPortClient.callers_create⟩

theorem recv_eq_some {lost : Bool} {stream data rest : List UInt8} {wanted length : Nat}
    (h : recv lost stream wanted length = some (data, rest))
    : stream = data ++ rest ∧ data.length ≤ wanted ∧ (data.length = 0 → lost = true ∧ stream = []) := by
  unfold recv at h
  split at h
  . split at h
    . next hlost =>
      cases h
      exact ⟨hlost.2, Nat.zero_le _, fun _ => hlost⟩
    . cases h
  . next hne =>
    split at h
    . next hle =>
      cases h
      have hlength : (stream.take length).length = length := List.length_take_of_le hle.2
      refine ⟨(List.take_append_drop length stream).symm, ?_, ?_⟩
      . rw [hlength]
        exact hle.1
      intro hzero
      exact absurd (hlength ▸ hzero) hne
    . cases h

theorem write_follows {r : Receiver} {lost : Bool} {rest body : List UInt8}
    {bodies : List (List UInt8)} (h : r.Follows lost rest bodies)
    (hfits : LengthPrefix.Fits body)
    : r.Follows lost (write lost rest (LengthPrefix.frame body)) (bodies ++ [body]) := by
  exact h.write hfits

theorem write_nil (lost : Bool) (stream : List UInt8) : write lost stream [] = stream := by
  unfold write
  split
  . rfl
  . exact List.append_nil stream

theorem Inv.sendMessage (h : Inv requests responses s) {request : Request μ}
    (halone : Alone s (.sendMessage request : Event μ ε))
    (hstep : s.sendMessage requests request = some s')
    : Inv requests responses s' := by
  obtain ⟨n, laterR, bodiesR, hdrop, hn, hencodesR, hfollowsR, hcallers⟩ := h.toClient
  have hcallers' := hcallers.sendMessage request halone
  have hreceiver : (s.client.sendMessage request).1.receiver = s.client.receiver := by
    unfold ControlPortClient.sendMessage
    split <;> rfl
  unfold Connection.sendMessage at hstep
  split at hstep
  . next client heq =>
    cases hstep
    rw [heq] at hcallers' hreceiver
    rw [Option.toList_none, List.append_nil] at hcallers'
    exact ⟨h.toServer, h.references, n, laterR, bodiesR, hdrop, hn, hencodesR,
      hreceiver ▸ hfollowsR, hcallers'⟩
  . next client written heq =>
    rw [Option.map_eq_some_iff] at hstep
    obtain ⟨msg, hmsg, rfl⟩ := hstep
    rw [heq] at hcallers' hreceiver
    refine ⟨?_, h.references, n, laterR, bodiesR, hdrop, hn, hencodesR, hreceiver ▸ hfollowsR, hcallers'⟩
    obtain ⟨later, bodies, hsent, hencodes, hended, hfollows⟩ := h.toServer
    refine ⟨later ++ [written], bodies ++ [msg], ?_, hencodes.append hmsg, hended, ?_⟩
    . rw [hsent, List.append_assoc]
    . intro session hsession
      exact write_follows (hfollows session hsession) (requests.fits written msg hmsg)

theorem Inv.collect (h : Inv requests responses s) {i : Nat} (hstep : s.collect i = some s')
    : Inv requests responses s' := by
  unfold Connection.collect at hstep
  rw [Option.bind_eq_some_iff] at hstep
  obtain ⟨call, hcall, hstep⟩ := hstep
  split at hstep
  . next hwoken =>
    cases hstep
    obtain ⟨n, laterR, bodiesR, hdrop, hn, hencodesR, hfollowsR, hcallers⟩ := h.toClient
    have hreceiver : (s.client.collect i call).receiver = s.client.receiver := by
      unfold ControlPortClient.collect
      split
      . split
        . rfl
        . dsimp only
          split <;> rfl
      . rfl
    refine ⟨h.toServer, h.references, n, laterR, bodiesR, hdrop, hn, hencodesR, ?_,
      (hcallers.collect hcall hwoken).1⟩
    exact hreceiver ▸ hfollowsR
  . cases hstep

theorem Inv.serverReceive (h : Inv requests responses s) {length : Nat}
    (hstep : s.serverReceive handlers requests responses length = some s')
    : Inv requests responses s' := by
  unfold Connection.serverReceive at hstep
  rw [Option.bind_eq_some_iff] at hstep
  obtain ⟨session, hsession, hstep⟩ := hstep
  rw [Option.bind_eq_some_iff] at hstep
  obtain ⟨⟨data, rest⟩, hrecv, hstep⟩ := hstep
  rw [Option.map_eq_some_iff] at hstep
  obtain ⟨p, hp, rfl⟩ := hstep
  obtain ⟨hstream, hwanted, hend⟩ := recv_eq_some hrecv
  obtain ⟨later, bodies, hsent, hencodes, hended, hfollows⟩ := h.toServer
  obtain ⟨n, laterR, bodiesR, hdrop, hn, hencodesR, hfollowsR, hcallers⟩ := h.toClient
  have hfollows := hfollows session hsession
  by_cases hdata : data.length = 0
  . -- the end of the stream
    obtain ⟨hlost, _⟩ := hend hdata
    unfold Session.process at hp
    rw [if_pos hdata] at hp
    cases hp
    simp only [write_nil, List.append_nil]
    refine ⟨⟨later, bodies, hsent, hencodes, fun _ => hlost, ?_⟩, h.references, n, laterR, bodiesR,
      hdrop, hn, hencodesR, hfollowsR,
      hcallers⟩
    intro session' hsession'
    cases hsession'
  . rw [hstream] at hfollows
    obtain ⟨hnone, hpending, hfollows'⟩ | ⟨body, bodies', rfl, htake, hfollows'⟩ :=
      hfollows.take (Nat.le_trans hwanted session.wanted_le)
    . -- a part of a message
      have hne : (session.receiver.take data).1.pending ≠ [] := by
        rw [hpending]
        intro hnil
        rw [List.append_eq_nil_iff] at hnil
        rw [hnil.2] at hdata
        exact hdata rfl
      rw [Session.process_of_take_none hdata hnone hne] at hp
      cases hp
      simp only [write_nil, List.append_nil]
      refine ⟨⟨later, bodies, hsent, hencodes, ?_, ?_⟩, h.references, n, laterR, bodiesR, hdrop, hn,
        hencodesR, hfollowsR, hcallers⟩
      . intro hnot
        cases hnot
      . intro session' hsession'
        cases hsession'
        exact hfollows'
    . -- the rest of a request
      cases hencodes with
      | @cons request _ later' _ hrequest hencodes =>
        obtain ⟨response, serialization, hresponse, hreference, hsession', hhandled, hwritten⟩ :=
          Session.process_of_take_some hdata htake hrequest hp
        refine ⟨⟨later', bodies', ?_, hencodes, ?_, ?_⟩, ?_, n, laterR ++ [response],
          bodiesR ++ [serialization], ?_, ?_,
          hencodesR.append hresponse, ?_, ?_⟩
        . simp only [hsent, hhandled, List.map_append, List.map_cons, List.map_nil,
            List.append_assoc, List.cons_append, List.nil_append]
        . intro hnot
          rw [hsession'] at hnot
          cases hnot
        . intro session'' hsession''
          rw [hsession'] at hsession''
          cases hsession''
          exact hfollows'
        . intro e he
          simp only [hhandled] at he
          rw [List.mem_append, List.mem_singleton] at he
          cases he with
          | inl hmem => exact h.references e hmem
          | inr heq => exact heq ▸ hreference
        . simp only [hhandled, List.map_append]
          rw [List.drop_append_of_le_length (by rw [List.length_map]; exact hn), hdrop]
          rfl
        . simp only [List.length_append]
          omega
        . simp only [hwritten]
          exact write_follows hfollowsR (responses.fits response serialization hresponse)
        . exact hcallers.handle p.handled

theorem Inv.clientReceive (h : Inv requests responses s) {length : Nat}
    (hstep : s.clientReceive responses length = some s')
    : Inv requests responses s' := by
  unfold Connection.clientReceive at hstep
  split at hstep
  . next hrunning =>
    rw [Option.bind_eq_some_iff] at hstep
    obtain ⟨⟨data, rest⟩, hrecv, hstep⟩ := hstep
    rw [Option.map_eq_some_iff] at hstep
    obtain ⟨client, hclient, rfl⟩ := hstep
    obtain ⟨hstream, hwanted, hend⟩ := recv_eq_some hrecv
    obtain ⟨n, laterR, bodiesR, hdrop, hn, hencodesR, hfollowsR, hcallers⟩ := h.toClient
    have hconnected : s.client.connected = true := hcallers.running ▸ hrunning
    rw [hstream] at hfollowsR
    by_cases hdata : data.length = 0
    . -- the end of the stream
      unfold ControlPortClient.receive at hclient
      rw [if_pos hdata, hcallers.stuck] at hclient
      cases hclient
      rw [List.length_eq_zero_iff.mp hdata, List.nil_append] at hfollowsR
      exact ⟨h.toServer, h.references, n, laterR, bodiesR, hdrop, hn, hencodesR, hfollowsR,
        hcallers.terminate hconnected⟩
    . obtain ⟨hnone, _, hfollows'⟩ | ⟨body, bodies', rfl, htake, hfollows'⟩ := hfollowsR.take
        (s.client.wanted_receiver ▸ hwanted)
      . -- a part of a message
        rw [ControlPortClient.receive_of_take_none hdata hnone] at hclient
        cases hclient
        exact ⟨h.toServer, h.references, n, laterR, bodiesR, hdrop, hn, hencodesR, hfollows',
          hcallers.withReceiver _⟩
      . -- the rest of a response
        cases hencodesR with
        | @cons response _ later' _ hresponse hencodesR =>
          rw [ControlPortClient.receive_of_take_some hdata hcallers.stuck htake hresponse] at hclient
          cases hclient
          have hlt : n < s.handled.length := by
            have hlength := congrArg List.length hdrop
            rw [List.length_drop, List.length_map, List.length_cons] at hlength
            omega
          have hnext : s.handled[n]? = some s.handled[n] := List.getElem?_eq_getElem hlt
          rw [← List.map_drop, List.drop_eq_getElem_cons hlt, List.map_cons, List.cons.injEq] at hdrop
          obtain ⟨rfl, hdrop⟩ := hdrop
          rw [List.map_drop] at hdrop
          have hsent : s.handled.map Prod.fst <+: s.sent := by
            obtain ⟨later, _, hsent, _⟩ := h.toServer
            exact hsent ▸ List.prefix_append _ _
          have hcallers' := (hcallers.withReceiver .start).dispatch hconnected hsent h.references hnext
          refine ⟨h.toServer, h.references, n + 1, later', bodies', hdrop, hlt, hencodesR, ?_, hcallers'⟩
          have hreceiver : (ControlPortClient.dispatch s.handled[n].2
              (s.client.withReceiver .start)).receiver = .start := by
            unfold ControlPortClient.dispatch
            split <;> rfl
          rw [hreceiver]
          exact hfollows'
  . cases hstep

theorem Inv.step (h : Inv requests responses s) {e : Event μ ε} (halone : Alone s e)
    (hstep : step handlers requests responses s e = some s')
    : Inv requests responses s' := by
  cases e with
  | sendMessage request =>
    simp only [Connection.step] at hstep
    split at hstep
    . cases hstep
    . exact h.sendMessage halone hstep
  | collect i =>
    simp only [Connection.step] at hstep
    split at hstep
    . cases hstep
    . exact h.collect hstep
  | serverReceive length => exact h.serverReceive hstep
  | clientReceive length => exact h.clientReceive hstep
  | clientReceiveError => exact halone.elim
  | stop =>
    simp only [Connection.step] at hstep
    split at hstep
    . next hrunning =>
      cases hstep
      obtain ⟨n, laterR, bodiesR, hdrop, hn, hencodesR, hfollowsR, hcallers⟩ := h.toClient
      exact ⟨h.toServer, h.references, n, laterR, bodiesR, hdrop, hn, hencodesR, hfollowsR,
        hcallers.terminate (hcallers.running ▸ hrunning.1)⟩
    . cases hstep
  | connectionLoss toServer toClient =>
    cases hstep
    obtain ⟨later, bodies, hsent, hencodes, _, hfollows⟩ := h.toServer
    obtain ⟨n, laterR, bodiesR, hdrop, hn, hencodesR, hfollowsR, hcallers⟩ := h.toClient
    refine ⟨⟨later, bodies, hsent, hencodes, fun _ => rfl, ?_⟩, h.references, n, laterR, bodiesR,
      hdrop, hn, hencodesR,
      hfollowsR.cut toClient, hcallers⟩
    intro session hsession
    exact (hfollows session hsession).cut toServer
  | emulator emulator =>
    cases hstep
    exact ⟨h.toServer, h.references, h.toClient⟩

theorem Inv.paired (h : Inv requests responses s) : Paired handlers requests responses s := by
  obtain ⟨later, bodies, hsent, hencodes, hended, hfollows⟩ := h.toServer
  obtain ⟨n, laterR, bodiesR, hdrop, hn, hencodesR, hfollowsR, hcallers⟩ := h.toClient
  have hcomplete : s.lost = false → s.toServer = [] → s.handled.map Prod.fst = s.sent := by
    intro hlost hempty
    cases hsession : s.session with
    | none =>
      rw [hended hsession] at hlost
      cases hlost
    | some session =>
      have hfollows := hfollows session hsession
      rw [hlost, hempty] at hfollows
      obtain rfl := hfollows.eq_nil
      cases hencodes
      rw [hsent, List.append_nil]
  refine ⟨hcallers.calls, hsent ▸ List.prefix_append _ _, hcomplete, hcallers.own, ?_,
    hcallers.released, ?_, ?_, hcallers.keys⟩
  . intro hlost hserver hclient
    by_cases hconnected : s.client.connected = true
    . rw [hlost, hclient] at hfollowsR
      obtain rfl := hfollowsR.eq_nil
      cases hencodesR
      -- every call has been answered
      have hlength : s.client.calls.length ≤ n := by
        have hall := congrArg List.length (hcallers.all hconnected)
        have hhandled := congrArg List.length (hcomplete hlost hserver)
        rw [List.drop_eq_nil_iff] at hdrop
        simp only [List.length_map] at hall hhandled hdrop
        omega
      have hturn := hcallers.turn hconnected
      generalize s.client.calls = calls at hturn hlength ⊢
      generalize s.client.eventMap = eventMap at hturn
      generalize s.client.responseMap = responseMap at hturn
      intro call hmem
      cases hturn with
      | idle hallEnded => exact (hallEnded call hmem).ne.1
      | waiting =>
        rw [List.length_append, List.length_singleton] at hlength
        omega
      | woken hallEnded _ hprogress =>
        rw [List.mem_append, List.mem_singleton] at hmem
        cases hmem with
        | inl hmem => exact (hallEnded call hmem).ne.1
        | inr heq => simp [heq, hprogress]
    . exact hcallers.released (by simpa using hconnected)
  . intro hlost hclient hconnected
    refine ⟨{ s with client := s.client.terminate, toClient := [] }, ?_, rfl⟩
    have hrunning : s.client.running = true := hcallers.running.trans hconnected
    simp [Connection.step, Connection.clientReceive, hrunning, recv, hlost, hclient,
      ControlPortClient.receive, hcallers.stuck]
  . intro i call hcall hwoken
    obtain ⟨_, _, hcollected⟩ := hcallers.collect hcall hwoken
    have hstep : Connection.step handlers requests responses s (.collect i) = some
        { s with client := s.client.collect i call } := by
      simp only [Connection.step, hcallers.stuck, Connection.collect, hcall, Option.bind_some, hwoken]
      rfl
    obtain ⟨hconnected, response, _, hcall'⟩ | ⟨hconnected, hcall'⟩ := hcollected
    . refine ⟨_, _, hstep, hcall', ?_⟩
      rw [if_pos hconnected]
      exact ⟨response, rfl⟩
    . refine ⟨_, _, hstep, hcall', ?_⟩
      rw [hconnected]
      rfl

theorem requests_paired {emulator : ε} {events : List (Event μ ε)} {s : Connection μ ρ ε}
    (halone : Guarded (step handlers requests responses) Alone (create emulator) events)
    (hrun : run (step handlers requests responses) (create emulator) events = some s)
    : Paired handlers requests responses s := by
  have hstep : ∀ s e s', Inv requests responses s → Alone s e
    → step handlers requests responses s e = some s'
      → Inv requests responses s' := by
    intro s e s' h halone hstep
    exact h.step halone hstep
  exact (run_inv hstep (inv_create emulator) halone hrun).paired

end Connection

def Codec.ofTable {α : Type} [DecidableEq α] (table : List (α × List UInt8))
    (hbytes : (table.map Prod.snd).Nodup)
    (hfits : ∀ e ∈ table, LengthPrefix.Fits e.2)
    : Codec α where
  serializeToString a := (table.find? (fun e => e.1 = a)).map Prod.snd
  parseFromString bytes := (table.find? (fun e => e.2 = bytes)).map Prod.fst
  parse_serialize a bytes h := by
    rw [Option.map_eq_some_iff] at h
    obtain ⟨e, he, rfl⟩ := h
    have hmem := List.mem_of_find?_eq_some he
    have ha : e.1 = a := by simpa using List.find?_some he
    cases hfind : table.find? (fun e' => e'.2 = e.2) with
    | none =>
      have hne := List.find?_eq_none.mp hfind e hmem
      simp at hne
    | some e' =>
      have heq : e'.2 = e.2 := by simpa using List.find?_some hfind
      rw [List.inj_on_of_nodup_map hbytes (List.mem_of_find?_eq_some hfind) hmem heq]
      exact congrArg some ha
  fits a bytes h := by
    rw [Option.map_eq_some_iff] at h
    obtain ⟨e, he, rfl⟩ := h
    exact hfits e (List.mem_of_find?_eq_some he)

namespace Connection

def manifestRequest : Request Unit where
  sequence := 0
  type := .query
  query := some ⟨.manifest, none, none, none⟩
  update := none

def logLevelRequest : Request Unit where
  sequence := 0
  type := .update
  query := none
  update := some ⟨.logLevel, none, none, none, some 4⟩

def manifestResponse : Response Unit where
  sequence := 1
  reference := 0
  content := .query ()

def logLevelResponse : Response Unit where
  sequence := 2
  reference := 0
  content := .update .logLevel

def requestCodec : Codec (Request Unit) :=
  .ofTable [
    (manifestRequest, [0x08, 0x00, 0x10, 0x01, 0x1a, 0x02, 0x08, 0x02]),
    (logLevelRequest, [0x08, 0x00, 0x10, 0x02, 0x22, 0x06, 0x08, 0x04, 0x2a, 0x02, 0x08, 0x04])
  ] (by decide) (by simp [LengthPrefix.Fits])

def responseCodec : Codec (Response Unit) :=
  .ofTable [
    (manifestResponse, [0x08, 0x01, 0x10, 0x00, 0x18, 0x01, 0x22, 0x04, 0x08, 0x02, 0x12, 0x00]),
    (logLevelResponse, [0x08, 0x02, 0x10, 0x00, 0x18, 0x02, 0x2a, 0x02, 0x08, 0x04])
  ] (by decide) (by simp [LengthPrefix.Fits])

def levelHandlers : Handlers Unit Unit UInt32 where
  manifestQuery emulator := (.query (), emulator)
  configurationQuery _ emulator := (.query (), emulator)
  statisticQuery _ emulator := (.query (), emulator)
  statisticTableQuery _ emulator := (.query (), emulator)
  configurationUpdate _ emulator := (.update .configuration, emulator)
  statisticClearUpdate _ emulator := (.update .statisticClear, emulator)
  statisticTableClearUpdate _ emulator := (.update .statisticTableClear, emulator)
  setLogLevel level _ := level

def oneByOne : List (Event Unit UInt32) :=
  [.sendMessage manifestRequest, .serverReceive 4, .serverReceive 3, .serverReceive 5,
    .clientReceive 1, .clientReceive 3,
    .clientReceive 12, .collect 0, .sendMessage logLevelRequest, .serverReceive 4,
      .serverReceive 12, .clientReceive 4, .stop, .collect 1]

theorem requests_paired_one_by_one
    : ∃ s, run (step levelHandlers requestCodec responseCodec) (create 0) oneByOne = some s
        ∧ s.client.calls.map Call.progress = [.answered manifestResponse, .terminated]
        ∧ Paired levelHandlers requestCodec responseCodec s := by
  have hrun : (run (step levelHandlers requestCodec responseCodec) (create 0) oneByOne).map
    (fun s => s.client.calls.map Call.progress)
      = some [.answered manifestResponse, .terminated] := by
    decide
  rw [Option.map_eq_some_iff] at hrun
  obtain ⟨s, hrun, hprogress⟩ := hrun
  exact ⟨s, hrun, hprogress, requests_paired (by decide) hrun⟩

def overlapping : List (Event Unit UInt32) :=
  [.sendMessage manifestRequest, .sendMessage logLevelRequest, .serverReceive 4, .serverReceive 8,
    .serverReceive 4, .serverReceive 12,
    .clientReceive 4, .clientReceive 12, .collect 1, .clientReceive 4, .clientReceive 10]

theorem requests_not_paired
    : ∃ s, run (step levelHandlers requestCodec responseCodec) (create 0) overlapping = some s
        ∧ s.client.calls.map Call.progress = [.waiting, .answered manifestResponse]
        ∧ ¬ Paired levelHandlers requestCodec responseCodec s := by
  have hrun : (run (step levelHandlers requestCodec responseCodec) (create 0) overlapping).map
      (fun s => (s.client.calls.map Call.progress, s.lost, s.toServer, s.toClient))
      = some ([.waiting, .answered manifestResponse], false, [], []) := by
    decide
  rw [Option.map_eq_some_iff] at hrun
  obtain ⟨s, hrun, hs⟩ := hrun
  obtain ⟨hprogress, hlost, hserver, hclient⟩ : s.client.calls.map Call.progress
    = [.waiting, .answered manifestResponse]
      ∧ s.lost = false ∧ s.toServer = [] ∧ s.toClient = [] := by
    simpa using hs
  refine ⟨s, hrun, hprogress, ?_⟩
  intro hpaired
  have hwaiting : Progress.waiting ∈ s.client.calls.map Call.progress := by simp [hprogress]
  rw [List.mem_map] at hwaiting
  obtain ⟨call, hmem, hcall⟩ := hwaiting
  exact hpaired.quiet hlost hserver hclient call hmem hcall

end Connection
end ControlPort
end Emane

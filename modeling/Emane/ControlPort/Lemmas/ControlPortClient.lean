import Mathlib.Data.List.Forall2
import Emane.ControlPort.Impl.ControlPortClient

/-!
This module contains what the two ends of a connection make of a piece of the stream, and what the
callers of a client see as long as each of them begins when no call is registered.
-/

namespace Emane
namespace ControlPort

open LengthPrefix (Receiver)

variable {μ ρ ε : Type} {handlers : Handlers μ ρ ε} {requests : Codec (Request μ)}
  {responses : Codec (Response ρ)} {data : List UInt8}

def Codec.Encodes {α : Type} (codec : Codec α) (as : List α) (bodies : List (List UInt8)) : Prop :=
  List.Forall₂ (fun a body => codec.serializeToString a = some body) as bodies

theorem Codec.Encodes.append {α : Type} {codec : Codec α} {as : List α} {bodies : List (List UInt8)}
    (h : codec.Encodes as bodies)
    {a : α} {body : List UInt8} (ha : codec.serializeToString a = some body)
    : codec.Encodes (as ++ [a]) (bodies ++ [body]) := by
  exact List.rel_append h (.cons ha .nil)

theorem RequestMessageHandler.reference_process {request : Request μ} {sequence : UInt32} {emulator : ε}
    : (process handlers request sequence emulator).1.reference = request.sequence := by
  rfl

namespace Session

def receiver (session : Session) : Receiver :=
  ⟨session.messageSizeBytes, session.message⟩

def withReceiver (session : Session) (r : Receiver) : Session :=
  ⟨r.size, session.sequence, r.buffer⟩

theorem wanted_le (session : Session) : session.wanted ≤ session.receiver.wanted := by
  unfold wanted Receiver.wanted receiver
  dsimp only
  split
  . exact Nat.le_refl _
  . split <;> omega

variable {emulator : ε} {session : Session}

theorem process_of_take_none (hdata : data.length ≠ 0) (htake : (session.receiver.take data).2 = none)
    (hpending : (session.receiver.take data).1.pending ≠ [])
    : session.process handlers requests responses data emulator
        =
      some ⟨some (session.withReceiver (session.receiver.take data).1), emulator, [], []⟩ := by
  unfold process
  unfold Receiver.take receiver at *
  rw [if_neg hdata]
  by_cases hzero : session.messageSizeBytes = 0
  . rw [if_pos hzero] at htake hpending ⊢
    by_cases hfour : (session.message ++ data).length = 4
    . rw [if_pos hfour] at hpending ⊢
      have hne : LengthPrefix.length (session.message ++ data) ≠ 0 := by
        intro heq
        simp [heq, Receiver.pending] at hpending
      simp [hne, withReceiver, hzero, hfour]
    . simp only [hfour, if_true, if_false, withReceiver, hzero]
  . rw [if_neg hzero] at htake ⊢
    by_cases hall : (session.message ++ data).length = session.messageSizeBytes
    . rw [if_pos hall] at htake
      cases htake
    . simp only [hall, hzero, if_false, withReceiver]

theorem process_of_take_some {body : List UInt8} {request : Request μ} {p : Processed μ ρ ε}
    (hdata : data.length ≠ 0)
    (htake : session.receiver.take data = (.start, some body))
    (hrequest : requests.serializeToString request = some body)
    (h : session.process handlers requests responses data emulator = some p)
    : ∃ response serialization,
        responses.serializeToString response = some serialization
          ∧ response.reference = request.sequence
          ∧
        p.session = some ⟨0, session.sequence + 1, []⟩ ∧ p.handled = [(request, response)]
            ∧ p.written = LengthPrefix.frame serialization := by
  unfold process at h
  unfold Receiver.take receiver at htake
  rw [if_neg hdata] at h
  by_cases hzero : session.messageSizeBytes = 0
  . rw [if_pos hzero] at htake
    split at htake <;> simp at htake
  . rw [if_neg hzero] at htake h
    by_cases hall : (session.message ++ data).length = session.messageSizeBytes
    . rw [if_pos hall] at htake h
      obtain rfl : session.message ++ data = body := Option.some.inj (Prod.mk.inj htake).2
      rw [requests.parse_serialize request _ hrequest] at h
      dsimp only at h
      split at h
      . cases h
      . next serialization hresponse =>
        cases h
        exact ⟨_, serialization, hresponse, RequestMessageHandler.reference_process, rfl, rfl, rfl⟩
    . rw [if_neg hall] at htake
      simp at htake

end Session

namespace ControlPortClient

def receiver (c : ControlPortClient μ ρ) : Receiver :=
  ⟨c.messageLengthBytes, c.buffer⟩

def withReceiver (c : ControlPortClient μ ρ) (r : Receiver) : ControlPortClient μ ρ :=
  { c with messageLengthBytes := r.size, buffer := r.buffer }

@[simp]
theorem wanted_receiver (c : ControlPortClient μ ρ) : c.receiver.wanted = c.wanted := by
  rfl

variable {c : ControlPortClient μ ρ}

theorem receive_of_take_none (hdata : data.length ≠ 0) (htake : (c.receiver.take data).2 = none)
    : c.receive responses data = some (c.withReceiver (c.receiver.take data).1) := by
  unfold receive
  unfold Receiver.take receiver at *
  rw [if_neg hdata]
  by_cases hzero : c.messageLengthBytes = 0
  . by_cases hfour : (c.buffer ++ data).length = 4
    . simp only [hfour, if_true, withReceiver, hzero]
    . simp only [hfour, if_true, if_false, withReceiver, hzero]
  . rw [if_neg hzero] at htake ⊢
    by_cases hall : (c.buffer ++ data).length = c.messageLengthBytes
    . rw [if_pos hall] at htake
      cases htake
    . simp only [hall, hzero, if_false, withReceiver]

theorem receive_of_take_some {body : List UInt8} {response : Response ρ} (hdata : data.length ≠ 0)
    (hstuck : c.stuck = false)
    (htake : c.receiver.take data = (.start, some body))
    (hresponse : responses.serializeToString response = some body)
    : c.receive responses data = some (dispatch response (c.withReceiver .start)) := by
  unfold receive
  unfold Receiver.take receiver at htake
  rw [if_neg hdata]
  by_cases hzero : c.messageLengthBytes = 0
  . rw [if_pos hzero] at htake
    split at htake <;> simp at htake
  . rw [if_neg hzero] at htake ⊢
    by_cases hall : (c.buffer ++ data).length = c.messageLengthBytes
    . rw [if_pos hall] at htake ⊢
      obtain rfl : c.buffer ++ data = body := Option.some.inj (Prod.mk.inj htake).2
      rw [responses.parse_serialize response _ hresponse]
      simp [hstuck, withReceiver, Receiver.start]
    . rw [if_neg hall] at htake
      simp at htake

end ControlPortClient

def Call.Ended (call : Call μ ρ) : Prop :=
  call.progress.outcome ≠ none

variable {call : Call μ ρ}

theorem Call.Ended.ne (h : call.Ended)
    : call.progress ≠ .waiting ∧ call.progress ≠ .woken ∧ call.progress ≠ .keyError := by
  refine ⟨?_, ?_, ?_⟩
  all_goals
    intro heq
    rw [Call.Ended, heq] at h
    exact h rfl

theorem Call.ended_of_answered {response : Response ρ} (h : call.progress = .answered response)
    : call.Ended := by
  rw [Call.Ended, h]
  simp only [Progress.outcome]
  split <;> simp

theorem Call.set_of_ne (h : call.progress ≠ .waiting) : call.set = call := by
  unfold Call.set
  split
  . contradiction
  . rfl

@[simp]
theorem Call.request_set (call : Call μ ρ) : call.set.request = call.request := by
  unfold Call.set
  split <;> rfl

theorem Call.progress_set_ne (call : Call μ ρ) : call.set.progress ≠ .waiting := by
  unfold Call.set
  split
  . simp
  . next hne => exact hne

theorem Call.set_answered_iff {response : Response ρ}
    : call.set.progress = .answered response ↔ call.progress = .answered response := by
  unfold Call.set
  split
  . next heq => simp [heq]
  . rfl

theorem Call.set_keyError_iff : call.set.progress = .keyError ↔ call.progress = .keyError := by
  unfold Call.set
  split
  . next heq => simp [heq]
  . rfl

namespace ControlPortClient

inductive Turn (handled : List (Request μ × Response ρ))
    : Nat → List (Call μ ρ) → SortedMap Nat Nat → SortedMap Nat (Response ρ) → Prop where
  | idle {calls : List (Call μ ρ)} (ended : ∀ call ∈ calls, call.Ended)
      : Turn handled calls.length calls .empty .empty
  | waiting {calls : List (Call μ ρ)} {call : Call μ ρ} (ended : ∀ call ∈ calls, call.Ended)
      (sequence : call.sequence = 0) (progress : call.progress = .waiting)
      : Turn handled calls.length (calls ++ [call]) (SortedMap.empty.set 0 calls.length) .empty
  | woken {calls : List (Call μ ρ)} {call : Call μ ρ} {response : Response ρ}
    (ended : ∀ call ∈ calls, call.Ended)
      (sequence : call.sequence = 0) (progress : call.progress = .woken)
      (answer : handled[calls.length]? = some (call.request, response))
      : Turn handled (calls.length + 1) (calls ++ [call]) (SortedMap.empty.set 0 calls.length)
        (SortedMap.empty.set 0 response)

structure Callers (sent : List (Request μ)) (handled : List (Request μ × Response ρ)) (n : Nat)
    (c : ControlPortClient μ ρ) : Prop where
  stuck : c.stuck = false
  sequence : c.sequence = 0
  running : c.running = c.connected
  sequences : ∀ request ∈ sent, request.sequence = 0
  calls : sent <+: c.calls.map Call.request
  all : c.connected = true → c.calls.map Call.request = sent
  own : ∀ (i : Nat) (call : Call μ ρ) (response : Response ρ),
    c.calls[i]? = some call → call.progress = .answered response
      → handled[i]? = some (call.request, response)
  keys : ∀ call ∈ c.calls, call.progress ≠ .keyError
  turn : c.connected = true → Turn handled n c.calls c.eventMap c.responseMap
  released : c.connected = false → ∀ call ∈ c.calls, call.progress ≠ .waiting

theorem callers_create : (create : ControlPortClient μ ρ).Callers [] [] 0 where
  stuck := rfl
  sequence := rfl
  running := rfl
  sequences _ h := by cases h
  calls := List.prefix_rfl
  all _ := rfl
  own _ _ _ h := by cases h
  keys _ h := by cases h
  turn _ := Turn.idle (List.forall_mem_nil _)
  released h := by cases h

variable {sent : List (Request μ)} {handled : List (Request μ × Response ρ)} {n : Nat}
  {c : ControlPortClient μ ρ}

variable {α : Type} {i : Nat}

theorem getElem?_append_of_some {l : List α} {a : α} (h : l[i]? = some a) (more : List α)
    : (l ++ more)[i]? = some a := by
  rw [List.getElem?_append_left (List.getElem?_eq_some_iff.mp h).1]
  exact h

variable {calls : List (Call μ ρ)} {eventMap : SortedMap Nat Nat}
  {responseMap : SortedMap Nat (Response ρ)}

theorem Turn.mono
    (h : Turn handled n calls eventMap responseMap) (more : List (Request μ × Response ρ))
    : Turn (handled ++ more) n calls eventMap responseMap := by
  cases h with
  | idle hended => exact .idle hended
  | waiting hended hsequence hprogress => exact .waiting hended hsequence hprogress
  | woken hended hsequence hprogress hanswer =>
    exact .woken hended hsequence hprogress (getElem?_append_of_some hanswer more)

variable {call : Call μ ρ}

theorem Turn.of_woken
    (h : Turn handled n calls eventMap responseMap) (hcall : calls[i]? = some call)
    (hwoken : call.progress = .woken)
    : ∃ old response,
        calls = old ++ [call]
          ∧ i = old.length ∧ n = old.length + 1 ∧ (∀ c ∈ old, c.Ended) ∧ call.sequence = 0
          ∧ handled[i]? = some (call.request, response)
          ∧ eventMap = SortedMap.empty.set 0 old.length
          ∧ responseMap = SortedMap.empty.set 0 response := by
  cases h with
  | idle hended => exact absurd hwoken (hended call (List.mem_of_getElem? hcall)).ne.2.1
  | @waiting old last hended hsequence hprogress =>
    exfalso
    have hmem := List.mem_of_getElem? hcall
    rw [List.mem_append, List.mem_singleton] at hmem
    cases hmem with
    | inl hmem => exact (hended call hmem).ne.2.1 hwoken
    | inr heq =>
      rw [heq, hprogress] at hwoken
      cases hwoken
  | @woken old last response hended hsequence hprogress hanswer =>
    by_cases hlt : i < old.length
    . rw [List.getElem?_append_left hlt] at hcall
      exact absurd hwoken (hended call (List.mem_of_getElem? hcall)).ne.2.1
    . have hi : i = old.length := by
        have := (List.getElem?_eq_some_iff.mp hcall).1
        rw [List.length_append, List.length_singleton] at this
        omega
      subst hi
      rw [List.getElem?_concat_length] at hcall
      cases hcall
      exact ⟨old, response, rfl, rfl, rfl, hended, hsequence, hanswer, rfl, rfl⟩

theorem toList_set_empty {ν : Type} (k : Nat) (v : ν) : (SortedMap.empty.set k v).toList = [(k, v)] := by
  rfl

theorem Turn.of_free
    (h : Turn handled n calls eventMap responseMap) (hfree : eventMap.toList = [])
    : n = calls.length ∧ eventMap = .empty ∧ responseMap = .empty ∧ ∀ call ∈ calls, call.Ended := by
  cases h with
  | idle hended => exact ⟨rfl, rfl, rfl, hended⟩
  | waiting => exact absurd hfree (by simp [toList_set_empty])
  | woken => exact absurd hfree (by simp [toList_set_empty])

theorem Callers.handle (h : c.Callers sent handled n) (more : List (Request μ × Response ρ))
    : c.Callers sent (handled ++ more) n := by
  refine { h with own := ?_, turn := ?_ }
  . intro i call response hcall hanswered
    exact getElem?_append_of_some (h.own i call response hcall hanswered) more
  . intro hconnected
    exact (h.turn hconnected).mono more

theorem Callers.withReceiver (h : c.Callers sent handled n) (r : LengthPrefix.Receiver)
    : (c.withReceiver r).Callers sent handled n := by
  exact ⟨h.stuck, h.sequence, h.running, h.sequences, h.calls, h.all, h.own, h.keys, h.turn, h.released⟩

theorem getElem?_concat_eq_some {l : List α} {a b : α} (h : (l ++ [a])[i]? = some b)
    : l[i]? = some b ∨ b = a := by
  by_cases hlt : i < l.length
  . rw [List.getElem?_append_left hlt] at h
    exact .inl h
  . have hi : i = l.length := by
      have := (List.getElem?_eq_some_iff.mp h).1
      rw [List.length_append, List.length_singleton] at this
      omega
    rw [hi, List.getElem?_concat_length] at h
    exact .inr (Option.some.inj h).symm

theorem Callers.begin (h : c.Callers sent handled n) (call : Call μ ρ)
    (hanswered : ∀ response, call.progress ≠ .answered response)
    (hkey : call.progress ≠ .keyError)
    : (∀ (i : Nat) (call' : Call μ ρ) (response : Response ρ),
        (c.calls ++ [call])[i]? = some call' → call'.progress = .answered response
          → handled[i]? = some (call'.request, response))
        ∧ ∀ call' ∈ c.calls ++ [call], call'.progress ≠ .keyError := by
  constructor
  . intro i call' response hcall hresponse
    cases getElem?_concat_eq_some hcall with
    | inl hcall => exact h.own i call' response hcall hresponse
    | inr heq => exact absurd (heq ▸ hresponse) (hanswered response)
  . intro call' hmem
    rw [List.mem_append, List.mem_singleton] at hmem
    cases hmem with
    | inl hmem => exact h.keys call' hmem
    | inr heq => exact heq ▸ hkey

theorem Callers.sendMessage (h : c.Callers sent handled n) (request : Request μ)
    (hfree : c.connected = true → c.eventMap.toList = [])
    : (c.sendMessage request).1.Callers (sent ++ (c.sendMessage request).2.toList) handled n := by
  unfold ControlPortClient.sendMessage
  by_cases hconnected : c.connected = true
  . rw [if_pos hconnected]
    obtain ⟨hn, hevents, hresponses, hended⟩ := (h.turn hconnected).of_free (hfree hconnected)
    have hall := h.all hconnected
    obtain ⟨hown, hkeys⟩ := h.begin
      ⟨{ request with sequence := .ofNat c.sequence }, c.sequence, .waiting⟩ (by simp) (by simp)
    refine ⟨h.stuck, h.sequence, h.running, ?_, ?_, ?_, hown, hkeys, ?_, ?_⟩
    . intro r hr
      rw [Option.toList_some, List.mem_append, List.mem_singleton] at hr
      cases hr with
      | inl hmem => exact h.sequences r hmem
      | inr heq =>
        rw [heq, h.sequence]
        rfl
    . simp [hall]
    . intro _
      simp [hall]
    . intro _
      simp only [h.sequence, hn, hevents, hresponses]
      exact .waiting hended rfl rfl
    . intro hnot
      rw [hconnected] at hnot
      cases hnot
  . rw [if_neg hconnected, Option.toList_none, List.append_nil]
    obtain ⟨hown, hkeys⟩ := h.begin ⟨request, c.sequence, .terminated⟩ (by simp) (by simp)
    refine ⟨h.stuck, h.sequence, h.running, h.sequences, ?_, ?_, hown, hkeys, ?_, ?_⟩
    . simp only [List.map_append]
      exact h.calls.trans (List.prefix_append _ _)
    . intro hc
      exact absurd hc hconnected
    . intro hc
      exact absurd hc hconnected
    . intro hc call hcall
      rw [List.mem_append, List.mem_singleton] at hcall
      cases hcall with
      | inl hmem => exact h.released hc call hmem
      | inr heq => simp [heq]

theorem map_request_setProgress (i : Nat) (progress : Progress ρ)
    : (c.setProgress i progress).calls.map Call.request = c.calls.map Call.request := by
  apply List.ext_getElem?
  intro j
  simp only [setProgress, List.getElem?_map, List.getElem?_modify]
  cases c.calls[j]? with
  | none => rfl
  | some call =>
    by_cases hij : i = j
    . simp [hij]
    . simp [hij]

theorem of_getElem?_setProgress {j : Nat} {progress : Progress ρ} {call' : Call μ ρ}
    (hcall : c.calls[i]? = some call)
    (hcall' : (c.setProgress i progress).calls[j]? = some call')
    : c.calls[j]? = some call' ∨ (j = i ∧ call' = { call with progress }) := by
  unfold setProgress at hcall'
  by_cases hij : i = j
  . subst hij
    rw [List.getElem?_modify_eq, hcall] at hcall'
    exact .inr ⟨rfl, (Option.some.inj hcall').symm⟩
  . rw [List.getElem?_modify_ne _ _ hij] at hcall'
    exact .inl hcall'

theorem Callers.moved {progress : Progress ρ} (h : c.Callers sent handled n)
    (hcall : c.calls[i]? = some call) (hanswer : ∀ response, progress = .answered response
      → handled[i]? = some (call.request, response))
    (hkey : progress ≠ .keyError)
    : (∀ (j : Nat) (call' : Call μ ρ) (response : Response ρ),
        (c.setProgress i progress).calls[j]? = some call' → call'.progress = .answered response
          → handled[j]? = some (call'.request, response))
        ∧ ∀ call' ∈ (c.setProgress i progress).calls, call'.progress ≠ .keyError := by
  constructor
  . intro j call' response hcall' hresponse
    cases of_getElem?_setProgress hcall hcall' with
    | inl hold => exact h.own j call' response hold hresponse
    | inr hnew =>
      obtain ⟨rfl, rfl⟩ := hnew
      exact hanswer response hresponse
  . intro call' hmem
    obtain ⟨j, hj⟩ := List.getElem?_of_mem hmem
    cases of_getElem?_setProgress hcall hj with
    | inl hold => exact h.keys call' (List.mem_of_getElem? hold)
    | inr hnew =>
      obtain ⟨rfl, rfl⟩ := hnew
      exact hkey

theorem modify_concat_length (l : List α) (a : α) (f : α → α)
    : (l ++ [a]).modify l.length f = l ++ [f a] := by
  induction l with
  | nil => rfl
  | cons b l ih => simp [ih]

theorem collect_of_some {i : Nat} {call : Call μ ρ} {response : Response ρ} {j : Nat}
    (hconnected : c.connected = true)
    (hsequence : call.sequence = 0) (hevents : c.eventMap = SortedMap.empty.set 0 j)
    (hresponses : c.responseMap = SortedMap.empty.set 0 response)
    : c.collect i call = { c.setProgress i
        (.answered response) with responseMap := .empty, eventMap := .empty } := by
  unfold ControlPortClient.collect
  rw [if_pos hconnected, hsequence, hresponses, hevents]
  rfl

theorem Callers.collect (h : c.Callers sent handled n) (hcall : c.calls[i]? = some call)
    (hwoken : call.progress = .woken)
    : (c.collect i call).Callers sent handled n
        ∧ (c.collect i call).connected = c.connected
        ∧ ((c.connected = true ∧ ∃ response, handled[i]? = some (call.request, response)
        ∧ (c.collect i call).calls[i]? = some { call with progress := .answered response })
        ∨ (c.connected = false ∧ (c.collect i call).calls[i]? = some
            { call with progress := .terminated })) := by
  by_cases hconnected : c.connected = true
  . obtain ⟨old, response, hcalls, hi, hn, hended, hsequence, hanswer, hevents, hresponses⟩ :=
      (h.turn hconnected).of_woken hcall hwoken
    have hcollect := @collect_of_some _ _ c i call response _ hconnected hsequence hevents hresponses
    have hmodified : (c.setProgress i (.answered response)).calls = old
        ++ [{ call with progress := .answered response }] := by
      simp only [setProgress, hcalls, hi, modify_concat_length]
    have hanswered : ∀ r, Progress.answered response = .answered r
        → handled[i]? = some (call.request, r) := by
      intro r hr
      cases hr
      exact hanswer
    obtain ⟨hown, hkeys⟩ := h.moved hcall hanswered (by simp)
    have hrequests := @map_request_setProgress _ _ c i (.answered response)
    rw [hcollect]
    refine ⟨⟨h.stuck, h.sequence, h.running, h.sequences, ?_, ?_, hown, hkeys, ?_, ?_⟩, rfl, .inl
      ⟨hconnected, response, hanswer, ?_⟩⟩
    . simp only [hrequests]
      exact h.calls
    . intro _
      simp only [hrequests]
      exact h.all hconnected
    . intro _
      simp only [hmodified]
      have hlength : n = (old ++ [{ call with progress := .answered response }]).length := by
        rw [hn, List.length_append, List.length_singleton]
      rw [hlength]
      apply Turn.idle
      intro call' hmem
      rw [List.mem_append, List.mem_singleton] at hmem
      cases hmem with
      | inl hmem => exact hended call' hmem
      | inr heq =>
        rw [heq]
        exact Call.ended_of_answered rfl
    . intro hnot
      have hsame : c.connected = false := hnot
      rw [hconnected] at hsame
      cases hsame
    . simp only [hmodified]
      rw [hi, List.getElem?_concat_length]
  . have hcollect : c.collect i call = c.setProgress i .terminated := by
      unfold ControlPortClient.collect
      rw [if_neg hconnected]
    have hnot : c.connected = false := by simpa using hconnected
    have hrequests := @map_request_setProgress _ _ c i .terminated
    have hanswered : ∀ r, Progress.terminated = .answered r
      → handled[i]? = some (call.request, r) := by simp
    obtain ⟨hown, hkeys⟩ := h.moved hcall hanswered (by simp)
    rw [hcollect]
    refine ⟨⟨h.stuck, h.sequence, h.running, h.sequences, ?_, ?_, hown, hkeys, ?_, ?_⟩, rfl,
      .inr ⟨hnot, ?_⟩⟩
    . rw [hrequests]
      exact h.calls
    . intro hc
      exact absurd hc hconnected
    . intro hc
      exact absurd hc hconnected
    . intro _ call' hmem
      obtain ⟨j, hj⟩ := List.getElem?_of_mem hmem
      cases of_getElem?_setProgress hcall hj with
      | inl hold => exact h.released hnot call' (List.mem_of_getElem? hold)
      | inr hnew => simp [hnew.2]
    . simp [setProgress, hcall]

def EventsSet (calls calls' : List (Call μ ρ)) : Prop :=
  ∀ i : Nat, calls'[i]? = calls[i]? ∨ calls'[i]? = calls[i]?.map Call.set

theorem eventsSet_modify (calls : List (Call μ ρ)) (i : Nat)
    : EventsSet calls (calls.modify i Call.set) := by
  intro j
  by_cases hij : i = j
  . subst hij
    exact .inr (List.getElem?_modify_eq _ _ _)
  . exact .inl (List.getElem?_modify_ne _ _ hij)

variable {calls' : List (Call μ ρ)}

theorem EventsSet.trans {calls'' : List (Call μ ρ)} (h : EventsSet calls calls')
    (h' : EventsSet calls' calls'')
    : EventsSet calls calls'' := by
  intro i
  have hset : (calls[i]?.map Call.set).map Call.set = calls[i]?.map Call.set := by
    cases calls[i]? with
    | none => rfl
    | some call => exact congrArg some (Call.set_of_ne call.progress_set_ne)
  cases h i with
  | inl heq => rw [← heq]; exact h' i
  | inr heq =>
    have hi := h' i
    rw [heq, hset] at hi
    exact .inr (hi.elim id id)

theorem eventsSet_foldl (is : List Nat) (calls : List (Call μ ρ))
    : EventsSet calls (is.foldl (fun calls i => calls.modify i Call.set) calls) := by
  induction is generalizing calls with
  | nil => exact fun i => .inl rfl
  | cons i is ih => exact (eventsSet_modify calls i).trans (ih _)

theorem EventsSet.of_getElem? (h : EventsSet calls calls') {call' : Call μ ρ}
    (hcall' : calls'[i]? = some call')
    : ∃ call, calls[i]? = some call ∧ (call' = call ∨ call' = call.set) := by
  cases h i with
  | inl heq => exact ⟨call', heq ▸ hcall', .inl rfl⟩
  | inr heq =>
    rw [heq, Option.map_eq_some_iff] at hcall'
    obtain ⟨call, hcall, rfl⟩ := hcall'
    exact ⟨call, hcall, .inr rfl⟩

theorem EventsSet.map_request (h : EventsSet calls calls')
    : calls'.map Call.request = calls.map Call.request := by
  apply List.ext_getElem?
  intro i
  rw [List.getElem?_map, List.getElem?_map]
  cases h i with
  | inl heq => rw [heq]
  | inr heq =>
    rw [heq]
    cases calls[i]? with
    | none => rfl
    | some call => exact congrArg some call.request_set

theorem Callers.eventsSet (h : c.Callers sent handled n) (hcalls : EventsSet c.calls calls)
    : (∀ (i : Nat) (call : Call μ ρ) (response : Response ρ),
        calls[i]? = some call → call.progress = .answered response
          → handled[i]? = some (call.request, response))
        ∧ ∀ call ∈ calls, call.progress ≠ .keyError := by
  constructor
  . intro i call' response hcall' hanswered
    obtain ⟨call, hcall, rfl | rfl⟩ := hcalls.of_getElem? hcall'
    . exact h.own i _ response hcall hanswered
    . rw [Call.request_set]
      exact h.own i call response hcall (Call.set_answered_iff.mp hanswered)
  . intro call' hmem
    obtain ⟨i, hi⟩ := List.getElem?_of_mem hmem
    obtain ⟨call, hcall, rfl | rfl⟩ := hcalls.of_getElem? hi
    . exact h.keys _ (List.mem_of_getElem? hcall)
    . rw [Ne, Call.set_keyError_iff]
      exact h.keys call (List.mem_of_getElem? hcall)

theorem Callers.dispatch (h : c.Callers sent handled n) (hconnected : c.connected = true)
    (hsent : handled.map Prod.fst <+: sent)
    (hreference : ∀ e ∈ handled, e.2.reference = e.1.sequence) {e : Request μ × Response ρ}
    (hnext : handled[n]? = some e)
    : (dispatch e.2 c).Callers sent handled (n + 1) := by
  have hall := h.all hconnected
  have hrequest : (c.calls.map Call.request)[n]? = some e.1 := by
    obtain ⟨later, hlater⟩ := hsent
    rw [hall, ← hlater]
    apply getElem?_append_of_some
    rw [List.getElem?_map, hnext]
    rfl
  have hzero : e.2.reference.toNat = 0 := by
    have hmem : e.1 ∈ sent := hall ▸ List.mem_of_getElem? hrequest
    rw [hreference e (List.mem_of_getElem? hnext), h.sequences e.1 hmem]
    rfl
  have hlt := (List.getElem?_eq_some_iff.mp hrequest).1
  rw [List.length_map] at hlt
  have hturn := h.turn hconnected
  generalize hcalls : c.calls = calls at hturn
  generalize hevents : c.eventMap = eventMap at hturn
  generalize hresponses : c.responseMap = responseMap at hturn
  rw [hcalls] at hrequest hlt
  cases hturn with
  | idle => exact absurd hlt (Nat.lt_irrefl _)
  | woken =>
    rw [List.length_append, List.length_singleton] at hlt
    exact absurd hlt (Nat.lt_irrefl _)
  | @waiting old call hended hsequence hprogress =>
    have hdispatch : ControlPortClient.dispatch e.2 c = { c with
        responseMap := SortedMap.empty.set 0 e.2
        calls := c.calls.modify old.length Call.set
      } := by
      unfold ControlPortClient.dispatch
      rw [hzero, hevents, hresponses]
      rfl
    have hset := eventsSet_modify c.calls old.length
    have hmap := hset.map_request
    obtain ⟨hown, hkeys⟩ := h.eventsSet hset
    rw [hdispatch]
    refine ⟨h.stuck, h.sequence, h.running, h.sequences, hmap ▸ h.calls, fun _ => hmap ▸ hall, hown,
      hkeys, ?_, ?_⟩
    . intro _
      simp only [hcalls, modify_concat_length, hevents]
      apply Turn.woken hended
      . unfold Call.set
        rw [hprogress]
        exact hsequence
      . unfold Call.set
        rw [hprogress]
      . rw [hnext, Call.request_set]
        rw [List.getElem?_map, List.getElem?_concat_length, Option.map_some,
          Option.some.injEq] at hrequest
        rw [hrequest]
    . intro hnot
      have hsame : c.connected = false := hnot
      rw [hconnected] at hsame
      cases hsame

theorem Callers.terminate (h : c.Callers sent handled n) (hconnected : c.connected = true)
    : c.terminate.Callers sent handled n := by
  unfold ControlPortClient.terminate
  have hset := eventsSet_foldl (c.eventMap.toList.map Prod.snd) c.calls
  have hmap := hset.map_request
  obtain ⟨hown, hkeys⟩ := h.eventsSet hset
  refine ⟨h.stuck, h.sequence, rfl, h.sequences, hmap ▸ h.calls, ?_, hown, hkeys, ?_, ?_⟩
  . intro hnot
    cases hnot
  . intro hnot
    cases hnot
  . intro _ call' hmem
    have hturn := h.turn hconnected
    generalize c.calls = calls at hturn hmem
    generalize c.eventMap = eventMap at hturn hmem
    generalize c.responseMap = responseMap at hturn
    cases hturn with
    | idle hended =>
      exact (hended call' hmem).ne.1
    | @waiting old call hended hsequence hprogress =>
      simp only [toList_set_empty, List.map_cons, List.map_nil, List.foldl_cons, List.foldl_nil,
        modify_concat_length] at hmem
      rw [List.mem_append, List.mem_singleton] at hmem
      cases hmem with
      | inl hmem => exact (hended call' hmem).ne.1
      | inr heq => exact heq ▸ call.progress_set_ne
    | @woken old call response hended hsequence hprogress =>
      simp only [toList_set_empty, List.map_cons, List.map_nil, List.foldl_cons, List.foldl_nil,
        modify_concat_length] at hmem
      rw [List.mem_append, List.mem_singleton] at hmem
      cases hmem with
      | inl hmem => exact (hended call' hmem).ne.1
      | inr heq => exact heq ▸ call.progress_set_ne

end ControlPortClient
end ControlPort
end Emane

import Emane.ControlPort.Impl.Session
import Emane.Lib.SortedMap

/-!
This module contains the client of a control port, with callers in several threads, and its
connection with a session of an emulator.
-/

namespace Emane
namespace ControlPort

inductive Progress (ρ : Type) where
  | waiting
  | woken
  | answered (response : Response ρ)
  | terminated
  | keyError
  deriving DecidableEq

structure ControlPortException where
  value : String
  fatal : Bool
  deriving DecidableEq

def Progress.outcome {ρ : Type} : Progress ρ → Option (Except ControlPortException (Response ρ))
  | .answered response =>
    match response.content with
    | .error _ description => some (.error ⟨description, false⟩)
    | _ => some (.ok response)
  | .terminated => some (.error ⟨"connection terminated by server", true⟩)
  | _ => none

structure Call (μ ρ : Type) where
  request : Request μ
  sequence : Nat
  progress : Progress ρ
  deriving DecidableEq

def Call.set {μ ρ : Type} (call : Call μ ρ) : Call μ ρ :=
  match call.progress with
  | .waiting => { call with progress := .woken }
  | _ => call

/--
The event in the map of events is given by the position of its call. A lock that is stuck is held
by a thread that has left its function with an exception.
-/
structure ControlPortClient (μ ρ : Type) where
  connected : Bool
  sequence : Nat
  stuck : Bool
  eventMap : SortedMap Nat Nat
  responseMap : SortedMap Nat (Response ρ)
  calls : List (Call μ ρ)
  running : Bool
  messageLengthBytes : Nat
  buffer : List UInt8

namespace ControlPortClient

variable {μ ρ : Type}

def create : ControlPortClient μ ρ where
  connected := true
  sequence := 0
  stuck := false
  eventMap := .empty
  responseMap := .empty
  calls := []
  running := true
  messageLengthBytes := 0
  buffer := []

def sendMessage (request : Request μ) (c : ControlPortClient μ ρ)
    : ControlPortClient μ ρ × Option (Request μ) :=
  if c.connected then
    -- two signs in front of the number, it is not incremented
    let sequence := c.sequence
    let request := { request with sequence := .ofNat sequence }
    ({ c with eventMap := c.eventMap.set sequence c.calls.length, calls :=
      c.calls ++ [⟨request, sequence, .waiting⟩] }, some request)
  else
    ({ c with calls := c.calls ++ [⟨request, c.sequence, .terminated⟩] }, none)

def setProgress (i : Nat) (progress : Progress ρ) (c : ControlPortClient μ ρ) : ControlPortClient μ ρ :=
  { c with calls := c.calls.modify i (fun call => { call with progress }) }

def collect (i : Nat) (call : Call μ ρ) (c : ControlPortClient μ ρ) : ControlPortClient μ ρ :=
  if c.connected then
    match c.responseMap.find? call.sequence with
    | none => { c.setProgress i .keyError with stuck := true }
    | some response =>
      let c := { c with responseMap := c.responseMap.erase call.sequence }
      if c.eventMap.contains call.sequence then
        { c.setProgress i (.answered response) with eventMap := c.eventMap.erase call.sequence }
      else
        { c.setProgress i .keyError with stuck := true }
  else
    c.setProgress i .terminated

def dispatch (response : Response ρ) (c : ControlPortClient μ ρ) : ControlPortClient μ ρ :=
  match c.eventMap.find? response.reference.toNat with
  | some i => { c with
      responseMap := c.responseMap.set response.reference.toNat response
      calls := c.calls.modify i Call.set
    }
  | none => c

def terminate (c : ControlPortClient μ ρ) : ControlPortClient μ ρ :=
  { c with
    connected := false
    running := false
    calls := (c.eventMap.toList.map Prod.snd).foldl (fun calls i => calls.modify i Call.set) c.calls
  }

def wanted (c : ControlPortClient μ ρ) : Nat :=
  if c.messageLengthBytes = 0 then 4 - c.buffer.length else c.messageLengthBytes - c.buffer.length

def receive (responses : Codec (Response ρ)) (data : List UInt8) (c : ControlPortClient μ ρ)
    : Option (ControlPortClient μ ρ) :=
  if data.length = 0 then
    if c.stuck then none else some c.terminate
  else
    let buffer := c.buffer ++ data
    if c.messageLengthBytes = 0 then
      if buffer.length = 4 then
        some { c with messageLengthBytes := LengthPrefix.length buffer, buffer := [] }
      else
        some { c with buffer }
    else if buffer.length = c.messageLengthBytes then
      match responses.parseFromString buffer with
      -- an exception ends the thread
      | none => some { c with running := false }
      | some response => if c.stuck then none else some
        (dispatch response { c with messageLengthBytes := 0, buffer := [] })
    else
      some { c with buffer }

end ControlPortClient

inductive Event (μ ε : Type) where
  | sendMessage (request : Request μ)
  | collect (i : Nat)
  | serverReceive (length : Nat)
  | clientReceive (length : Nat)
  | clientReceiveError
  | stop
  | connectionLoss (toServer toClient : Nat)
  | emulator (emulator : ε)

structure Connection (μ ρ ε : Type) where
  client : ControlPortClient μ ρ
  session : Option Session
  emulator : ε
  toServer : List UInt8
  toClient : List UInt8
  lost : Bool
  sent : List (Request μ)
  handled : List (Request μ × Response ρ)

namespace Connection

variable {μ ρ ε : Type}

def create (emulator : ε) : Connection μ ρ ε where
  client := .create
  session := some .create
  emulator := emulator
  toServer := []
  toClient := []
  lost := false
  sent := []
  handled := []

def recv (lost : Bool) (stream : List UInt8) (wanted length : Nat) : Option (List UInt8 × List UInt8) :=
  if length = 0 then
    if lost ∧ stream = [] then some ([], []) else none
  else if length ≤ wanted ∧ length ≤ stream.length then
    some (stream.take length, stream.drop length)
  else
    none

def write (lost : Bool) (stream bytes : List UInt8) : List UInt8 :=
  if lost then stream else stream ++ bytes

def sendMessage (requests : Codec (Request μ)) (request : Request μ) (s : Connection μ ρ ε)
    : Option (Connection μ ρ ε) :=
  match s.client.sendMessage request with
  | (client, none) => some { s with client }
  | (client, some request) =>
    (requests.serializeToString request).map (fun msg => { s with
      client
      toServer := write s.lost s.toServer (LengthPrefix.frame msg)
      sent := s.sent ++ [request]
    })

def collect (i : Nat) (s : Connection μ ρ ε) : Option (Connection μ ρ ε) :=
  s.client.calls[i]?.bind (fun call =>
    match call.progress with
    | .woken => some { s with client := s.client.collect i call }
    | _ => none)

def serverReceive (handlers : Handlers μ ρ ε) (requests : Codec (Request μ))
    (responses : Codec (Response ρ)) (length : Nat)
    (s : Connection μ ρ ε)
    : Option (Connection μ ρ ε) :=
  s.session.bind (fun session =>
    (recv s.lost s.toServer session.wanted length).bind (fun received =>
      (session.process handlers requests responses received.1 s.emulator).map (fun processed => { s with
        session := processed.session
        emulator := processed.emulator
        toServer := received.2
        toClient := write s.lost s.toClient processed.written
        handled := s.handled ++ processed.handled
      })))

def clientReceive (responses : Codec (Response ρ)) (length : Nat) (s : Connection μ ρ ε)
    : Option (Connection μ ρ ε) :=
  if s.client.running then
    (recv s.lost s.toClient s.client.wanted length).bind (fun received =>
      (s.client.receive responses received.1).map
        (fun client => { s with client, toClient := received.2 }))
  else
    none

def step (handlers : Handlers μ ρ ε) (requests : Codec (Request μ)) (responses : Codec (Response ρ))
    (s : Connection μ ρ ε)
    : Event μ ε → Option (Connection μ ρ ε)
  | .sendMessage request => if s.client.stuck then none else s.sendMessage requests request
  | .collect i => if s.client.stuck then none else s.collect i
  | .serverReceive length => s.serverReceive handlers requests responses length
  | .clientReceive length => s.clientReceive responses length
  -- the exception is not caught, it ends the reading thread
  | .clientReceiveError => if s.lost ∧ s.client.running
    then some { s with client := { s.client with running := false } } else none
  | .stop => if s.client.running ∧ s.client.stuck = false
    then some { s with client := s.client.terminate } else none
  | .connectionLoss toServer toClient =>
    some { s with lost := true, toServer := s.toServer.take toServer, toClient :=
      s.toClient.take toClient }
  | .emulator emulator => some { s with emulator }

end Connection
end ControlPort
end Emane

import Emane.Lib.Framing

/-!
This module contains the session of the emulator with a client of its control port: requests are
taken from a stream of bytes, each is passed to the handler for its kind, and the response is
written.
-/

namespace Emane
namespace ControlPort

inductive QueryMessageType where
  | configuration
  | manifest
  | statistic
  | statisticTable
  deriving DecidableEq

inductive UpdateMessageType where
  | configuration
  | statisticClear
  | statisticTableClear
  | logLevel
  deriving DecidableEq

inductive RequestMessageType where
  | query
  | update
  deriving DecidableEq

inductive ErrorType where
  | parameter
  | malformed
  deriving DecidableEq

structure Query (μ : Type) where
  type : QueryMessageType
  configuration : Option μ
  statistic : Option μ
  statisticTable : Option μ
  deriving DecidableEq

structure Update (μ : Type) where
  type : UpdateMessageType
  configuration : Option μ
  statisticClear : Option μ
  statisticTableClear : Option μ
  logLevel : Option UInt32
  deriving DecidableEq

structure Request (μ : Type) where
  sequence : UInt32
  type : RequestMessageType
  query : Option (Query μ)
  update : Option (Update μ)
  deriving DecidableEq

inductive Content (ρ : Type) where
  | query (query : ρ)
  | update (type : UpdateMessageType)
  | error (type : ErrorType) (description : String)
  deriving DecidableEq

structure Response (ρ : Type) where
  sequence : UInt32
  reference : UInt32
  content : Content ρ
  deriving DecidableEq

structure Codec (α : Type) where
  serializeToString : α → Option (List UInt8)
  parseFromString : List UInt8 → Option α
  parse_serialize : ∀ a bytes, serializeToString a = some bytes → parseFromString bytes = some a
  fits : ∀ a bytes, serializeToString a = some bytes → LengthPrefix.Fits bytes

structure Handlers (μ ρ ε : Type) where
  manifestQuery : ε → Content ρ × ε
  configurationQuery : μ → ε → Content ρ × ε
  statisticQuery : μ → ε → Content ρ × ε
  statisticTableQuery : μ → ε → Content ρ × ε
  configurationUpdate : μ → ε → Content ρ × ε
  statisticClearUpdate : μ → ε → Content ρ × ε
  statisticTableClearUpdate : μ → ε → Content ρ × ε
  setLogLevel : UInt32 → ε → ε

namespace RequestMessageHandler

variable {μ ρ ε : Type}

def malformed (description : String) (emulator : ε) : Content ρ × ε :=
  (.error .malformed description, emulator)

def logLevelUpdate (handlers : Handlers μ ρ ε) (level : UInt32) (emulator : ε) : Content ρ × ε :=
  -- the level is an int, from 2^31 on it is negative
  if level ≤ 4 then
    (.update .logLevel, handlers.setLogLevel level emulator)
  else
    (.error .parameter "Log level out of allowable range [0,4]", emulator)

def query (handlers : Handlers μ ρ ε) (query : Query μ) (emulator : ε) : Content ρ × ε :=
  match query.type with
  | .manifest => handlers.manifestQuery emulator
  | .configuration =>
    match query.configuration with
    | some configuration => handlers.configurationQuery configuration emulator
    | none => malformed "Configuration query request malformed: missing configuration message" emulator
  | .statistic =>
    match query.statistic with
    | some statistic => handlers.statisticQuery statistic emulator
    | none => malformed "Statistic query request malformed: missing statistic message" emulator
  | .statisticTable =>
    match query.statisticTable with
    | some statisticTable => handlers.statisticTableQuery statisticTable emulator
    | none => malformed "Statistic Table query request malformed: missing statisticTable message" emulator

def update (handlers : Handlers μ ρ ε) (update : Update μ) (emulator : ε) : Content ρ × ε :=
  match update.type with
  | .configuration =>
    match update.configuration with
    | some configuration => handlers.configurationUpdate configuration emulator
    | none => malformed "Configuration update request malformed: missing configuration message" emulator
  | .statisticClear =>
    match update.statisticClear with
    | some statisticClear => handlers.statisticClearUpdate statisticClear emulator
    | none => malformed "Statistic Table update request malformed: missing statisticClear message"
      emulator
  | .statisticTableClear =>
    match update.statisticTableClear with
    | some statisticTableClear => handlers.statisticTableClearUpdate statisticTableClear emulator
    | none => malformed
      "Statistic Table Clear update request malformed: missing statisticTableClear message" emulator
  | .logLevel =>
    match update.logLevel with
    | some logLevel => logLevelUpdate handlers logLevel emulator
    | none => malformed "Log Level update request malformed: missing LogLevel message" emulator

def content (handlers : Handlers μ ρ ε) (request : Request μ) (emulator : ε) : Content ρ × ε :=
  match request.type with
  | .query =>
    match request.query with
    | some q => query handlers q emulator
    -- the response that says that the query is missing is made and dropped
    | none => malformed "Request malformed: unknown request type" emulator
  | .update =>
    match request.update with
    | some u => update handlers u emulator
    | none => malformed "Update request malformed: missing update message" emulator

def process (handlers : Handlers μ ρ ε) (request : Request μ) (sequence : UInt32) (emulator : ε)
    : Response ρ × ε :=
  let result := content handlers request emulator
  (⟨sequence, request.sequence, result.1⟩, result.2)

end RequestMessageHandler

structure Session where
  messageSizeBytes : Nat
  sequence : UInt32
  message : List UInt8
  deriving DecidableEq

namespace Session

def create : Session where
  messageSizeBytes := 0
  sequence := 0
  message := []

def wanted (session : Session) : Nat :=
  if session.messageSizeBytes = 0 then
    4 - session.message.length
  else if session.messageSizeBytes - session.message.length > 1024 then
    1024
  else
    session.messageSizeBytes - session.message.length

structure Processed (μ ρ ε : Type) where
  session : Option Session
  emulator : ε
  handled : List (Request μ × Response ρ)
  written : List UInt8

def process {μ ρ ε : Type} (handlers : Handlers μ ρ ε) (requests : Codec (Request μ))
    (responses : Codec (Response ρ)) (data : List UInt8)
    (emulator : ε) (session : Session)
    : Option (Processed μ ρ ε) :=
  -- Some bytes have been received, or none. An exception that is thrown because a response can not
  -- be serialized is not caught by anyone.
  if data.length = 0 then
    some ⟨none, emulator, [], []⟩
  else
    let message := session.message ++ data
    if session.messageSizeBytes = 0 then
      if message.length = 4 then
        let messageSizeBytes := LengthPrefix.length message
        if messageSizeBytes = 0 then
          some ⟨none, emulator, [], []⟩
        else
          some ⟨some { session with messageSizeBytes, message := [] }, emulator, [], []⟩
      else
        some ⟨some { session with message }, emulator, [], []⟩
    else if message.length = session.messageSizeBytes then
      match requests.parseFromString message with
      | none => some ⟨none, emulator, [], []⟩
      | some request =>
        let sequence := session.sequence + 1
        let result := RequestMessageHandler.process handlers request sequence emulator
        match responses.serializeToString result.1 with
        | none => none
        | some serialization => some {
            session := some ⟨0, sequence, []⟩
            emulator := result.2
            handled := [(request, result.1)]
            written := LengthPrefix.frame serialization
          }
    else
      some ⟨some { session with message }, emulator, [], []⟩

end Session
end ControlPort
end Emane

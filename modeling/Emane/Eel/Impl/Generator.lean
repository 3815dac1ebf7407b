import Emane.Eel.Impl.InputParser
import Emane.Lib.SortedMap

/-!
This module contains the generator that plays emulation event logs, with the loader of their
pathloss sentences. What has been read and what has been published is kept as a log.
-/

namespace Emane
namespace Eel

inductive PlayFault where
  | parse (fault : Fault)
  | moduleId (e : ParameterConvert.Exception)
  | expectsArgument
  | expectsParameter
  | unsupportedModuleType
  | parameterConversion (e : ParameterConvert.Exception)
  | tooManyParameters
  deriving DecidableEq

inductive EventPublishMode where
  | delta
  | full
  deriving DecidableEq

structure Pathloss (δ : Type) where
  nemId : Nat
  forwardPathloss : δ
  reversePathloss : δ
  deriving DecidableEq

structure PathlossEvent (δ : Type) where
  nemId : Nat
  pathlosses : List (Pathloss δ)
  deriving DecidableEq

abbrev PathlossEntryCache (δ : Type) :=
  SortedMap Nat (SortedMap Nat (Pathloss δ))

namespace PathlossEntryCache

variable {δ : Type}

def insertEntry (nemId : Nat) (pathloss : Pathloss δ) (cache : PathlossEntryCache δ)
    : PathlossEntryCache δ :=
  match cache.find? nemId with
  | some entryMap => cache.set nemId (entryMap.set pathloss.nemId pathloss)
  | none => cache.set nemId (SortedMap.empty.set pathloss.nemId pathloss)

def loadPathlossCache (dstNEM srcNEM : Nat) (forwardPathloss reversePathloss : δ)
    (cache : PathlossEntryCache δ) : PathlossEntryCache δ :=
  (cache.insertEntry dstNEM ⟨srcNEM, forwardPathloss, reversePathloss⟩).insertEntry srcNEM
    ⟨dstNEM, reversePathloss, forwardPathloss⟩

end PathlossEntryCache

structure LoaderPathloss (δ : Type) where
  pathlossEntryCache : PathlossEntryCache δ
  pathlossDeltaEntryCache : PathlossEntryCache δ

structure Parameters (δ : Type) where
  dstNEM : Nat
  forwardPathloss : δ
  reversePathloss : δ
  deriving DecidableEq

namespace LoaderPathloss

variable {δ : Type} (f : ParameterConvert.Floating δ)

def toNEM (param : Text) : Except PlayFault Nat :=
  match param.idxOf? ':' with
  | some pos =>
    if param.take pos = ['n', 'e', 'm'] then
      match ParameterConvert.toUINT64 0 (2^16 - 1) (param.drop (pos + 1)) with
      | .ok nem => .ok nem
      | .error e => .error (.parameterConversion e)
    else
      .error .unsupportedModuleType
  -- without a module type the destination stays zero
  | none => .ok 0

def toPathloss (param : Text) : Except PlayFault δ :=
  match ParameterConvert.toDouble f f.floatLowest f.floatMax param with
  | .ok value => .ok (f.toFloat value)
  | .error e => .error (.parameterConversion e)

def parameters (arg : Text) : Except PlayFault (Parameters δ) :=
  match arg.splitOn ',' with
  | [] | [_] => .error .expectsParameter
  | dst :: forward :: reverse => do
    let dstNEM ← toNEM dst
    let forwardPathloss ← toPathloss f forward
    match reverse with
    | [] => return ⟨dstNEM, forwardPathloss, forwardPathloss⟩
    | reverse :: rest =>
      let reversePathloss ← toPathloss f reverse
      if rest = [] then return ⟨dstNEM, forwardPathloss, reversePathloss⟩ else throw .tooManyParameters

def store (srcNEM : Nat) (loader : LoaderPathloss δ) (p : Parameters δ) : LoaderPathloss δ where
  pathlossEntryCache := loader.pathlossEntryCache.loadPathlossCache p.dstNEM srcNEM
    p.forwardPathloss p.reversePathloss
  pathlossDeltaEntryCache := loader.pathlossDeltaEntryCache.loadPathlossCache p.dstNEM srcNEM
    p.forwardPathloss p.reversePathloss

def load (moduleType : Text) (moduleId : Nat) (args : List Text) (loader : LoaderPathloss δ)
    : Except PlayFault (LoaderPathloss δ) :=
  if moduleType = ['n', 'e', 'm'] then
    if args = [] then
      .error .expectsArgument
    else
      args.foldlM (fun loader arg => (parameters f arg).map (store moduleId loader)) loader
  else
    .ok loader

def cache (mode : EventPublishMode) (loader : LoaderPathloss δ) : PathlossEntryCache δ :=
  match mode with
  | .delta => loader.pathlossDeltaEntryCache
  | .full => loader.pathlossEntryCache

def getEvents (mode : EventPublishMode) (loader : LoaderPathloss δ)
    : List (PathlossEvent δ) × LoaderPathloss δ :=
  (((loader.cache mode).toList.map (fun e => ⟨e.1, e.2.toList.map Prod.snd⟩)).filter
    (fun event => event.pathlosses ≠ []),
    { loader with pathlossDeltaEntryCache := .empty })

end LoaderPathloss

structure Clock (δ : Type) [LE δ] where
  waitUntil : Nat → δ → δ
  le_waitUntil : ∀ n deadline, deadline ≤ waitUntil n deadline

structure Registration where
  eventTypes : List Text
  mode : EventPublishMode
  eventTypes_ne_nil : eventTypes ≠ []

structure Publication (δ : Type) where
  time : δ
  now : δ
  events : List (PathlossEvent δ)

structure Generator (δ : Type) where
  fCurrentTime : δ
  loader : LoaderPathloss δ
  sentences : List (Outputs δ)
  published : List (Publication δ)

namespace Generator

variable {δ : Type}

def init [Zero δ] : Generator δ where
  fCurrentTime := 0
  loader := ⟨.empty, .empty⟩
  sentences := []
  published := []

def getline (size : Nat) (input : Text) : Option (Text × Text) :=
  if input ≠ [] ∧ (input.takeWhile (fun c => c ≠ newline)).length < size then
    some (input.takeWhile (fun c => c ≠ newline), (input.dropWhile (fun c => c ≠ newline)).tail)
  else
    none

section

variable [LinearOrder δ] (f : ParameterConvert.Floating δ) (clock : Clock δ) (registration : Registration)

def currentTimeEventList (g : Generator δ) : List (PathlossEvent δ) × LoaderPathloss δ :=
  -- the loader is asked once for every event type
  registration.eventTypes.foldl
    (fun acc _ => (acc.1 ++ (acc.2.getEvents registration.mode).1,
      (acc.2.getEvents registration.mode).2)) ([], g.loader)

def waitAndSendEvents (g : Generator δ) : Generator δ :=
  let (events, loader) := g.currentTimeEventList registration
  if events = [] then
    { g with loader := loader }
  else
    { g with
      loader := loader
      published := g.published
        ++ [⟨g.fCurrentTime, clock.waitUntil g.published.length g.fCurrentTime, events⟩] }

def toModule (moduleId : Text) : Except PlayFault (Text × Nat) :=
  match moduleId.idxOf? ':' with
  | some pos =>
    match ParameterConvert.toUINT64 0 (2^16 - 1) (moduleId.drop (pos + 1)) with
    | .ok id => .ok (moduleId.take pos, id)
    | .error e => .error (.moduleId e)
  | none => .ok (moduleId, 0)

def advance (eventTime : δ) (g : Generator δ) : Generator δ :=
  if eventTime ≠ g.fCurrentTime
    then { g.waitAndSendEvents clock registration with fCurrentTime := eventTime } else g

def loadSentence (moduleType : Text) (moduleId : Nat) (sentence : Outputs δ) (loader : LoaderPathloss δ)
    : Except PlayFault (LoaderPathloss δ) :=
  if registration.eventTypes.contains sentence.eventType then
    loader.load f moduleType moduleId sentence.inputArguments
  else
    .ok loader

def play (sentence : Outputs δ) (g : Generator δ) : Except PlayFault (Generator δ) := do
  let (moduleType, moduleId) ← toModule sentence.moduleId
  let g := g.advance clock registration sentence.eventTime
  let loader ← loadSentence f registration moduleType moduleId sentence g.loader
  return { g with loader := loader, sentences := g.sentences ++ [sentence] }

variable [Zero δ]

def playLine (line : Text) (g : Generator δ) : Except PlayFault (Generator δ) :=
  match InputParser.parse f (ParameterConvert.cString line) with
  | .ok (true, sentence) => g.play f clock registration sentence
  | .ok (false, _) => .ok g
  | .error fault => .error (.parse fault)

def playFile : Nat → Text → Generator δ → Except PlayFault (Generator δ)
  | 0, _, g => .ok g
  | fuel + 1, input, g =>
    match getline 2048 input with
    | some (line, input) => do
      let g ← g.playLine f clock registration line
      playFile fuel input g
    | none => .ok g

def generate (files : List Text) : Except PlayFault (Generator δ) := do
  let g ← files.foldlM (fun g file => g.playFile f clock registration file.length file) init
  return g.waitAndSendEvents clock registration

end

end Generator
end Eel
end Emane

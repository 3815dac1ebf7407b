import Emane.Configuration.Impl.ParameterConvert
import Emane.Lib.SortedMap

/-!
This module contains the store of configuration parameters: their registration, the configuration
of a component at its start, and updates while it is running.
-/

namespace Emane

abbrev ConfigurationUpdate (δ α : Type) := List (Text × List (Any δ α))

abbrev ConfigurationUpdateRequest := List (Text × List Text)

abbrev ConfigurationValidator (δ α : Type) := ConfigurationUpdate δ α → Text × Bool

structure ConfigurationInfo (δ α : Type) where
  type : AnyType
  isRequired : Bool
  hasDefault : Bool
  isModifiable : Bool
  values : List (Any δ α)
  minValue : Any δ α
  maxValue : Any δ α
  minOccurs : Nat
  maxOccurs : Nat
  regexPattern : Text

inductive ConfigurationException (δ α : Type) where
  | outOfRange (name : Text) (value minValue maxValue : Any δ α)
  | regexMismatch (name value regexPattern : Text)
  | conversion (e : AnyException) (name value : Text)
  | valueOccurrence (name : Text) (count minOccurs maxOccurs : Nat)
  | notRegistered (name : Text)
  | notRegisteredAll (names : List Text)
  | requiredNotPresent (name : Text)
  | validatorFailure (message : Text)
  | notModifiable (name : Text)
  | typeIncorrect (name : Text)
  | noComponent (buildId : Nat)

inductive RegistrarException where
  | invalidCharacter (name : Text)
  | badRegex (name regexPattern : Text)
  | duplicate (name : Text)
  deriving DecidableEq

inductive ServiceException (δ α : Type) where
  | configuration (e : ConfigurationException δ α)
  | registrar (e : RegistrarException)
  | any (e : AnyException)
  | outOfRange
  | component

abbrev ConfigurationStore (δ α : Type) := SortedMap Text (ConfigurationInfo δ α)

structure ConfigurationService (δ α : Type) where
  buildIdConfigurationStore : SortedMap Nat (ConfigurationStore δ α)
  runningStateMutables : List Nat
  validatorStore : SortedMap Nat (List (ConfigurationValidator δ α))

namespace ConfigurationService

variable {δ α : Type}

def create : ConfigurationService δ α where
  buildIdConfigurationStore := .empty
  runningStateMutables := []
  validatorStore := .empty

def registerAny (p : Platform δ α) (buildId : Nat) (name : Text) (info : ConfigurationInfo δ α)
    (s : ConfigurationService δ α)
    : Except (ServiceException δ α) (ConfigurationService δ α) :=
  if name.any (fun c => !(c.isAlphanum || c = '.')) then
    .error (.registrar (.invalidCharacter name))
  else if info.regexPattern ≠ [] ∧ p.pcreCompile info.regexPattern = false then
    .error (.registrar (.badRegex name info.regexPattern))
  else
    match s.buildIdConfigurationStore.find? buildId with
    | some store =>
      if store.contains name then
        .error (.registrar (.duplicate name))
      else
        .ok { s with buildIdConfigurationStore :=
          s.buildIdConfigurationStore.set buildId (store.insert name info) }
    | none => .ok { s with buildIdConfigurationStore :=
      s.buildIdConfigurationStore.insert buildId (SortedMap.empty.insert name info) }

def registerRunningStateMutable (buildId : Nat) (s : ConfigurationService δ α)
    : ConfigurationService δ α :=
  { s with runningStateMutables := s.runningStateMutables ++ [buildId] }

def registerValidator (buildId : Nat) (validator : ConfigurationValidator δ α)
    (s : ConfigurationService δ α) : ConfigurationService δ α :=
  match s.validatorStore.find? buildId with
  | some validators =>
    { s with validatorStore := s.validatorStore.set buildId (validators ++ [validator]) }
  | none => { s with validatorStore := s.validatorStore.insert buildId [validator] }

def checkRange (p : Platform δ α) (name : Text) (info : ConfigurationInfo δ α) (any : Any δ α)
    : Except (ServiceException δ α) Unit :=
  if info.type ≠ .inetAddr ∧ info.type ≠ .string then
    match any.lt p info.minValue with
    | .error e => .error (.any e)
    | .ok true => .error (.configuration (.outOfRange name any info.minValue info.maxValue))
    | .ok false =>
      match info.maxValue.lt p any with
      | .error e => .error (.any e)
      | .ok true => .error (.configuration (.outOfRange name any info.minValue info.maxValue))
      | .ok false => .ok ()
  else
    .ok ()

def matchesPattern (p : Platform δ α) (info : ConfigurationInfo δ α) (text : Text) : Bool :=
  info.regexPattern = [] || !p.pcreCompile info.regexPattern || p.pcreExec info.regexPattern text

def checkOccurs (name : Text) (info : ConfigurationInfo δ α) (count : Nat)
    : Except (ServiceException δ α) Unit :=
  if count ≥ info.minOccurs ∧ count ≤ info.maxOccurs then
    .ok ()
  else
    .error (.configuration (.valueOccurrence name count info.minOccurs info.maxOccurs))

def tryValue (p : Platform δ α) (name : Text) (info : ConfigurationInfo δ α) (value : Text)
    : Except (ServiceException δ α) (Any δ α) :=
  match Any.create p value info.type with
  | .error (.any e) => .error (.any e)
  | .error .outOfRange => .error .outOfRange
  | .ok any => do
    checkRange p name info any
    if matchesPattern p info value then
      .ok any
    else
      .error (.configuration (.regexMismatch name value info.regexPattern))

def buildValue (p : Platform δ α) (name : Text) (info : ConfigurationInfo δ α) (value : Text)
    : Except (ServiceException δ α) (Any δ α) :=
  match tryValue p name info value with
  | .error (.any e) => .error (.configuration (.conversion e name value))
  | r => r

def buildParameter (p : Platform δ α) (name : Text) (info : ConfigurationInfo δ α) (values : List Text)
    : Except (ServiceException δ α) (List (Any δ α)) := do
  checkOccurs name info values.length
  values.mapM (buildValue p name info)

def buildParameters (p : Platform δ α) (store : ConfigurationStore δ α)
    (parameters : ConfigurationUpdateRequest)
    : Except (ServiceException δ α) (ConfigurationUpdate δ α) :=
  parameters.mapM (fun parameter =>
    match store.find? parameter.1 with
    | some info => (buildParameter p parameter.1 info parameter.2).map (fun anys => (parameter.1, anys))
    | none => .error (.configuration (.notRegistered parameter.1)))

def addMissing (updates : ConfigurationUpdate δ α) (entry : Text × ConfigurationInfo δ α)
    : Except (ServiceException δ α) (ConfigurationUpdate δ α) :=
  if entry.2.isRequired ∨ entry.2.hasDefault then
    if updates.any (fun update => update.1 = entry.1) then
      .ok updates
    else if entry.2.isRequired then
      .error (.configuration (.requiredNotPresent entry.1))
    else
      .ok (updates ++ [(entry.1, entry.2.values)])
  else
    .ok updates

def validate (validators : List (ConfigurationValidator δ α)) (updates : ConfigurationUpdate δ α)
    : Except (ServiceException δ α) Unit :=
  validators.forM (fun validator =>
    if (validator updates).2 then
      .ok ()
    else
      .error (.configuration (.validatorFailure (validator updates).1)))

def setValues (store : ConfigurationStore δ α) (update : Text × List (Any δ α))
    : ConfigurationStore δ α :=
  match store.find? update.1 with
  | some info => store.set update.1 { info with values := update.2 }
  | none => store

def withStore (s : ConfigurationService δ α) (buildId : Nat) (store : ConfigurationStore δ α)
    : ConfigurationService δ α :=
  { s with buildIdConfigurationStore := s.buildIdConfigurationStore.set buildId store }

def validators (s : ConfigurationService δ α) (buildId : Nat) : List (ConfigurationValidator δ α) :=
  (s.validatorStore.find? buildId).getD []

def buildUpdates (p : Platform δ α) (buildId : Nat) (parameters : ConfigurationUpdateRequest)
    (s : ConfigurationService δ α)
    : Except (ServiceException δ α) (ConfigurationUpdate δ α × ConfigurationService δ α) :=
  match s.buildIdConfigurationStore.find? buildId with
  | some store => do
    let built ← buildParameters p store parameters
    let updates ← store.toList.foldlM addMissing built
    validate (s.validators buildId) updates
    return (updates, s.withStore buildId (updates.foldl setValues store))
  | none =>
    if parameters = [] then
      .ok ([], s)
    else
      .error (.configuration (.notRegisteredAll (parameters.map Prod.fst)))

def checkValue (p : Platform δ α) (name : Text) (info : ConfigurationInfo δ α) (value : Any δ α)
    : Except (ServiceException δ α) Unit :=
  if info.type ≠ value.getType then
    .error (.configuration (.typeIncorrect name))
  else do
    checkRange p name info value
    if matchesPattern p info (value.toString p) then
      .ok ()
    else
      .error (.configuration (.regexMismatch name (value.toString p) info.regexPattern))

def checkParameter (p : Platform δ α) (name : Text) (info : ConfigurationInfo δ α)
    (values : List (Any δ α))
    : Except (ServiceException δ α) Unit := do
  checkOccurs name info values.length
  values.forM (checkValue p name info)

def checkUpdates (p : Platform δ α) (store : ConfigurationStore δ α) (updates : ConfigurationUpdate δ α)
    : Except (ServiceException δ α) Unit :=
  updates.forM (fun update =>
    match store.find? update.1 with
    | some info =>
      if info.isModifiable = false then
        .error (.configuration (.notModifiable update.1))
      else
        checkParameter p update.1 info update.2
    | none => .error (.configuration (.notRegistered update.1)))

def addCurrent (updates : ConfigurationUpdate δ α) (entry : Text × ConfigurationInfo δ α)
    : ConfigurationUpdate δ α :=
  if entry.2.values ≠ [] ∧ updates.any (fun update => update.1 = entry.1) = false then
    updates ++ [(entry.1, entry.2.values)]
  else
    updates

def canidateUpdates (store : ConfigurationStore δ α) (updates : ConfigurationUpdate δ α)
    : ConfigurationUpdate δ α :=
  store.toList.foldl addCurrent updates

def accept (p : Platform δ α) (buildId : Nat) (store : ConfigurationStore δ α)
    (updates : ConfigurationUpdate δ α)
    (s : ConfigurationService δ α)
    : Except (ServiceException δ α) Unit := do
  checkUpdates p store updates
  validate (s.validators buildId) (canidateUpdates store updates)
  if buildId ∈ s.runningStateMutables then
    .ok ()
  else
    .error (.configuration (.noComponent buildId))

def update (p : Platform δ α) (buildId : Nat) (updates : ConfigurationUpdate δ α) (throws : Bool)
    (s : ConfigurationService δ α)
    : Option (ServiceException δ α) × ConfigurationService δ α :=
  match s.buildIdConfigurationStore.find? buildId with
  | some store =>
    match s.accept p buildId store updates with
    | .error e => (some e, s)
    | .ok () => (if throws then some .component else none, s.withStore buildId
      (updates.foldl setValues store))
  | none => (none, s)

def isAccepted (p : Platform δ α) (buildId : Nat) (updates : ConfigurationUpdate δ α)
    (s : ConfigurationService δ α) : Bool :=
  match s.buildIdConfigurationStore.find? buildId with
  | some store => (s.accept p buildId store updates).isOk
  | none => false

def find? (s : ConfigurationService δ α) (buildId : Nat) (name : Text) : Option (ConfigurationInfo δ α) :=
  (s.buildIdConfigurationStore.find? buildId).bind (fun store => store.find? name)

def configuration (store : ConfigurationStore δ α) : ConfigurationUpdate δ α :=
  (store.toList.map (fun entry => (entry.1, entry.2.values))).filter (fun update => update.2 ≠ [])

end ConfigurationService

inductive ConfigurationCall (δ α : Type) where
  | registerAny (buildId : Nat) (name : Text) (info : ConfigurationInfo δ α)
  | registerRunningStateMutable (buildId : Nat)
  | registerValidator (buildId : Nat) (validator : ConfigurationValidator δ α)
  | buildUpdates (buildId : Nat) (parameters : ConfigurationUpdateRequest)
  | update (buildId : Nat) (updates : ConfigurationUpdate δ α) (throws : Bool)

structure ConfigurationRun (δ α : Type) where
  service : ConfigurationService δ α
  written : List (Nat × Text)

namespace ConfigurationRun

variable {δ α : Type}

def create : ConfigurationRun δ α where
  service := .create
  written := []

def write (r : ConfigurationRun δ α) (s : ConfigurationService δ α) (buildId : Nat)
    (updates : ConfigurationUpdate δ α)
    : ConfigurationRun δ α :=
  ⟨s, r.written ++ updates.map (fun update => (buildId, update.1))⟩

def call (p : Platform δ α) (r : ConfigurationRun δ α)
    : ConfigurationCall δ α → Option (ServiceException δ α) × ConfigurationRun δ α
  | .registerAny buildId name info =>
    match r.service.registerAny p buildId name info with
    | .ok s => (none, { r with service := s })
    | .error e => (some e, r)
  | .registerRunningStateMutable buildId =>
    (none, { r with service := r.service.registerRunningStateMutable buildId })
  | .registerValidator buildId validator =>
    (none, { r with service := r.service.registerValidator buildId validator })
  | .buildUpdates buildId parameters =>
    match r.service.buildUpdates p buildId parameters with
    | .ok (updates, s) => (none, r.write s buildId updates)
    | .error e => (some e, r)
  | .update buildId updates throws =>
    let result := r.service.update p buildId updates throws
    (result.1, if r.service.isAccepted p buildId updates then r.write result.2 buildId updates
      else { r with service := result.2 })

def step (p : Platform δ α) (r : ConfigurationRun δ α) (c : ConfigurationCall δ α)
    : Option (ConfigurationRun δ α) :=
  some (r.call p c).2

end ConfigurationRun
end Emane

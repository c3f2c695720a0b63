import OperandLifecycle.Json.Path
import OperandLifecycle.Json.Display
/-!
# Phases

The phase vocabularies of the status sections, and the rules that derive one phase from
others:

* `CsvPhase` is what an operator's installation (its ClusterServiceVersion) reports; an
  empty or false report is `none`, an unknown word is `unknown`.
* `OperatorPhase` is what a registry publishes per operator (`operatorInstallPhase`).
* `RegistryPhase` rolls the per-operator map up: failed if any operator failed, running if any
  has reconcile requests, else ready; initialized when empty.
* `ServicePhase` serves operands, configurations and requests. A configuration takes the worst
  kind status it saw (`configPhase`); a request takes the install phase of highest precedence
  among its members (`requestPhase`).
-/
namespace OperandLifecycle.Status

open Json

/-- Install phases reported by an operator's installation. -/
inductive CsvPhase where
  | none | pending | installReady | installing | succeeded | failed | unknown | replacing | deleting
  deriving DecidableEq, Repr, Inhabited

/-- The word of an install phase. -/
def CsvPhase.word : CsvPhase → String
  | .none => ""
  | .pending => "Pending"
  | .installReady => "InstallReady"
  | .installing => "Installing"
  | .succeeded => "Succeeded"
  | .failed => "Failed"
  | .unknown => "Unknown"
  | .replacing => "Replacing"
  | .deleting => "Deleting"

/-- Every install phase, in declaration order. -/
def CsvPhase.all : List CsvPhase :=
  [.none, .pending, .installReady, .installing, .succeeded, .failed, .unknown, .replacing, .deleting]

/-- The install phase with the given word. -/
def CsvPhase.ofWord? (w : String) : Option CsvPhase := CsvPhase.all.find? (·.word == w)

/-- The install phase of a reported value: a false value is `none`, an unrecognised one
`unknown`. -/
def CsvPhase.read (v : Value) : CsvPhase :=
  if !v.truthy then .none
  else match v with
    | .str s => (CsvPhase.ofWord? s).getD .unknown
    | _ => .unknown

/-- Per-operator phases published on a registry. -/
inductive OperatorPhase where
  | none | pending | installing | ready | failed | updating | deleting
  deriving DecidableEq, Repr, Inhabited

/-- The word of an operator phase. -/
def OperatorPhase.word : OperatorPhase → String
  | .none => "None"
  | .pending => "Pending"
  | .installing => "Installing"
  | .ready => "Ready"
  | .failed => "Failed"
  | .updating => "Updating"
  | .deleting => "Deleting"

/-- Overall registry phases. -/
inductive RegistryPhase where
  | initialized | ready | running | failed
  deriving DecidableEq, Repr, Inhabited

/-- The word of a registry phase. -/
def RegistryPhase.word : RegistryPhase → String
  | .initialized => "Initialized"
  | .ready => "Ready"
  | .running => "Running"
  | .failed => "Failed"

/-- Phases of operands, configurations and requests. -/
inductive ServicePhase where
  | init | creating | running | updating | deleting | failed | pending | none
  deriving DecidableEq, Repr, Inhabited

/-- The word of a service phase. -/
def ServicePhase.word : ServicePhase → String
  | .init => "Init"
  | .creating => "Creating"
  | .running => "Running"
  | .updating => "Updating"
  | .deleting => "Deleting"
  | .failed => "Failed"
  | .pending => "Pending"
  | .none => "None"

/-- Every service phase, in declaration order. -/
def ServicePhase.all : List ServicePhase :=
  [.init, .creating, .running, .updating, .deleting, .failed, .pending, .none]

/-- The service phase with the given word. -/
def ServicePhase.ofWord? (w : String) : Option ServicePhase := ServicePhase.all.find? (·.word == w)

/-- Binding-information phases. -/
inductive BindInfoPhase where
  | init | completed | waiting | failed
  deriving DecidableEq, Repr, Inhabited

/-- The word of a binding-information phase. -/
def BindInfoPhase.word : BindInfoPhase → String
  | .init => "Init"
  | .completed => "Completed"
  | .waiting => "Waiting"
  | .failed => "Failed"

/-- The failure of naming a phase that does not exist in a vocabulary. -/
def notAPhase (vocabulary : String) (v : Value) : Failure :=
  .raised .valueError (v.literal ++ " is not a valid " ++ vocabulary)

/-- The install phase a value names exactly. -/
def CsvPhase.ofValue (v : Value) : Except Failure CsvPhase :=
  match v with
  | .str s => match CsvPhase.ofWord? s with
    | some p => .ok p
    | Option.none => .error (notAPhase "CSVPhase" v)
  | _ => .error (notAPhase "CSVPhase" v)

/-- The service phase a value names exactly. -/
def ServicePhase.ofValue (v : Value) : Except Failure ServicePhase :=
  match v with
  | .str s => match ServicePhase.ofWord? s with
    | some p => .ok p
    | Option.none => .error (notAPhase "ServicePhase" v)
  | _ => .error (notAPhase "ServicePhase" v)

/-- The operator phase an install phase publishes. -/
def CsvPhase.operatorPhase : CsvPhase → OperatorPhase
  | .none | .pending => .pending
  | .installReady | .installing => .installing
  | .succeeded => .ready
  | .failed | .unknown => .failed
  | .replacing => .updating
  | .deleting => .deleting

/-- The per-operator phase from the operator's subscription and the installation it resolved
to: none without a subscription, pending while nothing is resolved. -/
def operatorInstallPhase (subscription csv : Option Value) : Except Failure OperatorPhase :=
  match subscription, csv with
  | none, _ => .ok .none
  | some _, none => .ok .pending
  | some _, some c => do
    let st ← c.section "status"
    let ph ← st.field "phase"
    pure (CsvPhase.read ph).operatorPhase

/-- The registry phase of a per-operator status map. Each test stops at the first entry
that decides it. -/
def registryPhase (operatorsStatus : Fields) : Except Failure RegistryPhase := do
  if operatorsStatus.isEmpty then return .initialized
  let entries := operatorsStatus.map (·.2)
  if ← entries.anyM (fun e => do
      pure ((← e.field "phase").equiv (.str OperatorPhase.failed.word))) then
    return .failed
  if ← entries.anyM (fun e => do pure (← e.field "reconcileRequests").truthy) then
    return .running
  return .ready

/-- Per-operator phases in which an operator counts as installed. -/
def installedPhases : List OperatorPhase := [.ready, .updating]

/-- Whether a registry status reports the named operator as installed. -/
def operatorInstalled (registryStatus : Value) (name : Value) : Except Failure Bool := do
  let entry ← match (← registryStatus.orEmpty.field "operatorsStatus").orEmpty with
    | .obj fs => (Fields.lookup fs name).map (·.getD .null)
    | other => throw (notAnObject other "get")
  if !entry.truthy then return false
  let ph ← entry.field "phase"
  return installedPhases.any (fun p => ph.equiv (.str p.word))

/-- Service phases from worst to best, as a configuration rolls them up. -/
def configSeverity : List ServicePhase := [.failed, .deleting, .updating, .creating, .pending, .running]

/-- The kind statuses recorded for one service; they are gathered into a set, so none may be
a container. -/
def kindPhases (service : Value) : Except Failure (List Value) := do
  match ← service.section "customResourceStatus" with
  | .obj fs =>
    let vs := fs.map (·.2)
    match vs.find? (fun v => !v.hashable) with
    | some v => throw (unhashable v)
    | Option.none => pure vs
  | other => throw (notAnObject other "values")

/-- The configuration phase of a per-service status map: init until some kind status is
recorded, otherwise the worst one seen (running when none is ranked). -/
def configPhase (serviceStatus : Fields) : Except Failure ServicePhase := do
  let observed := (← serviceStatus.mapM (fun p => kindPhases p.2)).flatten
  if observed.isEmpty then return .init
  match configSeverity.find? (fun ph => observed.any (fun v => v.equiv (.str ph.word))) with
  | some ph => return ph
  | Option.none => return .running

/-- The phase of one operand from the results of its kinds: none without results, failed if
any failed, running otherwise. -/
def operandPhase (kindStatuses : List ServicePhase) : ServicePhase :=
  if kindStatuses.isEmpty then .none
  else if kindStatuses.contains .failed then .failed
  else .running

/-- Install phases by the request phase they lead to, highest precedence first. -/
def requestPrecedence : List (List CsvPhase × ServicePhase) :=
  [([.pending], .pending), ([.failed, .unknown], .failed), ([.replacing], .updating),
   ([.deleting], .deleting), ([.installing, .installReady], .creating), ([.none], .none)]

/-- The request phase from the install phases of its members: the highest precedence phase
seen, running when none is. -/
def requestPhaseOf (observed : List CsvPhase) : ServicePhase :=
  match requestPrecedence.find? (fun p => p.1.any (observed.contains ·)) with
  | some (_, ph) => ph
  | none => .running

/-- The install phase recorded on a request member. -/
def memberCsvPhase (member : Value) : Except Failure CsvPhase := do
  let ph ← member.section "phase"
  let op ← ph.field "operatorPhase"
  pure (CsvPhase.read op)

/-- The request phase of a member list. -/
def requestPhase (members : List Value) : Except Failure ServicePhase := do
  let observed ← members.mapM memberCsvPhase
  pure (requestPhaseOf observed)

end OperandLifecycle.Status

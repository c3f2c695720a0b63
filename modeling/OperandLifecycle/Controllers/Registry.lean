import OperandLifecycle.Controllers.Basic
/-!
# The registry controller

A registry's status publishes, for every operator it declares, the operator's install phase
(from its Subscription and installation) and the requests that ask for it through this
registry, sorted by name and namespace. The registry's phase rolls these up. An operator whose
lookup fails keeps the entry it had.

The registry is reconciled again soon while any operator is between phases (pending,
installing, updating or deleting) or the registry has failed.
-/
namespace OperandLifecycle.Controllers

open Json Cluster Reconcile Resource Catalog Status

/-- The operator phases that move on without any change to the registry. -/
def transitionalPhases : List OperatorPhase := [.pending, .installing, .updating, .deleting]

/-- Publishes the phase of every operator of the session's registry. -/
def reconcileRegistry : ReconcileM Unit := do
  let s ← ReconcileM.session
  let registry ← ReconcileM.check (View.ofManifest s.manifest)
  let previous ← ReconcileM.check registry.operatorsStatus
  let mut statuses : Fields := []
  let mut errors : List Failure := []
  for op in ← ReconcileM.check registry.operators do
    let outcome ← attempt (do
      let (sub, csv) ← installationOfOperator op
      let refs ← referentsOf op.name registry.name registry.namespace []
      pure (sub, csv, refs))
    match outcome with
    | .error e =>
      errors := errors ++ [e]
      if ← ReconcileM.check (Value.memberOf op.name previous) then
        statuses := Fields.insert statuses op.name.keyText
          (← ReconcileM.check (previous.subscript op.name))
    | .ok (sub, csv, refs) =>
      let phase ← ReconcileM.check (operatorInstallPhase sub csv)
      let requests ← ReconcileM.check (referentValues refs)
      statuses := Fields.insert statuses op.name.keyText
        (.obj [("phase", .str phase.word), ("reconcileRequests", requests)])
  let phase ← ReconcileM.check (registryPhase statuses)
  let _ ← ReconcileM.setStatus (.obj [("phase", .str phase.word), ("operatorsStatus", .obj statuses)])
  raiseGathered errors

/-- Whether a per-operator entry is between phases. -/
def isTransitional (entry : Value) : Except Failure Bool := do
  let ph ← entry.field "phase"
  if !ph.hashable then throw (unhashable ph)
  pure (transitionalPhases.any (fun p => ph.equiv (.str p.word)))

/-- Runs again soon while an operator is between phases or the registry failed. -/
def registryRequeue : ReconcileM (Bool × Option Delay) := do
  let s ← ReconcileM.session
  if ← ReconcileM.check s.deleting then return (false, none)
  let status := s.status.orEmpty
  let moving ← ReconcileM.check (do
    match (← status.field "operatorsStatus").orEmpty with
    | .obj fs => do
      let flags ← fs.mapM (fun p => isTransitional p.2)
      pure (flags.any id)
    | other => throw (notAnObject other "items"))
  let phase ← ReconcileM.check (status.field "phase")
  if !phase.equiv (.str RegistryPhase.failed.word) && !moving then return (false, none)
  requeueSoon

end OperandLifecycle.Controllers

import OperandLifecycle.Controllers.Basic
/-!
# The configuration controller

A configuration is backed by the registry of the same name and namespace. For every operator
of that registry that the configuration configures and that is installed, the controller
looks at the example resources of the operator's installation whose kind the configuration
configures: an example whose resource exists is running, one whose lookup fails has failed.
It never creates, changes or deletes the resources itself.

The configuration's status lists, per operator, these kind statuses, and a phase that rolls
them up. Without its registry the configuration stays initial and waits.
-/
namespace OperandLifecycle.Controllers

open Json Cluster Reconcile Resource Catalog Status

/-- The status of each configured kind of one operator's examples; none while the operator has
no installation. Malformed examples are reported as an event on the configuration. -/
def observeOperand (op : Operator) (service : Service) : ReconcileM (Option Fields) := do
  let (_, csv) ← installationOfOperator op
  let some csv := csv | return none
  let ns ← ReconcileM.check (do (← csv.index "metadata").field "namespace")
  let examples ← tryCatch (ReconcileM.check (examplesOf csv)) (fun e => do
    if let .merge _ := e then
      let _ ← ReconcileM.recordEvent .warning "InvalidExamples"
        ("Invalid example resources for operator " ++ op.name.display)
    throw e)
  let mut kinds : Fields := []
  for sample in examples do
    let kind ← ReconcileM.check (sample.index "kind")
    if (← ReconcileM.check (service.matchKind kind)).isNone then continue
    let name ← ReconcileM.check (do (← sample.field "metadata").orEmpty.field "name")
    if !name.truthy then continue
    let (ok, current) ← getObject kind name ns (sample.getD "apiVersion")
    if !ok then kinds := Fields.insert kinds kind.keyText (.str ServicePhase.failed.word)
    else if current.isSome then kinds := Fields.insert kinds kind.keyText (.str ServicePhase.running.word)
  return some kinds

/-- Observes the operands of the session's configuration. -/
def reconcileConfig : ReconcileM Unit := do
  let s ← ReconcileM.session
  let config ← ReconcileM.check (View.ofManifest s.manifest)
  let name ← ReconcileM.check s.name
  let (ok, registryManifest) ← ReconcileM.getObject (.str registryKind) name (.str apiVersion) none
  let ns ← ReconcileM.check s.ns
  if !ok then throw (.cluster ("Failed to fetch OperandRegistry " ++ ns.display ++ "/" ++ name.display))
  let some manifest := registryManifest
    | let message := "OperandRegistry " ++ ns.display ++ "/" ++ name.display ++ " not found"
      let _ ← ReconcileM.recordEvent .warning "NotFound" message
      let _ ← ReconcileM.setStatus
        (.obj [("phase", .str ServicePhase.init.word), ("serviceStatus", .obj [])])
      throw (.precondition message)
  let registry ← ReconcileM.check (View.ofManifest manifest)
  let mut serviceStatus : Fields := []
  let mut errors : List Failure := []
  for op in ← ReconcileM.check registry.operators do
    let some service ← ReconcileM.check (config.serviceNamed op.name) | continue
    if !(← ReconcileM.check (operatorInstalled registry.status op.name)) then continue
    match ← attempt (observeOperand op service) with
    | .error e => errors := errors ++ [e]
    | .ok (some kinds) =>
      if !kinds.isEmpty then
        serviceStatus := Fields.insert serviceStatus op.name.keyText
          (.obj [("customResourceStatus", .obj kinds)])
    | .ok none => pure ()
  let phase ← ReconcileM.check (configPhase serviceStatus)
  let _ ← ReconcileM.setStatus
    (.obj [("phase", .str phase.word), ("serviceStatus", .obj serviceStatus)])
  raiseGathered errors

end OperandLifecycle.Controllers

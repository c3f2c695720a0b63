import OperandLifecycle.Reconcile.Session
import OperandLifecycle.Reconcile.Requeue
import OperandLifecycle.Reconcile.Controller
import OperandLifecycle.Catalog.Referents
/-!
# What the controllers share

A controller's reconcile attempts each item (an operator, an operand, a copy) on its own: the
manager's own failures of one item are gathered (`attempt`) and raised together at the end
(`raiseGathered`), so that the other items still converge; any other failure stops the
reconcile at once.

After a reconcile a controller decides whether to run again soon (`requeueSoon`): by default
it does unless the resource is being deleted or its phase is one of the controller's stable
phases (`defaultRequeue`).
-/
namespace OperandLifecycle.Controllers

open Json Cluster Reconcile

/-- Runs an item, answering the manager's own failure of it instead of stopping. -/
def attempt {α : Type} (m : ReconcileM α) : ReconcileM (Except Failure α) :=
  tryCatch (do pure (.ok (← m))) (fun e => if e.isOwn then pure (.error e) else throw e)

/-- Raises the gathered failures, if any. -/
def raiseGathered (errors : List Failure) : ReconcileM Unit :=
  match Failure.gather errors with
  | some e => throw e
  | none => pure ()

/-- A request to run again after the short delay of the settings. -/
def requeueSoon : ReconcileM (Bool × Option Delay) := do
  let d ← ReconcileM.check (Delay.ofSetting (← ClusterM.setting "requeue_after_seconds"))
  pure (true, some d)

/-- Runs again soon unless the resource is being deleted or its phase is stable. -/
def defaultRequeue (stable : List String) : ReconcileM (Bool × Option Delay) := do
  let s ← ReconcileM.session
  if ← ReconcileM.check s.deleting then return (false, none)
  let phase ← ReconcileM.check (s.status.orEmpty.field "phase")
  if stable.any (fun p => phase.equiv (.str p)) then return (false, none)
  requeueSoon

/-- Referents as their status entries, sorted by name and namespace. -/
def referentValues (refs : List Catalog.Referent) : Except Failure Value := do
  pure (.arr ((← Catalog.sortReferents refs).map Catalog.Referent.toValue))

end OperandLifecycle.Controllers

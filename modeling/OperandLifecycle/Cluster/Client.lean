import OperandLifecycle.Cluster.Store
import OperandLifecycle.Cluster.Faults
import OperandLifecycle.Config.Settings
/-!
# The cluster as the manager reaches it

A `World` is everything a run of the manager can observe: the in-memory `Store`, the faults
injected into its operations, the number of objects created so far (the `n`-th created object
gets the uid whose number is `n`), the clock, and the settings. Its `backend` says whether
the calls reach the store or a cluster that cannot be reached, because no client
configuration exists: there, reads and deletions stop with a configuration exception, and
writes answer that they failed. A world may start without a backend, which is then set up
from the settings when first needed (`setUpBackend`).

`ClusterM` runs against a world. A failure stops the run but keeps what was changed before,
as a real cluster would.

Every call of the manager goes through the fault plan (`getObject`, `listObjects`, `create`,
`update`, `deleteAll`, `setStatus`). Each answers `(success, result)`; a failing call answers
`false` with an empty result. The `Direct` operations bypass the faults: they are what a
user outside the manager sees.
-/
namespace OperandLifecycle.Cluster

open Json

/-- Where the manager's calls go. -/
inductive Backend where
  /-- The in-memory store. -/
  | memory
  /-- A cluster whose client cannot be configured. -/
  | unreachable
  deriving DecidableEq, Repr

/-- What a run of the manager observes and changes. -/
structure World where
  store : Store
  faults : FaultPlan
  /-- How many objects were created so far. -/
  created : Nat
  now : Stamp
  settings : Config.Settings
  /-- Where the calls go; none before a client is set up. -/
  backend : Option Backend

/-- Runs against a world; a failure keeps the changes made before it. -/
abbrev ClusterM := ExceptT Failure (StateM World)

/-- The text of a uid: the number as 32 hexadecimal digits in groups of 8, 4, 4, 4 and 12. -/
def uidText (n : Nat) : String :=
  let ds := Nat.toDigits 16 n
  let cs := List.replicate (32 - ds.length) '0' ++ ds
  "-".intercalate ([(0, 8), (8, 4), (12, 4), (16, 4), (20, 12)].map (fun (i, k) =>
    String.ofList ((cs.drop i).take k)))

/-- The failure of calling a cluster whose client cannot be configured. -/
def unreachableFailure : Failure :=
  .raised .configException "Invalid kube-config file. No configuration found."

namespace ClusterM

/-- Stops with a failure of a check. -/
def check {α : Type} (r : Except Failure α) : ClusterM α := ExceptT.mk (pure r)

/-- Runs a store operation on the world's store. -/
def onStore {α : Type} (op : StoreM α) : ClusterM α := do
  let w ← getThe World
  let (r, st) := (op.run).run w.store
  set { w with store := st }
  check r

/-- The time now. -/
def now : ClusterM Stamp := do return (← getThe World).now

/-- The current settings. -/
def settings : ClusterM Config.Settings := do return (← getThe World).settings

/-- A setting's value. -/
def setting (k : String) : ClusterM Value := do return (← settings).get k

end ClusterM

/-- Sets up the backend from the settings when there is none yet: the in-memory store when
the settings ask for a dry run, else the cluster, which cannot be reached. -/
def setUpBackend : ClusterM Unit := do
  let w ← getThe World
  if w.backend.isNone then
    let dry := (w.settings.get "dry_run").truthy
    set { w with backend := some (if dry then Backend.memory else Backend.unreachable) }

/-! ## Calls that bypass the faults -/

namespace Direct

/-- The object of a name in the store. -/
def get (kind name ns apiVersion : Value) : ClusterM (Option Value) := do
  ClusterM.check ((← getThe World).store.get kind name ns apiVersion)

/-- The objects of a kind in the store that the selectors select. -/
def list (kind ns apiVersion labelSelector fieldSelector : Value) : ClusterM (List Value) := do
  ClusterM.check ((← getThe World).store.list kind ns apiVersion labelSelector fieldSelector)

/-- Files a new object, with the next uid when it is created. -/
def create (resource : Value) : ClusterM Bool := do
  let w ← getThe World
  let created ← ClusterM.onStore (Store.create resource (uidText (w.created + 1)) w.now)
  if created then modify (fun w => { w with created := w.created + 1 })
  pure created

end Direct

/-! ## Calls of the manager -/

/-- The verdict of the fault plan on a call. -/
def judge (op : Operation) (kind : Value) : ClusterM Verdict :=
  modifyGetThe World (fun w =>
    let (v, p) := w.faults.judge op kind
    (v, { w with faults := p }))

/-- The runtime error a fault raises. -/
def raisedFault (message : String) : Failure := .raised .runtimeError message

/-- Whether the calls go to a cluster that cannot be reached. -/
def unreachable : ClusterM Bool := do return (← getThe World).backend == some .unreachable

/-- The object of a name, when exactly one version of it fits. -/
def getObject (kind name ns apiVersion : Value) : ClusterM (Bool × Option Value) := do
  if ← unreachable then throw unreachableFailure
  match ← judge .get kind with
  | .fail => pure (false, none)
  | .raise m => throw (raisedFault m)
  | _ => pure (true, ← Direct.get kind name ns apiVersion)

/-- The objects of a kind that the selectors select, in one namespace or all. -/
def listObjects (kind ns apiVersion labelSelector fieldSelector : Value) :
    ClusterM (Bool × List Value) := do
  if ← unreachable then throw unreachableFailure
  match ← judge .filter kind with
  | .fail => pure (false, [])
  | .raise m => throw (raisedFault m)
  | _ => pure (true, ← Direct.list kind ns apiVersion labelSelector fieldSelector)

/-- The kind a write is about: the resource's kind, or the resource itself when it is no
object. -/
def writtenKind (resource : Value) : Value :=
  match resource with
  | .obj fs => (Fields.get? fs "kind").getD .null
  | other => other

/-- Files a new object; answers whether it was created. -/
def create (resource : Value) : ClusterM (Bool × Bool) := do
  if ← unreachable then return (false, false)
  match ← judge .create (writtenKind resource) with
  | .fail => pure (false, false)
  | .raise m => throw (raisedFault m)
  | _ => pure (true, ← Direct.create resource)

/-- Replaces a filed object; answers whether it was accepted and whether it changed. -/
def update (resource : Value) : ClusterM (Bool × Bool) := do
  if ← unreachable then return (false, false)
  match ← judge .update (writtenKind resource) with
  | .fail => pure (false, false)
  | .raise m => throw (raisedFault m)
  | _ => ClusterM.onStore (Store.update resource)

/-- Deletes the objects of a kind that the selectors select, listing them through the
manager's own listing call. Answers whether any was listed. -/
def deleteSelected (kind ns apiVersion labelSelector fieldSelector : Value) : ClusterM Bool := do
  let (_, listed) ← listObjects kind ns apiVersion labelSelector fieldSelector
  let now ← ClusterM.now
  ClusterM.onStore (Store.deleteListed kind listed now)

/-- Deletes the objects of a kind that the selectors select; answers whether any was. -/
def deleteAll (kind ns apiVersion labelSelector fieldSelector : Value) :
    ClusterM (Bool × Bool) := do
  if ← unreachable then throw unreachableFailure
  match ← judge .delete kind with
  | .fail => pure (false, false)
  | .raise m => throw (raisedFault m)
  | .proceed => pure (true, ← deleteSelected kind ns apiVersion labelSelector fieldSelector)
  | .refile =>
    let matched ← Direct.list kind ns apiVersion labelSelector fieldSelector
    let _ ← deleteSelected kind ns apiVersion labelSelector fieldSelector
    for m in matched do
      let _ ← Direct.create m
    pure (true, !matched.isEmpty)

/-- Writes the status of an object; answers whether it exists and whether the status
changed. -/
def setStatus (kind name ns status apiVersion : Value) : ClusterM (Bool × Bool) := do
  if ← unreachable then return (false, false)
  match ← judge .setStatus kind with
  | .fail => pure (false, false)
  | .raise m => throw (raisedFault m)
  | _ => ClusterM.onStore (Store.setStatus kind name ns status apiVersion)

end OperandLifecycle.Cluster

import OperandLifecycle.Controllers.Registry
import OperandLifecycle.Controllers.Config
import OperandLifecycle.Controllers.Request
import OperandLifecycle.Controllers.BindInfo
/-!
# Running a reconcile

`reconcile` runs one controller on one resource manifest:

1. the manifest must be an object;
2. the resource's annotations may set up logging (a log format or thread flag must be text)
   and may pause it: a paused resource is left alone and not run again;
3. the resource is finalized when it is being deleted (unless the caller says otherwise);
4. the controller must be one of the manager's, and the cluster client is set up;
5. a session opens on the resource, a controller that holds a finalizer adds it (unless
   finalizing), the controller reconciles or finalizes, and decides whether to run again; a
   finalizing controller that is done removes its finalizer.

Unless the controller asks to run again after its own delay, the delay is the default one of
the settings.

`safeReconcile` never lets a reconcile failure escape: it reports the failure as a warning
event on the resource and asks to run again after the default delay. Only a default delay that
the settings cannot give escapes it.
-/
namespace OperandLifecycle.Reconcile

open Json Cluster Resource Controllers

/-- The controller a reconcile is asked to run: one of the manager's, or something else, named
by its text. -/
inductive ControllerChoice where
  | known (c : Controller)
  | unknown (name : String)

/-- The result of a reconcile. -/
structure Outcome where
  /-- Whether to run again. -/
  requeue : Bool
  /-- After how long. -/
  delay : Delay
  /-- The failure the reconcile stopped with, if any. -/
  failure : Option Failure

/-- The reconcile of a controller. -/
def Controller.reconcile : Controller → ReconcileM Unit
  | .registry => reconcileRegistry
  | .config => reconcileConfig
  | .request => reconcileRequest
  | .bindInfo => reconcileBindInfo

/-- The clean-up of a controller before its resource goes; only the request controller has
one. -/
def Controller.finalize : Controller → ReconcileM Unit
  | .request => finalizeRequest
  | _ => pure ()

/-- Whether a controller runs again, and after how long. -/
def Controller.requeue : Controller → ReconcileM (Bool × Option Delay)
  | .registry => registryRequeue
  | c => defaultRequeue c.stablePhases

/-- The default delay of the settings. -/
def defaultDelay : ClusterM Delay := do
  ClusterM.check (Delay.ofSetting (← ClusterM.setting "default_requeue_seconds"))

/-- The lower-case form of an annotation that must be text; a false value is empty. -/
def annotationWord (v : Value) : Except Failure String :=
  match v.or (.str "") with
  | .str s => .ok (Text.toLower s)
  | other => .error (notAnObject other "lower")

/-- The annotations of a manifest, the empty object when false. -/
def annotationsOf (manifest : Value) : Except Failure Value := do
  let md ← manifest.fieldOr "metadata" (.obj [])
  pure (← md.field "annotations").orEmpty

/-- Reads the logging set-up of a resource's annotations. Logging never changes a result, but
its annotations must be readable. -/
def checkLogging (manifest : Value) : Except Failure Unit := do
  let annotations ← annotationsOf manifest
  let _ ← annotations.field logLevelAnnotationKey
  let _ ← annotations.field logFiltersAnnotationKey
  let json ← annotations.fieldOr logJsonAnnotationKey (.str "False")
  let threadId ← annotations.fieldOr logThreadIdAnnotationKey (.str "False")
  let _ ← annotationWord json
  let _ ← annotationWord threadId

/-- Whether a resource is paused by its annotation. -/
def isPaused (manifest : Value) : Except Failure Bool := do
  let paused ← (← annotationsOf manifest).field pauseAnnotationKey
  if !paused.truthy then return false
  pure ((← annotationWord paused) == "true")

/-- Runs a controller in an open session; answers whether to run again and after how long. -/
def runController (c : Controller) (finalizing : Bool) : ReconcileM (Bool × Delay) := do
  let s ← ReconcileM.session
  let _ ← ReconcileM.check s.ns
  let _ ← ReconcileM.check s.name
  if c.hasFinalizer && !finalizing then
    ReconcileM.addFinalizer (.str ((c.finalizer).getD ""))
  if finalizing then c.finalize else c.reconcile
  let (requeue, delay) ← c.requeue
  let delay ← match delay with
    | some d => pure d
    | none => liftCluster defaultDelay
  if !requeue && finalizing && c.hasFinalizer then
    ReconcileM.removeFinalizer (.str ((c.finalizer).getD ""))
  pure (requeue, delay)

/-- The session id of every reconcile. -/
def reconcileId : String := "reconcile"

/-- Runs one reconcile of a controller on a resource manifest. -/
def reconcile (choice : ControllerChoice) (resource : Value) (finalizer : Option Value) :
    ClusterM Outcome := do
  let manifest ← match resource with
    | .obj _ => pure resource
    | _ => throw (.raised .valueError "Failed to parse full_cr")
  ClusterM.check (checkLogging manifest)
  if ← ClusterM.check (isPaused manifest) then
    return ⟨false, ← defaultDelay, none⟩
  let finalizing ← match finalizer with
    | some v => pure v.truthy
    | none => ClusterM.check (do pure (← (← manifest.attr "metadata").field "deletionTimestamp").truthy)
  let c ← match choice with
    | .known c => pure c
    | .unknown name => throw (Failure.assertion ("Invalid controller: " ++ name))
  setUpBackend
  let session ← Session.start reconcileId manifest
  let w ← getThe World
  let ((res : Except Failure (Bool × Delay)), r) := ((runController c finalizing).run).run ⟨w, session⟩
  set r.world
  let (requeue, delay) ← ClusterM.check res
  pure ⟨requeue, delay, none⟩

/-- Runs one reconcile and turns its failure into a warning event on the resource and a
request to run again after the default delay. -/
def safeReconcile (choice : ControllerChoice) (resource : Value) (finalizer : Option Value) :
    ClusterM Outcome := do
  let attempt : ClusterM (Except Failure Outcome) :=
    tryCatch (Except.ok <$> reconcile choice resource finalizer) (fun e => pure (Except.error e))
  match ← attempt with
  | .ok outcome => pure outcome
  | .error e =>
    setUpBackend
    let _ ← tryCatch (Event.record resource .warning (.str "ReconcileFailed") (.str e.message))
      (fun _ => pure false)
    pure ⟨true, ← defaultDelay, some e⟩

end OperandLifecycle.Reconcile

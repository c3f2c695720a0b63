import OperandLifecycle.Service.Answer
import OperandLifecycle.Service.Request
import OperandLifecycle.Service.Library
import OperandLifecycle.Reconcile.Manager
import OperandLifecycle.Json.Patch
/-!
# Scenarios

A scenario runs a sequence of steps against one in-memory cluster. The cluster starts with the
given resources, created in order, and with the given faults injected; then each step runs one
second after the previous one and is answered with its result (or failure) and, unless it only
reads, the whole cluster after it, sorted by address.

The steps reach the manager's parts one at a time: the cluster calls themselves (through the
faults), a merge patch, the reference questions, the installation lookups, owner references,
events, a session with a list of calls on it, and whole reconciles.
-/
namespace OperandLifecycle.Service

open Json Cluster Resource Catalog Reconcile

/-- The world of a run: an empty store and no faults, at the start time. -/
def freshWorld (settings : Config.Settings) (strict : Bool) (backend : Option Backend) : World :=
  { store := Store.empty strict, faults := FaultPlan.none, created := 0, now := Stamp.ofSeconds 0,
    settings := settings, backend := backend }

/-- Runs a cluster computation on a world. -/
def runOn {α : Type} (m : ClusterM α) (w : World) : Except Failure α × World := (m.run).run w

/-- A pair of answers as a list. -/
def pairValue (a b : Value) : Value := .arr [a, b]

/-- An object or `null`. -/
def optionValue : Option Value → Value
  | some v => v
  | none => .null

/-- The outcome of a reconcile as a value. -/
def outcomeValue (o : Outcome) : Value :=
  .obj [("requeue", .bool o.requeue), ("requeue_after", .float o.delay.seconds),
    ("exception", match o.failure with
      | some f => failureValue f
      | none => .null)]

/-- The controller a step names; an unknown name is a missing key. -/
def controllerArg (v : Value) : Except Failure Controller :=
  match v with
  | .str name => match Controller.ofName? name with
    | some c => .ok c
    | none => .error (Failure.missingKey v.literal)
  | other =>
    if other.hashable then .error (Failure.missingKey other.literal) else .error (unhashable other)

/-- The finalizer flag of a step: none unless given. -/
def finalizerArg (r : Request) : Option Value :=
  match r.opt "is_finalizer" with
  | .null => none
  | v => some v

/-- A referent given as an object with a name and a namespace. -/
def referentArg (v : Value) : Except Failure Referent := do
  pure ⟨← v.index "name", ← v.index "namespace"⟩

/-- Referents to leave out, none when not given. -/
def excludeArg (r : Request) : Except Failure (List Referent) := do
  (← (r.opt "exclude").itemsOrEmpty).mapM referentArg

/-- A set of referents as a sorted list, by the compact text of each. -/
def referentSet (rs : List Referent) : Value :=
  .arr ((rs.map Referent.toValue).mergeSort (fun a b => decide (a.compact ≤ b.compact)))

/-- An optional argument that is absent when missing, as the session reads namespaces. -/
def presentArg (r : Request) (k : String) : Option Value := r.get? k

/-- Answers one call on a session. -/
def sessionCall (call : Value) : ReconcileM Value := do
  let r : Request := ⟨call.fields?.getD []⟩
  let s ← ReconcileM.session
  let check {α : Type} (e : Except Failure α) : ReconcileM α := ReconcileM.check e
  match ← check (call.index "call") with
  | .str "id" => pure (.str s.id)
  | .str "cr_manifest" => pure s.manifest
  | .str "spec" => pure s.spec
  | .str "metadata" => check s.metadata
  | .str "kind" => pure s.kind
  | .str "api_version" => pure s.apiVersion
  | .str "name" => check s.name
  | .str "namespace" => check s.ns
  | .str "finalizers" => ReconcileM.finalizers
  | .str "deleting" => return .bool (← check s.deleting)
  | .str "status" => pure s.status
  | .str "get_status" => liftCluster s.readStatus
  | .str "set_status" => return .bool (← ReconcileM.setStatus (← check (r.need "status")))
  | .str "get" =>
    let (ok, found) ← ReconcileM.getObject (← check (r.need "kind")) (← check (r.need "name"))
      (r.opt "api_version") (presentArg r "namespace")
    pure (pairValue (.bool ok) (optionValue found))
  | .str "filter" =>
    let (ok, found) ← ReconcileM.listObjects (← check (r.need "kind")) (r.opt "api_version")
      (r.opt "label_selector") (r.opt "field_selector") (presentArg r "namespace")
    pure (pairValue (.bool ok) (.arr found))
  | .str "record_event" =>
    let type ← check (Event.EventType.ofValue (← check (r.need "type")))
    let posted ← liftCluster (Event.record s.manifest type (← check (r.need "reason"))
      (← check (r.need "message")))
    pure (.bool posted)
  | .str "add_finalizer" =>
    ReconcileM.addFinalizer (← check (r.need "finalizer"))
    pure .null
  | .str "remove_finalizer" =>
    ReconcileM.removeFinalizer (← check (r.need "finalizer"))
    pure .null
  | other => throw (.raised .valueError ("unknown session call " ++ other.display))

/-- Answers each call on a session in turn; a failing call does not stop the others. -/
def sessionCalls (calls : List Value) : ReconcileM (List Value) :=
  calls.mapM (fun c =>
    tryCatch (do pure (answerOk (← sessionCall c))) (fun e => pure (answerFailure e)))

/-- Opens a session on a manifest and answers its calls. -/
def sessionStep (manifest : Value) (calls : List Value) : ClusterM Value := do
  if !manifest.isObj then
    throw (notAnObject manifest "items")
  let session ← Session.start "test-reconcile-id" manifest
  let w ← getThe World
  let ((res : Except Failure (List Value)), r) := ((sessionCalls calls).run).run ⟨w, session⟩
  set r.world
  pure (.arr (← ClusterM.check res))

/-- Runs one step; answers its result. -/
def runStep (step : Request) : ClusterM Value := do
  let check {α : Type} (e : Except Failure α) : ClusterM α := ClusterM.check e
  let need (k : String) : ClusterM Value := check (step.need k)
  match step.opt "op" with
  | .str "reconcile" =>
    let c ← check (controllerArg (← need "controller"))
    let manifest ← match step.get? "manifest" with
      | some m => pure m
      | none =>
        let kind := (step.get? "kind").getD (.str c.kind)
        let apiV := (step.get? "api_version").getD (.str apiVersion)
        match ← Direct.get kind (← need "name") (← need "namespace") apiV with
        | some m => pure m
        | none => throw (.raised .lookupError "resource to reconcile is not in the cluster")
    return outcomeValue (← safeReconcile (.known c) manifest (finalizerArg step))
  | .str "create" =>
    let (a, b) ← create (← need "resource")
    pure (pairValue (.bool a) (.bool b))
  | .str "update" =>
    let (a, b) ← update (← need "resource")
    pure (pairValue (.bool a) (.bool b))
  | .str "patch" =>
    let some current ← Direct.get (← need "kind") (← need "name") (step.opt "namespace")
        (step.opt "api_version")
      | throw (.raised .lookupError "resource to patch is not in the cluster")
    let (a, b) ← update (current.mergePatch (← need "patch"))
    pure (pairValue (.bool a) (.bool b))
  | .str "get" =>
    let (ok, found) ← getObject (← need "kind") (← need "name") (step.opt "namespace")
      (step.opt "api_version")
    pure (pairValue (.bool ok) (optionValue found))
  | .str "filter" =>
    let (ok, found) ← listObjects (← need "kind") (step.opt "namespace") (step.opt "api_version")
      (step.opt "label_selector") (step.opt "field_selector")
    pure (pairValue (.bool ok) (.arr found))
  | .str "delete" =>
    let (a, b) ← deleteAll (← need "kind") (step.opt "namespace") (step.opt "api_version")
      (step.opt "label_selector") (step.opt "field_selector")
    pure (pairValue (.bool a) (.bool b))
  | .str "set_status" =>
    let (a, b) ← setStatus (← need "kind") (← need "name") (step.opt "namespace")
      (← need "status") (step.opt "api_version")
    pure (pairValue (.bool a) (.bool b))
  | .str "set_fail" =>
    let w ← getThe World
    let faults ← check (w.faults.apply (← need "fail"))
    set { w with faults := faults }
    pure .null
  | .str "referents" =>
    let exclude ← check (excludeArg step)
    pure (referentSet (← referentsOf (← need "operand") (step.opt "registry")
      (step.opt "registry_namespace") exclude))
  | .str "operator_namespace_referents" =>
    let exclude ← check (excludeArg step)
    pure (referentSet (← namespaceReferents (← need "operand") (← need "operator_namespace") exclude))
  | .str "is_delete_safe" =>
    let triggering ← check (referentArg (← need "triggering"))
    pure (.bool (← deleteSafe (← need "operand") (← need "operator_namespace") triggering))
  | .str "get_subscription" =>
    let op ← check (Operator.ofEntry (← need "operator"))
    pure (optionValue (← subscriptionOf op))
  | .str "get_csv" => pure (optionValue (← installationOf (← need "subscription")))
  | .str "get_operator_csv" =>
    let op ← check (Operator.ofEntry (← need "operator"))
    let (sub, csv) ← installationOfOperator op
    pure (pairValue (optionValue sub) (optionValue csv))
  | .str "owner_refs" => addOwner (← need "owner") (← need "child")
  | .str "record_event" =>
    let owner ← need "owner"
    let type ← check (Event.EventType.ofValue (← need "type"))
    pure (.bool (← Event.record owner type (← need "reason") (← need "message")))
  | .str "session" =>
    let calls ← check ((step.opt "calls").itemsOrEmpty)
    sessionStep (← need "manifest") calls
  | .str "run_reconcile" =>
    let c ← check (controllerArg (← need "controller"))
    let kind ← need "kind"
    let name ← need "name"
    let ns ← need "namespace"
    let (_, found) ← getObject kind name ns (.str apiVersion)
    let some manifest := found
      | throw (Failure.assertion (kind.display ++ " " ++ ns.display ++ "/" ++ name.display ++
          " is not in the cluster"))
    return outcomeValue (← safeReconcile (.known c) manifest (finalizerArg step))
  | .str "get_obj" =>
    let (_, found) ← getObject (← need "kind") (← need "name") (step.opt "namespace")
      (step.opt "api_version")
    pure (optionValue found)
  | .str "has_obj" =>
    let (_, found) ← getObject (← need "kind") (← need "name") (step.opt "namespace")
      (step.opt "api_version")
    pure (.bool found.isSome)
  | .str "get_events" =>
    let events ← Direct.list (.str "Event") (step.opt "namespace") (.str "v1") .null .null
    let reason := step.opt "reason"
    let kept ← events.filterM (fun e => do
      let r ← check (e.index "reason")
      pure (reason.isNull || reason.equiv r))
    pure (.arr kept)
  | other => throw (.raised .valueError ("unknown step op " ++ other.display))

/-- Whether a step only reads, so that its answer leaves out the cluster. -/
def readsOnly (step : Request) : Bool :=
  match step.opt "op" with
  | .str "get" | .str "filter" => true
  | _ => false

/-- Runs the steps in turn, step `i` one second after step `i - 1`, the first one second after
the start; answers each with its result and, unless it only reads, the cluster after it. -/
def runSteps (steps : List Value) (w : World) : List Value :=
  let rec go (i : Nat) (w : World) : List Value → List Value
    | [] => []
    | s :: rest =>
      let step : Request := ⟨s.fields?.getD []⟩
      let w := { w with now := Stamp.ofSeconds (i + 1) }
      let (res, w) := runOn (runStep step) w
      let answer := answerOf res
      let answer := if readsOnly step then answer
        else answer.set "cluster" (.arr w.store.dump)
      answer :: go (i + 1) w rest
  go 0 w steps

/-- Runs a scenario: settings, preloaded resources, injected faults, then the steps. -/
def runScenario (r : Request) : Except Failure Value := do
  let settings ← settingsArg r
  let w := freshWorld settings (r.opt "strict").truthy (some .memory)
  let resources ← (r.opt "resources").itemsOrEmpty
  let (res, w) := runOn (resources.forM (fun res => do let _ ← Direct.create res)) w
  res
  let faults ← w.faults.apply (r.opt "fail")
  let steps ← (r.opt "steps").itemsOrEmpty
  pure (.obj [("steps", .arr (runSteps steps { w with faults := faults }))])

/-- Runs one reconcile without a given cluster client: the client is set up from the settings
when needed. -/
def runStandalone (r : Request) : Except Failure Value := do
  let settings ← settingsArg r
  let w := freshWorld settings false none
  let choice := match r.opt "controller" with
    | .str name => match Controller.ofName? name with
      | some c => ControllerChoice.known c
      | none => .unknown name
    | other => .unknown other.display
  let (res, w) := runOn (safeReconcile choice (r.opt "manifest") (finalizerArg r)) w
  let outcome ← res
  let client := match w.backend with
    | some .memory => Value.str "DryRunDeployManager"
    | some .unreachable => .str "OpenshiftDeployManager"
    | none => .null
  let base : Fields := [("result", outcomeValue outcome), ("deploy_manager", client)]
  pure (.obj (if w.backend == some .memory then base ++ [("cluster", .arr w.store.dump)] else base))

/-- The operations that answer with a whole answer of their own. -/
def runHandlers : HandlerTable :=
  [("scenario", runScenario), ("reconcile_standalone", runStandalone)]

end OperandLifecycle.Service

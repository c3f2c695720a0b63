import OperandLifecycle.Controllers.Basic
import OperandLifecycle.Resource.BindInfo
import OperandLifecycle.Cluster.Ownership
/-!
# The binding information controller

Binding information shares the public secrets and config maps of an operand with the
requests that ask for it from other namespaces. For every such request (sorted by name and
namespace) and every public binding (sorted by scope key), the controller copies the named
secret and config map from the binding information's namespace into the request's namespace,
under the name the request's own binding of that scope gives, else under the same name. Each
copy is owned by its request and carries the control label; an existing copy is brought up to
date.

The status lists the namespaces that received every copy, and a phase: failed when a copy
failed, waiting while a source does not exist yet, initial without any request, completed
otherwise. Without its registry, or before the operator is installed, it waits; an operator
the registry does not declare is a configuration failure.
-/
namespace OperandLifecycle.Controllers

open Json Cluster Reconcile Resource Catalog Status

/-- The kinds that can be bound, by the binding field that names them. -/
def bindableKinds : List (String × String) := [("secret", "Secret"), ("configmap", "ConfigMap")]

/-- The fields copied from a source of each kind. -/
def copiedFields (kind : String) : List String :=
  if kind == "Secret" then ["type", "data", "stringData"] else ["data", "binaryData"]

/-- A status with a phase, keeping the request namespaces of the previous status. -/
def bindStatus (phase : BindInfoPhase) (previous : Value) : Except Failure Value := do
  let namespaces ← previous.orEmpty.field "requestNamespaces"
  pure (.obj [("phase", .str phase.word), ("requestNamespaces", namespaces.or (.arr []))])

/-- Sets the status to a phase, keeping the request namespaces. -/
def setBindPhase (phase : BindInfoPhase) : ReconcileM Unit := do
  let st ← ReconcileM.check (bindStatus phase (← ReconcileM.session).status)
  let _ ← ReconcileM.setStatus st

/-- The registry that declares the bound operand. -/
def bindRegistry (b : BindInfo) : ReconcileM View := do
  let (ok, manifest) ←
    ReconcileM.getObject (.str registryKind) b.registry (.str apiVersion) (some b.registryNamespace)
  let where_ := b.registryNamespace.display ++ "/" ++ b.registry.display
  if !ok then throw (.cluster ("Failed to fetch OperandRegistry " ++ where_))
  let some manifest := manifest
    | let message := "OperandRegistry " ++ where_ ++ " not found"
      let _ ← ReconcileM.recordEvent .warning "NotFound" message
      setBindPhase .waiting
      throw (.precondition message)
  let registry ← ReconcileM.check (View.ofManifest manifest)
  if (← ReconcileM.check (registry.operatorNamed b.operand)).isNone then
    let message := "Operator " ++ b.operand.display ++ " not declared in " ++ registry.describe registryKind
    let _ ← ReconcileM.recordEvent .warning "NotFound" message
    setBindPhase .failed
    throw (.config message)
  pure registry

/-- One copy to make: the source name, the target name and the kind. -/
structure Copy where
  source : Value
  target : Value
  kind : String

/-- The copies to make into a request's namespace. -/
def copiesFor (b : BindInfo) (request : View) : Except Failure (List Copy) := do
  let found ← request.findOperand b.operand b.registry b.registryNamespace
  let overrides := match found with
    | some (_, o) => o.bindings
    | none => .obj []
  let scopes := (← b.publicBindings).mergeSort (fun x y => decide (x.1 ≤ y.1))
  let perScope ← scopes.mapM (fun (key, binding) => do
    let override := (← overrides.field key).orEmpty
    let found ← bindableKinds.mapM (fun (field, kind) => do
      let source ← binding.orEmpty.field field
      if !source.truthy then return none
      let target ← override.field field
      pure (some ⟨source, target.or source, kind⟩))
    pure found.reduceOption)
  pure perScope.flatten

/-- Copies one source into a request's namespace; answers false while the source does not
exist. -/
def copyResource (c : Copy) (sourceNs : Value) (request : View) : ClusterM Bool := do
  let (ok, source) ← getObject (.str c.kind) c.source sourceNs (.str "v1")
  if !ok then
    throw (.cluster ("Failed to fetch " ++ c.kind ++ " " ++ sourceNs.display ++ "/" ++ c.source.display))
  let some source := source | return false
  let targetNs := request.namespace
  let fields := (copiedFields c.kind).filterMap (fun f => (source.get? f).map (f, ·))
  let copy := Value.obj ([("apiVersion", .str "v1"), ("kind", .str c.kind),
    ("metadata", .obj [("name", c.target), ("namespace", targetNs),
      ("labels", .obj [(controlLabel, .str "true")])])] ++ fields)
  let copy ← addOwner request.manifest copy
  let at_ := c.kind ++ " " ++ targetNs.display ++ "/" ++ c.target.display
  let (ok, created) ← create copy
  if !ok then throw (.cluster ("Failed to create " ++ at_))
  if created then return true
  let (ok, current) ← getObject (.str c.kind) c.target targetNs (.str "v1")
  let some current := (if ok then current else none)
    | throw (.cluster ("Failed to fetch " ++ at_))
  let curMd ← ClusterM.check (current.index "metadata")
  let labels ← ClusterM.check (do
    match (← curMd.field "labels").orEmpty with
    | .obj fs => pure fs
    | other => throw (.raised .typeError ("'" ++ other.typeName ++ "' object is not a mapping")))
  let copyMd := copy.getD "metadata"
  let merged := [(controlLabel, Value.str "true")].foldl (fun acc (k, v) => Fields.insert acc k v) labels
  let md := (curMd.set "ownerReferences" (copyMd.getD "ownerReferences")).set "labels" (.obj merged)
  let updated := (copiedFields c.kind).foldl (fun u f =>
    match copy.get? f with
    | some v => u.set f v
    | none => u.erase f) (current.set "metadata" md)
  if updated.equiv current then return true
  let (ok, _) ← update updated
  if !ok then throw (.cluster ("Failed to update " ++ at_))
  pure true

/-- Copies the public bindings of the session's binding information to the requests that ask
for its operand from other namespaces. -/
def reconcileBindInfo : ReconcileM Unit := do
  let s ← ReconcileM.session
  let b ← ReconcileM.check (do BindInfo.ofView (← View.ofManifest s.manifest))
  let registry ← bindRegistry b
  if !(← ReconcileM.check (operatorInstalled registry.status b.operand)) then
    setBindPhase .waiting
    return
  let refs ← referentsOf b.operand b.registry b.registryNamespace []
  let targets ← ReconcileM.check (sortReferents (refs.filter (fun r => !r.ns.equiv b.view.namespace)))
  let mut errors : List Failure := []
  let mut waiting := false
  let mut synced : List Value := []
  for target in targets do
    let (ok, manifest) ← getObject (.str requestKind) target.name target.ns (.str apiVersion)
    let some manifest := (if ok then manifest else none) | continue
    let request ← ReconcileM.check (View.ofManifest manifest)
    let mut complete := true
    for c in ← ReconcileM.check (copiesFor b request) do
      match ← attempt (liftCluster (copyResource c b.view.namespace request)) with
      | .error e =>
        errors := errors ++ [e]
        complete := false
      | .ok true => pure ()
      | .ok false =>
        waiting := true
        complete := false
        let _ ← ReconcileM.recordEvent .warning "NotFound"
          (c.kind ++ " " ++ b.view.namespace.display ++ "/" ++ c.source.display ++ " not found")
    if complete && !synced.any (·.equiv target.ns) then synced := synced ++ [target.ns]
  let phase : BindInfoPhase :=
    if !errors.isEmpty then .failed
    else if waiting then .waiting
    else if targets.isEmpty then .init
    else .completed
  let namespaces ← ReconcileM.check (sortChecked Value.less? synced)
  let _ ← ReconcileM.setStatus
    (.obj [("phase", .str phase.word), ("requestNamespaces", .arr namespaces)])
  raiseGathered errors

end OperandLifecycle.Controllers

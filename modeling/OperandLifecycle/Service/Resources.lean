import OperandLifecycle.Service.Status
import OperandLifecycle.Event
import OperandLifecycle.Catalog.Examples
import OperandLifecycle.Resource.Request
import OperandLifecycle.Resource.BindInfo
/-!
# Resource requests

The operations that read resources without a cluster: the views of the four kinds, finding an
operand in a request, the example resources of an installation, event names and manifests.

A view is answered as an object of what the view reads: always the name, namespace, uid,
deletion mark and the `kind/namespace/name` text, then what the kind declares.
-/
namespace OperandLifecycle.Service

open Json Resource Catalog

/-- The kinds that have views, by name. -/
def viewKinds : List String := [registryKind, configKind, requestKind, bindInfoKind]

/-- An operator as a view answers it. -/
def operatorValue (o : Operator) : Value :=
  .obj [("name", o.name), ("namespace", o.declaredNamespace), ("sourceName", o.sourceName),
    ("sourceNamespace", o.sourceNamespace), ("packageName", o.packageName),
    ("channel", o.channel), ("description", o.description), ("installMode", o.installMode),
    ("scope", o.scope), ("isPrivate", .bool o.isPrivate)]

/-- An operand as a view answers it. -/
def operandValue (o : Operand) : Value := .obj [("name", o.name), ("bindings", o.bindings)]

/-- A request entry as a view answers it. -/
def requestEntryValue (r : RequestEntry) : Except Failure Value := do
  pure (.obj [("registry", r.registry), ("registryNamespace", r.registryNamespace),
    ("description", r.description), ("operands", .arr ((← r.operands).map operandValue))])

/-- What the view of a kind reads beyond the common members. -/
def kindMembers (kind : String) (v : View) : Except Failure Fields := do
  if kind == registryKind then
    let ops ← v.operators
    pure [("operators", .arr (ops.map operatorValue)), ("operatorsStatus", ← v.operatorsStatus)]
  else if kind == configKind then
    let services ← v.services
    pure [("services", .arr (services.map (fun s =>
      .obj [("name", s.name), ("state", s.state), ("spec", s.spec)])))]
  else if kind == requestKind then
    let entries ← (← v.requests).mapM requestEntryValue
    pure [("requests", .arr entries), ("members", ← v.members)]
  else
    let b ← BindInfo.ofView v
    pure [("operand", b.operand), ("registry", b.registry),
      ("registryNamespace", b.registryNamespace), ("description", b.description),
      ("bindings", b.bindings), ("publicBindings", .obj (← b.publicBindings))]

/-- The view of a manifest of a kind, as answered. -/
def viewValue (kind : String) (manifest : Value) : Except Failure Value := do
  let v ← View.ofManifest manifest
  let common : Fields := [("name", v.name), ("namespace", v.namespace), ("uid", v.uid),
    ("deleting", .bool v.deleting), ("str", .str (v.describe kind))]
  pure (.obj (common ++ (← kindMembers kind v)))

/-- A view kind named by a request. -/
def viewKind (v : Value) (missing : Value → Failure) : Except Failure String :=
  match v with
  | .str k => if viewKinds.contains k then .ok k else .error (missing v)
  | other => .error (missing other)

/-- An operand found in a request, as answered. -/
def foundOperandValue (found : Option (RequestEntry × Operand)) : Value :=
  match found with
  | some (r, o) => .obj [("registry", r.registry), ("registryNamespace", r.registryNamespace),
      ("operand", o.name), ("bindings", o.bindings)]
  | none => .null

/-- The operations on resources without a cluster. -/
def resourceHandlers : HandlerTable := [
  ("event_name", fun r => do
    let owner ← r.need "owner"
    let type ← Event.EventType.ofValue (← r.need "type")
    pure (.str (← Event.eventName owner type (← r.need "reason") (← r.need "message")))),
  ("make_event", fun r => do
    let owner ← r.need "owner"
    let type ← Event.EventType.ofValue (← r.need "type")
    Event.makeEvent owner type (← r.need "reason") (← r.need "message") (Stamp.ofSeconds 0)),
  ("parse_alm_examples", fun r => do pure (.arr (← examplesOf (← r.need "csv")))),
  ("matching_examples", fun r => do
    let examples ← (← r.need "examples").iterate
    let service ← Service.ofEntry (← r.need "service")
    let found ← matchingExamples examples service
    pure (.arr (found.map (fun m =>
      .obj [("example", m.resource), ("kind", .str m.kind), ("spec", m.spec)])))),
  ("match_kind", fun r => do
    let service ← Service.ofEntry (← r.need "service")
    match ← service.matchKind (r.opt "kind") with
    | some (k, spec) => pure (.arr [.str k, spec])
    | none => pure .null),
  ("operator_namespace", fun r => do
    let shared := (r.get? "cluster_operator_namespace").getD (.str "openshift-operators")
    let o ← Operator.ofEntry (← r.need "operator")
    pure (operatorNamespace shared o)),
  ("view", fun r => do
    let kind ← viewKind (← r.need "kind")
      (fun v => .raised .valueError ("unknown view kind " ++ v.display))
    viewValue kind (← r.need "manifest")),
  ("is_public_binding", fun r => do pure (.bool (← isPublicBinding (← r.need "key")))),
  ("find_operand", fun r => do
    let v ← View.ofManifest (← r.need "manifest")
    let found ← v.findOperand (← r.need "name") (r.opt "registry") (r.opt "registry_namespace")
    pure (foundOperandValue found)),
  ("view_extra", fun r => do
    let kind ← viewKind (← r.need "kind") (fun v => Failure.missingKey v.literal)
    let v ← View.ofManifest (← r.need "manifest")
    if kind == bindInfoKind then discard (BindInfo.ofView v)
    let key := (r.get? "key").getD (.str "kind")
    let got ← match v.manifest with
      | .obj fs => (Fields.lookup fs key).map (·.getD (r.opt "dflt"))
      | other => throw (notAnObject other "get")
    let base : Fields := [("repr", .str (v.describe kind)), ("get", got)]
    if kind == requestKind then
      let operand := r.opt "operand"
      let each ← (← v.requests).mapM (fun e => do
        pure ((← e.operandNamed operand).map operandValue |>.getD .null))
      pure (.obj (base ++ [("get_operand", .arr each)]))
    else pure (.obj base))]

end OperandLifecycle.Service

import OperandLifecycle.Service.Status
import OperandLifecycle.Service.Answer
import OperandLifecycle.Config.Validation
import OperandLifecycle.Config.Settings
import OperandLifecycle.Reconcile.Controller
import OperandLifecycle.Samples
/-!
# Library requests

The operations on the manager's own parts: validating settings, reading settings, the kinds
of failure, the controllers' fixed properties, checks that raise the manager's failures, and
the sample manifests.
-/
namespace OperandLifecycle.Service

open Json Config Reconcile

/-- The failure of a kind, as gathered over a reconcile, with a text. -/
def failureOfKind (kind : Value) (msg : String) : Except Failure Failure :=
  match kind with
  | .str "ConfigError" => .ok (.config msg)
  | .str "ClusterError" => .ok (.cluster msg)
  | .str "MergeError" => .ok (.merge msg)
  | .str "PreconditionError" => .ok (.precondition msg)
  | .str "PollTimeoutError" => .ok (.pollTimeout msg)
  | .str "ValueError" => .ok (.raised .valueError msg)
  | other => .error (Failure.missingKey other.literal)

/-- The check a name selects: it fails with the given kind of failure. -/
def checkOfName (which : Value) : Except Failure (String → Failure) :=
  match which with
  | .str "precondition" => .ok .precondition
  | .str "config" => .ok .config
  | .str "cluster" => .ok .cluster
  | other => .error (Failure.missingKey other.literal)

/-- The settings overrides a request carries in its `config` member. -/
def settingsArg (r : Request) : Except Failure Settings := do
  match r.opt "config" with
  | .null => pure Settings.initial
  | .obj fs => Settings.withOverrides fs
  | other => throw (notAnObject other "items")

/-- The fixed properties of a controller. -/
def controllerValue (c : Controller) : Value :=
  .obj [("api_version", .str Resource.apiVersion), ("kind", .str c.kind),
    ("finalizer", match c.finalizer with | some f => .str f | none => .null),
    ("has_finalizer", .bool c.hasFinalizer),
    ("stable_phases", .arr (c.stablePhases.map .str))]

/-- The properties of a controller of no kind: the kind-specific ones cannot be read. -/
def baseControllerValue : Value :=
  let missing (what : String) : Value :=
    .obj [("error", .str "NotImplementedError"),
      ("message", .str ("Cannot access abstractclassproperty " ++ what))]
  .obj [("group", missing "group"), ("version", missing "version"), ("kind", missing "kind"),
    ("api_version", missing "group"), ("finalizer", .obj [("value", .null)]),
    ("has_finalizer", .obj [("value", .bool false)])]

/-- Reads settings by the given keys; an unset key reads as `<absent>`. -/
def readSettings (s : Settings) (keys : List Value) : Except Failure Value := do
  let read ← keys.mapM (fun k => do
    if !k.hashable then throw (unhashable k)
    let key := k.keyText
    pure (key, (Fields.get? s.values key).getD (.str "<absent>")))
  pure (Value.ofFields read)

/-- Keyword arguments for a helper of the test kit, which must come as an object. -/
def keywordArgs (helper : String) (v : Value) : Except Failure Fields :=
  match v with
  | .obj fs => .ok fs
  | other => .error (.raised .typeError ("odlm.test_helpers.helpers." ++ helper ++
      "() argument after ** must be a mapping, not " ++ other.typeName))

/-- The operations on the manager's own parts. -/
def libraryHandlers : HandlerTable := [
  ("invalid_params", fun r => do
    let settings ← r.need "config"
    let rules ← objectArg (← r.need "rules") "items"
    pure (.arr ((← invalidParams settings rules).map .str))),
  ("check_rule", fun r => do pure (.bool (← checkRule (← r.need "rule") (r.opt "value")))),
  ("flatten_rules", fun r => do
    pure (.obj (flattenRules (← objectArg (← r.need "rules") "items")))),
  ("multi_error", fun r => do
    let errors ← (← r.need "errors").iterate
    let failures ← errors.mapM (fun e => do
      failureOfKind (← e.index "kind") (← e.fieldOr "message" (.str "")).display)
    pure ((Failure.gather failures).map failureValue |>.getD .null)),
  ("controller_info", fun r => do
    let name ← r.need "controller"
    match name with
    | .str n => match Controller.ofName? n with
      | some c => pure (controllerValue c)
      | none => throw (Failure.missingKey name.literal)
    | other => throw (Failure.missingKey other.literal)),
  ("controller_base", fun _ => pure baseControllerValue),
  ("assert", fun r => do
    let check ← checkOfName (← r.need "which")
    let condition ← r.need "condition"
    if condition.truthy then pure .null
    else throw (check ((r.get? "message").map Value.display |>.getD ""))),
  ("config_get", fun r => do
    match ← r.need "key" with
    | .str k => Settings.initial.attribute k
    | other => throw (.raised .typeError
        ("attribute name must be string, not '" ++ other.typeName ++ "'"))),
  ("library_config", fun r => do
    let overrides ← keywordArgs "library_config" (← r.need "overrides")
    let keys ← (← r.need "read").iterate
    let inside := overrides.foldl (fun s p => s.set p.1 p.2) Settings.initial
    pure (.obj [("inside", ← readSettings inside keys), ("after", ← readSettings Settings.initial keys)])),
  ("fixture", fun r => do
    let name ← r.need "name"
    let build ← match name with
      | .str n => match Samples.builders.lookup n with
        | some b => pure b
        | none => throw (Failure.missingKey name.literal)
      | other => throw (Failure.missingKey other.literal)
    build (← keywordArgs name.display (← r.need "args"))),
  ("openshift_setup", fun r => do
    discard (settingsArg r)
    throw (.raised .configException "Invalid kube-config file. No configuration found."))]

end OperandLifecycle.Service

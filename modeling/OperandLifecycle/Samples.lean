import OperandLifecycle.Resource.Basic
import OperandLifecycle.Config.Validation
import OperandLifecycle.Json.Print
/-!
# Sample manifests

Builders of the manifests the manager's examples and checks start from: a registry declaring
the `etcd` and `jenkins` operators, their configuration, a request for both, binding
information for `jenkins`, and the subscription and installation of an installed operator.
Every sample object carries the same uid.

Each builder takes named arguments (`Arguments`) with defaults; an unknown name or a missing
required argument is refused as a call with bad arguments is.
-/
namespace OperandLifecycle.Samples

open Json Resource

/-- The uid every sample object carries. -/
def sampleUid : String := "12345678-1234-1234-1234-123456789012"

/-- The namespace of sample requests. -/
def requestNamespace : String := "test"

/-- The name of the sample registry and configuration. -/
def registryName : String := "common-service"

/-- The namespace of the sample registry and configuration. -/
def registryNamespace : String := "ibm-common-services"

/-- The namespace of the sample `etcd` operator. -/
def etcdNamespace : String := "etcd-operator"

/-- The namespace of the sample `jenkins` operator. -/
def jenkinsNamespace : String := "jenkins-operator"

/-- The catalog source of the sample operators. -/
def catalogSource : String := "community-operators"

/-- The namespace of the catalog source. -/
def catalogNamespace : String := "openshift-marketplace"

/-- The named arguments of a builder call. -/
abbrev Arguments := Fields

/-- The failure of a builder call with bad arguments. -/
def badCall (builder : String) (what : String) : Failure :=
  .raised .typeError (builder ++ "() " ++ what)

/-- The names of missing arguments as a call failure lists them. -/
def listNames : List String → String
  | [] => ""
  | [a] => "'" ++ a ++ "'"
  | [a, b] => "'" ++ a ++ "' and '" ++ b ++ "'"
  | names => ", ".intercalate ((names.dropLast).map (fun n => "'" ++ n ++ "'")) ++
      ", and '" ++ names.getLastD "" ++ "'"

/-- Checks the arguments of a call against the builder's parameters: every argument must name
a parameter unless the builder takes any name (`open`), and every required parameter must be
given. -/
def checkArguments (builder : String) (params required : List String) (isOpen : Bool)
    (args : Arguments) : Except Failure Unit := do
  if !isOpen then
    match args.find? (fun p => !params.contains p.1) with
    | some (k, _) => throw (badCall builder ("got an unexpected keyword argument '" ++ k ++ "'"))
    | none => pure ()
  let missing := required.filter (fun k => !Fields.contains args k)
  match missing with
  | [] => pure ()
  | [k] => throw (badCall builder ("missing 1 required positional argument: '" ++ k ++ "'"))
  | ks => throw (badCall builder ("missing " ++ toString ks.length ++
      " required positional arguments: " ++ listNames ks))

/-- An argument or its default. -/
def arg (args : Arguments) (k : String) (dflt : Value) : Value := (Fields.get? args k).getD dflt

/-- A manifest of the given kind with the sample uid. The extra arguments become members of
the manifest; metadata given among them keeps its own members first. -/
def manifest (kind apiVersion name ns spec status : Value) (extra : Fields) :
    Except Failure Value := do
  let cr := Fields.insert extra "kind" ((Fields.get? extra "kind").getD kind)
  let cr := Fields.insert cr "apiVersion" ((Fields.get? cr "apiVersion").getD apiVersion)
  let md ← match Fields.get? cr "metadata" with
    | none => pure []
    | some (.obj fs) => pure fs
    | some other => throw (notAnObject other "setdefault")
  let keep (fs : Fields) (k : String) (v : Value) : Fields :=
    if Fields.contains fs k then fs else fs ++ [(k, v)]
  let md := keep (keep (keep md "name" name) "namespace" ns) "uid" (.str sampleUid)
  let cr := Fields.insert cr "metadata" (.obj md)
  let cr := Fields.insert cr "spec" (spec.or (.obj []))
  let cr := if status.isNull then cr else Fields.insert cr "status" status
  pure (.obj cr)

/-- The declaration of the sample `etcd` operator. -/
def etcdOperatorEntry : Fields :=
  [("name", .str "etcd"), ("namespace", .str etcdNamespace), ("sourceName", .str catalogSource),
   ("sourceNamespace", .str catalogNamespace), ("packageName", .str "etcd"),
   ("channel", .str "singlenamespace-alpha"), ("scope", .str "public")]

/-- The declaration of the sample `jenkins` operator. -/
def jenkinsOperatorEntry : Fields :=
  [("name", .str "jenkins"), ("namespace", .str jenkinsNamespace),
   ("sourceName", .str catalogSource), ("sourceNamespace", .str catalogNamespace),
   ("packageName", .str "jenkins-operator"), ("channel", .str "alpha"), ("scope", .str "public")]

/-- An operator declaration with the given members changed. -/
def withMembers (base : Fields) (args : Arguments) : Value :=
  .obj (args.foldl (fun acc p => Fields.insert acc p.1 p.2) base)

/-- The example resources of the sample `etcd` installation. -/
def etcdExamples : Value := .arr [
  .obj [("apiVersion", .str "etcd.database.coreos.com/v1beta2"), ("kind", .str "EtcdCluster"),
    ("metadata", .obj [("name", .str "example")]),
    ("spec", .obj [("size", .int 3), ("version", .str "3.2.13")])],
  .obj [("apiVersion", .str "etcd.database.coreos.com/v1beta2"), ("kind", .str "EtcdBackup"),
    ("metadata", .obj [("name", .str "example-etcd-cluster-backup")]),
    ("spec", .obj [("storageType", .str "S3")])]]

/-- The example resources of the sample `jenkins` installation. -/
def jenkinsExamples : Value := .arr [
  .obj [("apiVersion", .str "jenkins.io/v1alpha2"), ("kind", .str "Jenkins"),
    ("metadata", .obj [("name", .str "example")]),
    ("spec", .obj [
      ("master", .obj [("containers", .arr [.obj [("name", .str "jenkins-master")]])]),
      ("service", .obj [("port", .int 8080), ("type", .str "ClusterIP")])])]]

/-- A registry. Given operator names as a list, the status reports each as ready with no
requests; given a map, the status reports it as it is. -/
def registry (args : Arguments) : Except Failure Value := do
  checkArguments "setup_registry" ["operators", "operators_status", "name", "namespace"] [] false args
  let operators := arg args "operators" .null
  let operators := if operators.isNull then
      Value.arr [.obj etcdOperatorEntry, .obj jenkinsOperatorEntry]
    else operators
  let status ← match arg args "operators_status" .null with
    | .null => pure Value.null
    | .arr names => do
      let entries ← names.mapM (fun n => do
        if !n.hashable then throw (unhashable n)
        pure (n.keyText, Value.obj [("phase", .str "Ready"), ("reconcileRequests", .arr [])]))
      pure (.obj [("phase", .str "Ready"), ("operatorsStatus", Value.ofFields entries)])
    | other => pure (.obj [("phase", .str "Ready"), ("operatorsStatus", other)])
  manifest (.str registryKind) (.str apiVersion) (arg args "name" (.str registryName))
    (arg args "namespace" (.str registryNamespace)) (.obj [("operators", operators)]) status []

/-- A configuration; without services, one for each sample operator. -/
def config (args : Arguments) : Except Failure Value := do
  checkArguments "setup_config"
    ["services", "name", "namespace", "etcd_size", "jenkins_port"] [] false args
  let services := arg args "services" .null
  let services := if services.isNull then
      Value.arr [
        .obj [("name", .str "etcd"),
          ("spec", .obj [("etcdCluster", .obj [("size", arg args "etcd_size" (.int 1))])])],
        .obj [("name", .str "jenkins"),
          ("spec", .obj [("jenkins", .obj [("service",
            .obj [("port", arg args "jenkins_port" (.int 8081))])])])]]
    else services
  manifest (.str configKind) (.str apiVersion) (arg args "name" (.str registryName))
    (arg args "namespace" (.str registryNamespace)) (.obj [("services", services)]) .null []

/-- A request; without entries, one entry for the given operands of the sample registry. -/
def request (args : Arguments) : Except Failure Value := do
  checkArguments "setup_request" ["operands", "name", "namespace", "registry",
    "registry_namespace", "bindings", "requests"] [] false args
  let requests ← match arg args "requests" .null with
    | .null => do
      let operands ← (arg args "operands" (.arr [.str "etcd", .str "jenkins"])).iterate
      let bindings := arg args "bindings" .null
      let entries ← operands.mapM (fun o => do
        let named ← if bindings.truthy then Value.memberOf o bindings else pure false
        if named then pure (Value.obj [("name", o), ("bindings", ← bindings.subscript o)])
        else pure (Value.obj [("name", o)]))
      let entry : Fields := [("registry", arg args "registry" (.str registryName)),
        ("operands", .arr entries)]
      let ns := arg args "registry_namespace" (.str registryNamespace)
      pure (Value.arr [.obj (if ns.isNull then entry else entry ++ [("registryNamespace", ns)])])
    | given => pure given
  manifest (.str requestKind) (.str apiVersion) (arg args "name" (.str "test-request"))
    (arg args "namespace" (.str requestNamespace)) (.obj [("requests", requests)]) .null []

/-- Binding information for an operand; without bindings, the public secret and config map of
the sample `jenkins` operator. -/
def bindInfo (args : Arguments) : Except Failure Value := do
  checkArguments "setup_bindinfo" ["operand", "name", "namespace", "registry",
    "registry_namespace", "bindings"] [] false args
  let bindings := arg args "bindings" .null
  let bindings := if bindings.isNull then
      Value.obj [("public", .obj [("secret", .str "jenkins-operator-credentials-example"),
        ("configmap", .str "jenkins-operator-init-configuration-example")])]
    else bindings
  manifest (.str bindInfoKind) (.str apiVersion) (arg args "name" (.str "jenkins-public-bindinfo"))
    (arg args "namespace" (.str jenkinsNamespace))
    (.obj [("operand", arg args "operand" (.str "jenkins")),
      ("registry", arg args "registry" (.str registryName)),
      ("registryNamespace", arg args "registry_namespace" (.str registryNamespace)),
      ("bindings", bindings)]) .null []

/-- The subscription of an operator, resolved to an installation when one is named. -/
def subscription (args : Arguments) : Except Failure Value := do
  checkArguments "setup_subscription" ["name", "namespace", "csv_name", "package_name", "installed"]
    ["name", "namespace"] false args
  let name := arg args "name" .null
  let csv := arg args "csv_name" .null
  let status : Fields :=
    if csv.truthy then
      [("currentCSV", csv)] ++ (if (arg args "installed" (.bool true)).truthy then [("installedCSV", csv)] else [])
    else []
  manifest (.str subscriptionKind) (.str lifecycleApiVersion) name (arg args "namespace" .null)
    (.obj [("name", (arg args "package_name" .null).or name), ("source", .str catalogSource),
      ("sourceNamespace", .str catalogNamespace)])
    (.obj status) [("metadata", .obj [("labels", .obj [(controlLabel, .str "true")])])]

/-- An installation carrying example resources, written as JSON text unless given as text. -/
def installation (args : Arguments) : Except Failure Value := do
  checkArguments "setup_csv" ["name", "namespace", "examples", "phase", "raw_examples"]
    ["name", "namespace"] false args
  let raw := arg args "raw_examples" .null
  let examples := arg args "examples" .null
  let annotations : Fields :=
    if !raw.isNull then [(examplesAnnotationKey, raw)]
    else if !examples.isNull then [(examplesAnnotationKey, .str (examples.write Layout.plain))]
    else []
  manifest (.str installationKind) (.str lifecycleApiVersion) (arg args "name" .null)
    (arg args "namespace" .null) .null (.obj [("phase", arg args "phase" (.str "Succeeded"))])
    [("metadata", .obj [("annotations", .obj annotations)])]

/-- The subscription and installation of an installed operator. -/
def installedOperator (args : Arguments) : Except Failure Value := do
  checkArguments "installed_operator" ["name", "namespace", "examples", "csv_name", "phase",
    "package_name"] ["name", "namespace", "examples"] false args
  let name := arg args "name" .null
  let csv := (arg args "csv_name" .null).or (.str (name.display ++ ".v0.0.1"))
  let sub ← subscription [("name", name), ("namespace", arg args "namespace" .null),
    ("csv_name", csv), ("package_name", arg args "package_name" .null)]
  let inst ← installation [("name", csv), ("namespace", arg args "namespace" .null),
    ("examples", arg args "examples" .null), ("phase", arg args "phase" (.str "Succeeded"))]
  pure (.arr [sub, inst])

/-- The sample registry and configuration, with the sample operators installed unless asked
otherwise. -/
def commonServices (args : Arguments) : Except Failure Value := do
  checkArguments "common_services" ["etcd_size", "registry_status", "with_operators"] [] false args
  let reg ← registry [("operators_status",
    arg args "registry_status" (.arr [.str "etcd", .str "jenkins"]))]
  let conf ← config [("etcd_size", arg args "etcd_size" (.int 1))]
  if (arg args "with_operators" (.bool true)).truthy then
    let etcd ← installedOperator [("name", .str "etcd"), ("namespace", .str etcdNamespace),
      ("examples", etcdExamples)]
    let jenkins ← installedOperator [("name", .str "jenkins"), ("namespace", .str jenkinsNamespace),
      ("examples", jenkinsExamples), ("package_name", .str "jenkins-operator")]
    pure (.arr ([reg, conf] ++ (etcd.items?.getD []) ++ (jenkins.items?.getD [])))
  else pure (.arr [reg, conf])

/-- A manifest of any kind with the sample defaults. -/
def resource (args : Arguments) : Except Failure Value := do
  let params := ["kind", "api_version", "name", "namespace", "spec", "status"]
  let extra := args.filter (fun p => !params.contains p.1)
  manifest (arg args "kind" (.str requestKind)) (arg args "api_version" (.str apiVersion))
    (arg args "name" (.str "test-instance")) (arg args "namespace" (.str requestNamespace))
    (arg args "spec" .null) (arg args "status" .null) extra

/-- The builders by name. -/
def builders : List (String × (Arguments → Except Failure Value)) := [
  ("setup_cr", resource),
  ("etcd_operator", fun args => pure (withMembers etcdOperatorEntry args)),
  ("jenkins_operator", fun args => pure (withMembers jenkinsOperatorEntry args)),
  ("setup_registry", registry),
  ("setup_config", config),
  ("setup_request", request),
  ("setup_bindinfo", bindInfo),
  ("setup_subscription", subscription),
  ("setup_csv", installation),
  ("installed_operator", installedOperator),
  ("common_services", commonServices)]

end OperandLifecycle.Samples

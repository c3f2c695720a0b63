import OperandLifecycle.Json.Path
import OperandLifecycle.Json.Display
/-!
# Resources

The manager works on four kinds of its own (registries, configurations, requests and binding
information), all in one API group, and reads two kinds of the operator lifecycle manager
(subscriptions and installations). This module holds their names and the labels and
annotations the manager reads and writes, and `View`, the common view of a manifest.

A view is built from a manifest that has a name; it reads the metadata, the spec and the
status, a missing or false section reading as the empty object.
-/
namespace OperandLifecycle.Resource

open Json

/-- The API group of the manager's own kinds. -/
def group : String := "operator.ibm.com"

/-- The API version of the manager's own kinds. -/
def version : String := "v1alpha1"

/-- The full API version of the manager's own kinds. -/
def apiVersion : String := group ++ "/" ++ version

/-- The kind of registries. -/
def registryKind : String := "OperandRegistry"

/-- The kind of configurations. -/
def configKind : String := "OperandConfig"

/-- The kind of requests. -/
def requestKind : String := "OperandRequest"

/-- The kind of binding information. -/
def bindInfoKind : String := "OperandBindInfo"

/-- The API version of the operator lifecycle manager's kinds. -/
def lifecycleApiVersion : String := "operators.coreos.com/v1alpha1"

/-- The kind of subscriptions. -/
def subscriptionKind : String := "Subscription"

/-- The kind of installations (cluster service versions). -/
def installationKind : String := "ClusterServiceVersion"

/-- The annotation of an installation that holds its example resources. -/
def examplesAnnotationKey : String := "alm-examples"

/-- The label on every object created for a request. -/
def controlLabel : String := group ++ "/opreq-control"

/-- The label naming the operand an object was created for. -/
def operandLabel : String := group ++ "/operand"

/-- The scope key of bindings that are shared with other namespaces. -/
def publicScope : String := "public"

/-- The scope of an operator that no other namespace may request. -/
def privateScope : String := "private"

/-- The install mode of an operator installed in its own namespace. -/
def namespaceMode : String := "namespace"

/-- The install mode of an operator installed in the shared operator namespace. -/
def clusterMode : String := "cluster"

/-- The annotation that pauses reconciling an object. -/
def pauseAnnotationKey : String := group ++ "/pause-execution"

/-- The annotation that sets the default log level of a reconcile. -/
def logLevelAnnotationKey : String := group ++ "/log-default-level"

/-- The annotation that sets the log filters of a reconcile. -/
def logFiltersAnnotationKey : String := group ++ "/log-filters"

/-- The annotation that asks for thread ids in log lines. -/
def logThreadIdAnnotationKey : String := group ++ "/log-thread-id"

/-- The annotation that asks for JSON log lines. -/
def logJsonAnnotationKey : String := group ++ "/log-json"

/-- A manifest with its metadata. -/
structure View where
  /-- The whole manifest, an object. -/
  manifest : Value
  /-- The metadata section, an object with a true name. -/
  metadata : Value

/-- The view of a manifest; the manifest must have a name. -/
def View.ofManifest (m : Value) : Except Failure View := do
  let md := (← m.field "metadata").orEmpty
  let name ← md.field "name"
  if !name.truthy then throw (Failure.assertion "No name found")
  pure ⟨m, md⟩

/-- The name of the object. -/
def View.name (v : View) : Value := v.metadata.getD "name"

/-- The namespace of the object, `null` for a cluster-wide object. -/
def View.namespace (v : View) : Value := v.metadata.getD "namespace"

/-- The uid of the object. -/
def View.uid (v : View) : Value := v.metadata.getD "uid"

/-- The spec section, the empty object when false. -/
def View.spec (v : View) : Value := (v.manifest.getD "spec").orEmpty

/-- The status section, the empty object when false. -/
def View.status (v : View) : Value := (v.manifest.getD "status").orEmpty

/-- Whether the object is marked for deletion. -/
def View.deleting (v : View) : Bool := (v.metadata.getD "deletionTimestamp").truthy

/-- The object named as `kind/namespace/name`. -/
def View.describe (v : View) (kind : String) : String :=
  kind ++ "/" ++ v.namespace.display ++ "/" ++ v.name.display

end OperandLifecycle.Resource

import OperandLifecycle.Resource.Registry
import OperandLifecycle.Resource.Config
import OperandLifecycle.Json.Parse
/-!
# Example resources of an installation

An operator's installation carries example resources as a JSON array in its `alm-examples`
annotation. `examplesOf` reads them: a missing or empty annotation holds none, text that is no
JSON is malformed, and anything but an array of objects with a true `kind` is refused; both
faults are `Failure.merge` naming the installation. A service configures the examples whose
kind it names (`matchingExamples`).

An operator installed in `cluster` mode lives in the shared operator namespace of the
settings, any other in the namespace it declares (`operatorNamespace`).
-/
namespace OperandLifecycle.Catalog

open Json Resource

/-- The installation named as `namespace/name` in failure texts. -/
def installationName (metadata : Value) : String :=
  (metadata.getD "namespace").display ++ "/" ++ (metadata.getD "name").display

/-- Whether a value is an example resource: an object with a true kind. -/
def isExample (v : Value) : Bool :=
  match v with
  | .obj _ => (v.getD "kind").truthy
  | _ => false

/-- The example resources of an installation. -/
def examplesOf (installation : Value) : Except Failure (List Value) := do
  let metadata ← installation.fieldOr "metadata" (.obj [])
  let annotations := (← metadata.field "annotations").orEmpty
  let raw ← annotations.field examplesAnnotationKey
  if !raw.truthy then return []
  let text ← match raw with
    | .str s => pure s
    | other => throw (.raised .typeError
        ("the JSON object must be str, bytes or bytearray, not " ++ other.typeName))
  match Value.parse text with
  | .error e =>
    throw (.merge ("Malformed " ++ examplesAnnotationKey ++ " in " ++ installationName metadata ++
      ": " ++ e.message text))
  | .ok (.arr xs) =>
    if xs.all isExample then pure xs
    else throw (.merge (examplesAnnotationKey ++ " in " ++ installationName metadata ++
      " must be a JSON array of resources"))
  | .ok _ =>
    throw (.merge (examplesAnnotationKey ++ " in " ++ installationName metadata ++
      " must be a JSON array of resources"))

/-- An example the service configures: the example, the matching key of the service's spec,
and the configuration under it. -/
structure ExampleMatch where
  resource : Value
  kind : String
  spec : Value

/-- The examples whose kind the service configures, in order. -/
def matchingExamples (examples : List Value) (service : Service) :
    Except Failure (List ExampleMatch) := do
  let found ← examples.mapM (fun e => do
    match ← service.matchKind (← e.index "kind") with
    | some (k, spec) => pure (some ⟨e, k, spec⟩)
    | none => pure none)
  pure found.reduceOption

/-- The namespace an operator is installed into: the shared namespace in `cluster` mode, its
declared namespace otherwise. -/
def operatorNamespace (sharedNamespace : Value) (o : Operator) : Value :=
  if o.installMode.equiv (.str clusterMode) then sharedNamespace else o.declaredNamespace

end OperandLifecycle.Catalog

import OperandLifecycle.Resource.Basic
/-!
# Binding information

Binding information names an operand, the registry it comes from and its bindings: scope keys
mapping to the names of a secret and a config map. Bindings under the key `public`, or a key
starting with `public-`, are copied into the namespace of every request that asks for the
operand (`isPublicBinding`).
-/
namespace OperandLifecycle.Resource

open Json

/-- Binding information, read from its view. -/
structure BindInfo where
  view : View
  operand : Value
  registry : Value
  description : Value

/-- The binding information of a view. -/
def BindInfo.ofView (v : View) : Except Failure BindInfo := do
  pure {
    view := v
    operand := ← v.spec.field "operand"
    registry := ← v.spec.field "registry"
    description := ← v.spec.fieldOr "description" (.str "") }

/-- The namespace of the registry: the one given, else that of the binding information. -/
def BindInfo.registryNamespace (b : BindInfo) : Value :=
  (b.view.spec.getD "registryNamespace").or b.view.namespace

/-- The bindings by scope key, the empty object when false. -/
def BindInfo.bindings (b : BindInfo) : Value := (b.view.spec.getD "bindings").orEmpty

/-- Whether a scope key is public: `public` itself or `public-` followed by anything. -/
def isPublicBinding (key : Value) : Except Failure Bool :=
  match key with
  | .str k => .ok (k == publicScope || k.startsWith (publicScope ++ "-"))
  | other => .error (notAnObject other "startswith")

/-- The bindings under public scope keys, in order. -/
def BindInfo.publicBindings (b : BindInfo) : Except Failure Fields := do
  match b.bindings with
  | .obj fs => fs.filterM (fun p => isPublicBinding (.str p.1))
  | other => throw (notAnObject other "items")

end OperandLifecycle.Resource

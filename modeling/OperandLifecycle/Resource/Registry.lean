import OperandLifecycle.Resource.Basic
/-!
# Registries

A registry declares operators: each has a name, the namespace it is installed into, where its
package comes from, an install mode (`namespace` unless given) and a scope (`private` unless
given). A private operator may only be requested from the registry's own namespace. The
registry's status maps each operator name to its published phase and the requests that
reference it.
-/
namespace OperandLifecycle.Resource

open Json

/-- One operator declared by a registry. -/
structure Operator where
  /-- The declaration, an object. -/
  entry : Value
  name : Value
  /-- The namespace declared for the operator. -/
  declaredNamespace : Value
  sourceName : Value
  sourceNamespace : Value
  packageName : Value
  channel : Value
  description : Value

/-- The operator of a declaration. -/
def Operator.ofEntry (e : Value) : Except Failure Operator := do
  pure {
    entry := e
    name := ← e.field "name"
    declaredNamespace := ← e.field "namespace"
    sourceName := ← e.field "sourceName"
    sourceNamespace := ← e.field "sourceNamespace"
    packageName := ← e.field "packageName"
    channel := ← e.field "channel"
    description := ← e.fieldOr "description" (.str "") }

/-- The install mode of an operator, `namespace` unless given. -/
def Operator.installMode (o : Operator) : Value := (o.entry.getD "installMode").or (.str namespaceMode)

/-- The scope of an operator, `private` unless given. -/
def Operator.scope (o : Operator) : Value := (o.entry.getD "scope").or (.str privateScope)

/-- Whether other namespaces may not request the operator: its scope is not `public`. -/
def Operator.isPrivate (o : Operator) : Bool := !o.scope.equiv (.str "public")

/-- The operators a registry declares, in order. -/
def View.operators (v : View) : Except Failure (List Operator) := do
  let entries ← (← v.spec.field "operators").itemsOrEmpty
  entries.mapM Operator.ofEntry

/-- The first operator of the given name. -/
def View.operatorNamed (v : View) (name : Value) : Except Failure (Option Operator) := do
  pure ((← v.operators).find? (fun o => o.name.equiv name))

/-- The per-operator status map of a registry, the empty object when false. -/
def View.operatorsStatus (v : View) : Except Failure Value := do
  pure (← v.status.field "operatorsStatus").orEmpty

end OperandLifecycle.Resource

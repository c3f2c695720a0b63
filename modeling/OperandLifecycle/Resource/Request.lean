import OperandLifecycle.Resource.Basic
/-!
# Requests

A request asks for operands through registries: it lists entries, each naming a registry (in
the request's own namespace unless another is given) and the operands wanted from it, each
operand with optional bindings. An operand may be named by several entries.

The operands of an entry are read when the walk reaches the entry, so a walk that stops early
(`View.findOperand`) never reads the entries after the one it stops at.
-/
namespace OperandLifecycle.Resource

open Json

/-- One operand named in a request entry. -/
structure Operand where
  /-- The operand entry, an object. -/
  entry : Value
  name : Value

/-- The operand of an entry. -/
def Operand.ofEntry (e : Value) : Except Failure Operand := do
  pure { entry := e, name := ← e.field "name" }

/-- The bindings of an operand, the empty object when false. -/
def Operand.bindings (o : Operand) : Value := (o.entry.getD "bindings").orEmpty

/-- One entry of a request: a registry and the operands wanted from it. -/
structure RequestEntry where
  /-- The entry, an object. -/
  entry : Value
  registry : Value
  description : Value
  /-- The namespace of the request, where the registry is unless the entry says otherwise. -/
  requestNamespace : Value

/-- The request entry of an object, in a request of the given namespace. -/
def RequestEntry.ofEntry (requestNamespace : Value) (e : Value) : Except Failure RequestEntry := do
  pure {
    entry := e
    registry := ← e.field "registry"
    description := ← e.fieldOr "description" (.str "")
    requestNamespace := requestNamespace }

/-- The namespace of the entry's registry: the one given, else the request's. -/
def RequestEntry.registryNamespace (r : RequestEntry) : Value :=
  (r.entry.getD "registryNamespace").or r.requestNamespace

/-- The operands of an entry, in order. -/
def RequestEntry.operands (r : RequestEntry) : Except Failure (List Operand) := do
  let entries ← (← r.entry.field "operands").itemsOrEmpty
  entries.mapM Operand.ofEntry

/-- The first operand of the entry with the given name. -/
def RequestEntry.operandNamed (r : RequestEntry) (name : Value) : Except Failure (Option Operand) := do
  pure ((← r.operands).find? (fun o => o.name.equiv name))

/-- The entries of a request, in order. -/
def View.requests (v : View) : Except Failure (List RequestEntry) := do
  let entries ← (← v.spec.field "requests").itemsOrEmpty
  entries.mapM (RequestEntry.ofEntry v.namespace)

/-- The first operand, walking the entries in order, that satisfies `p`, with its entry. -/
def firstOperand (p : RequestEntry → Operand → Bool) :
    List RequestEntry → Except Failure (Option (RequestEntry × Operand))
  | [] => pure none
  | r :: rest => do
    match (← r.operands).find? (p r) with
    | some o => pure (some (r, o))
    | none => firstOperand p rest

/-- Every entry with each of its operands, in order. -/
def operandPairs : List RequestEntry → Except Failure (List (RequestEntry × Operand))
  | [] => pure []
  | r :: rest => do
    let here := (← r.operands).map (fun o => (r, o))
    pure (here ++ (← operandPairs rest))

/-- Whether an entry and operand answer a search for an operand name, optionally through a
registry of the given name and namespace. -/
def operandFits (name registry registryNamespace : Value) (r : RequestEntry) (o : Operand) : Bool :=
  o.name.equiv name
    && (registry.isNull || r.registry.equiv registry)
    && (registryNamespace.isNull || r.registryNamespace.equiv registryNamespace)

/-- The first entry naming the operand, optionally restricted to a registry. -/
def View.findOperand (v : View) (name registry registryNamespace : Value) :
    Except Failure (Option (RequestEntry × Operand)) := do
  firstOperand (operandFits name registry registryNamespace) (← v.requests)

/-- The members recorded in a request's status, the empty list when false. -/
def View.members (v : View) : Except Failure Value := do
  pure ((← v.status.field "members").or (.arr []))

end OperandLifecycle.Resource

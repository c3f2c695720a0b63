import OperandLifecycle.Resource.Basic
import OperandLifecycle.Text.Case
/-!
# Configurations

A configuration lists services, one per operator by name. A service's spec maps resource kinds
to the configuration for resources of that kind. Kinds are matched without regard to case,
as the configuration keys are usually written in lower camel case: `matchKind` finds the
first key whose lower-case form equals the kind's.
-/
namespace OperandLifecycle.Resource

open Json

/-- One service entry of a configuration. -/
structure Service where
  /-- The entry, an object. -/
  entry : Value
  name : Value
  state : Value

/-- The service of an entry. -/
def Service.ofEntry (e : Value) : Except Failure Service := do
  pure { entry := e, name := ← e.field "name", state := ← e.field "state" }

/-- The per-kind configuration of a service, the empty object when false. -/
def Service.spec (s : Service) : Value := (s.entry.getD "spec").orEmpty

/-- The lower-case form of a kind to match; only a text has one. -/
def kindKey (kind : Value) : Except Failure String :=
  match kind.or (.str "") with
  | .str k => .ok (Text.toLower k)
  | other => .error (notAnObject other "lower")

/-- The first key of the service's spec that names the kind, with its configuration. -/
def Service.matchKind (s : Service) (kind : Value) : Except Failure (Option (String × Value)) := do
  match s.spec with
  | .obj fs =>
    match fs with
    | [] => pure none
    | _ =>
      let k ← kindKey kind
      pure (fs.find? (fun p => Text.toLower p.1 == k))
  | other => throw (notAnObject other "items")

/-- The services a configuration lists, in order. -/
def View.services (v : View) : Except Failure (List Service) := do
  let entries ← (← v.spec.field "services").itemsOrEmpty
  entries.mapM Service.ofEntry

/-- The first service of the given name. -/
def View.serviceNamed (v : View) (name : Value) : Except Failure (Option Service) := do
  pure ((← v.services).find? (fun s => s.name.equiv name))

end OperandLifecycle.Resource

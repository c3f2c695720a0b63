import OperandLifecycle.Resource.Basic
import OperandLifecycle.Text.Case
import OperandLifecycle.Status.Phase
/-!
# Controllers

A controller reconciles the objects of one kind. There is one per kind of the manager
(`Controller`). Only the request controller cleans up before its objects go: it holds a
finalizer, `finalizers.<kind in lower case>.<group>`, on every request it reconciles.

Between reconciles a controller waits for changes while its object's phase is stable, and
asks to be run again soon otherwise (`Controller.stablePhases`).
-/
namespace OperandLifecycle.Reconcile

open Json Resource

/-- The controllers, one per kind. -/
inductive Controller where
  | registry
  | config
  | request
  | bindInfo
  deriving DecidableEq, Repr

/-- The controller a name selects. -/
def Controller.ofName? : String → Option Controller
  | "registry" => some .registry
  | "config" => some .config
  | "request" => some .request
  | "bindinfo" => some .bindInfo
  | _ => none

/-- The kind a controller reconciles. -/
def Controller.kind : Controller → String
  | .registry => registryKind
  | .config => configKind
  | .request => requestKind
  | .bindInfo => bindInfoKind

/-- Whether the controller cleans up before its objects are removed. -/
def Controller.hasFinalizer : Controller → Bool
  | .request => true
  | _ => false

/-- The finalizer a controller holds on its objects. -/
def Controller.finalizer (c : Controller) : Option String :=
  if c.hasFinalizer then some ("finalizers." ++ Text.toLower c.kind ++ "." ++ group) else none

/-- The phases in which a controller waits for changes rather than running again. -/
def Controller.stablePhases : Controller → List String
  | .bindInfo => [Status.BindInfoPhase.init.word, Status.BindInfoPhase.completed.word]
  | _ => [Status.ServicePhase.init.word, Status.ServicePhase.running.word]

end OperandLifecycle.Reconcile

/-!
# Failures

Every operation of the manager either answers or stops with a `Failure`. The manager's own
failures say whether a later reconcile may succeed: a `precondition` that is not met yet or a
deletion that did not finish in time (`pollTimeout`) resolve by themselves, while a bad
configuration, an unexpected cluster answer or a malformed merge document do not (they are
fatal). Several failures gathered over one reconcile form one `multi` failure, fatal when any
part is.

Failures that come from outside the manager's own checks (a missing key, a value of the wrong
kind, a failing client) are `raised` with their `Fault` kind, and always count as fatal.
-/
namespace OperandLifecycle

/-- The kinds of failure that do not come from the manager's own checks, as they are reported. -/
inductive Fault where
  | typeError
  | valueError
  | keyError
  | attributeError
  | assertionError
  | runtimeError
  | lookupError
  | notImplementedError
  | configException
  | jsonDecodeError
  | overflowError
  | indexError
  /-- An error answered by the cluster's API, by its class name. -/
  | apiError (name : String)
  deriving DecidableEq, Repr, Inhabited

/-- The name a fault is reported by. -/
def Fault.name : Fault → String
  | .typeError => "TypeError"
  | .valueError => "ValueError"
  | .keyError => "KeyError"
  | .attributeError => "AttributeError"
  | .assertionError => "AssertionError"
  | .runtimeError => "RuntimeError"
  | .lookupError => "LookupError"
  | .notImplementedError => "NotImplementedError"
  | .configException => "ConfigException"
  | .jsonDecodeError => "JSONDecodeError"
  | .overflowError => "OverflowError"
  | .indexError => "IndexError"
  | .apiError n => n

/-- Why an operation stopped. -/
inductive Failure where
  /-- A user-provided configuration is invalid. Fatal. -/
  | config (msg : String)
  /-- A cluster operation failed unexpectedly. Fatal. -/
  | cluster (msg : String)
  /-- A merge document is malformed. Fatal. -/
  | merge (msg : String)
  /-- A dependency has not reached the needed state yet. Expected to resolve. -/
  | precondition (msg : String)
  /-- A deleted object was not seen gone in time. Expected to resolve. -/
  | pollTimeout (msg : String)
  /-- The failures gathered over one reconcile, at least two. -/
  | multi (errors : List Failure)
  /-- A failure from outside the manager's checks. -/
  | raised (kind : Fault) (msg : String)
  deriving Inhabited, Repr

namespace Failure

mutual
/-- The text of a failure; a gathered failure joins the texts of its parts with "; ". -/
def message : Failure → String
  | .config m | .cluster m | .merge m | .precondition m | .pollTimeout m | .raised _ m => m
  | .multi es => messages es

/-- The texts of several failures joined with "; ". -/
def messages : List Failure → String
  | [] => ""
  | [e] => e.message
  | e :: es => e.message ++ "; " ++ messages es
end

mutual
/-- Whether retrying cannot help: true for the fatal kinds and for raised faults, and for a
gathered failure when any part is. -/
def isFatal : Failure → Bool
  | .precondition _ | .pollTimeout _ => false
  | .multi es => anyFatal es
  | _ => true

/-- Whether any of several failures is fatal. -/
def anyFatal : List Failure → Bool
  | [] => false
  | e :: es => e.isFatal || anyFatal es
end

/-- Whether the failure is one of the manager's own, which carry the fatal flag. -/
def isOwn : Failure → Bool
  | .raised _ _ => false
  | _ => true

/-- The name a failure is reported by. -/
def kindName : Failure → String
  | .config _ => "ConfigError"
  | .cluster _ => "ClusterError"
  | .merge _ => "MergeError"
  | .precondition _ => "PreconditionError"
  | .pollTimeout _ => "PollTimeoutError"
  | .multi _ => "MultiError"
  | .raised k _ => k.name

/-- Gathers failures: nothing for none, the failure itself for one, a `multi` otherwise. -/
def gather : List Failure → Option Failure
  | [] => none
  | [e] => some e
  | es => some (.multi es)

/-- A missing key, reported by the quoted key. -/
def missingKey (quotedKey : String) : Failure := .raised .keyError quotedKey

/-- A failed check of the surroundings. -/
def assertion (msg : String) : Failure := .raised .assertionError msg

end Failure

end OperandLifecycle

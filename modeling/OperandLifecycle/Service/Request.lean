import OperandLifecycle.Json.Display
import OperandLifecycle.Failure
/-!
# Requests

A request is a JSON object: its `op` member names the operation and the other members are
the operation's arguments. An optional argument that is missing reads as `null`; a required
one that is missing is a missing key. An operation answers with a value or a failure
(`Handler`); the service wraps that value into its answer.
-/
namespace OperandLifecycle.Service

open Json

/-- The arguments of a request. -/
structure Request where
  /-- The members of the request object. -/
  args : Fields

/-- An optional argument, `null` when missing. -/
def Request.opt (r : Request) (k : String) : Value := (Fields.get? r.args k).getD .null

/-- An optional argument, `none` when missing. -/
def Request.get? (r : Request) (k : String) : Option Value := Fields.get? r.args k

/-- A required argument. -/
def Request.need (r : Request) (k : String) : Except Failure Value :=
  match Fields.get? r.args k with
  | some v => .ok v
  | none => .error (Failure.missingKey (Text.quoteLiteral k))

/-- An operation of the service: from the request to the result or a failure. -/
abbrev Handler := Request → Except Failure Value

/-- The operations of one area, by name. -/
abbrev HandlerTable := List (String × Handler)

end OperandLifecycle.Service

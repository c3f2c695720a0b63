import OperandLifecycle.Service.Request
import OperandLifecycle.Status.Members
import OperandLifecycle.Status.Conditions
import OperandLifecycle.Status.Change
/-!
# Status requests

The operations on status sections: reading install phases, rolling phases up, keeping
request members and conditions, and telling whether a status changed. Phases are answered
by their words; the member operations answer whether the status changed and the status.
-/
namespace OperandLifecycle.Service

open Json Status

/-- The members of an object argument; `attr` names what the operation reads of it. -/
def objectArg (v : Value) (attr : String) : Except Failure Fields :=
  match v with
  | .obj fs => .ok fs
  | other => .error (notAnObject other attr)

/-- A changed flag with the status it leaves. -/
def changedAnswer (r : Bool × Value) : Value :=
  .obj [("changed", .bool r.1), ("status", r.2)]

/-- The transition time of a new condition: the given time, or the clock. -/
def conditionTime (v : Value) : Except Failure Stamp :=
  match v with
  | .null => .ok (Stamp.ofSeconds 0)
  | .str s => Stamp.read s
  | _ => .error (.raised .typeError "fromisoformat: argument must be str")

/-- The status operations. -/
def statusHandlers : HandlerTable := [
  ("csv_phase", fun r => pure (.str (CsvPhase.read (r.opt "value")).word)),
  ("operator_install_phase", fun r => do
    let some' := fun (v : Value) => if v.isNull then Option.none else some v
    pure (.str (← operatorInstallPhase (some' (r.opt "subscription")) (some' (r.opt "csv"))).word)),
  ("registry_phase", fun r => do
    let v ← r.need "operators_status"
    let fs ← if v.truthy then objectArg v "values" else pure []
    pure (.str (← registryPhase fs).word)),
  ("config_phase", fun r => do
    let fs ← objectArg (← r.need "service_status") "values"
    pure (.str (← configPhase fs).word)),
  ("get_member", fun r => do
    pure ((← getMember (← r.need "status") (← r.need "name")).getD .null)),
  ("set_member", fun r => do
    let status ← r.need "status"
    let name ← r.need "name"
    let op ← CsvPhase.ofValue (← r.need "operator_phase")
    let operand ← ServicePhase.ofValue (← r.need "operand_phase")
    pure (changedAnswer (← setMember status name op operand))),
  ("remove_member", fun r => do
    pure (changedAnswer (← removeMember (← r.need "status") (← r.need "name")))),
  ("operand_phase", fun r => do
    let fs ← objectArg (← r.need "kind_statuses") "items"
    let phases ← fs.mapM (fun p => ServicePhase.ofValue p.2)
    pure (.str (operandPhase phases).word)),
  ("request_phase", fun r => do
    pure (.str (← requestPhase (← (← r.need "members").iterate)).word)),
  ("make_condition", fun r => do
    let time ← conditionTime (r.opt "time")
    pure (makeCondition (← r.need "type") (← r.need "status") (← r.need "reason")
      (← r.need "message") time)),
  ("merge_conditions", fun r => do
    let previous ← (r.opt "previous").itemsOrEmpty
    let current ← (← r.need "current").iterate
    pure (.arr (← mergeConditions previous current))),
  ("status_changed", fun r => pure (.bool (statusChanged (r.opt "current") (r.opt "new")))),
  ("operator_installed", fun r => do
    pure (.bool (← operatorInstalled (r.opt "registry_status") (← r.need "operator"))))]

end OperandLifecycle.Service

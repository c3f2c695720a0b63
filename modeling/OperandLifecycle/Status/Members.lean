import OperandLifecycle.Status.Phase
/-!
# Request members

A request's status lists one member per operator it asked for, keyed by name, with the
install phase of the operator and the phase of its operands. `setMember` inserts or updates
the first member of a name and says whether anything changed; `removeMember` drops every
member of a name.
-/
namespace OperandLifecycle.Status

open Json

/-- The phase pair recorded for a member. -/
def memberPhase (op : CsvPhase) (operand : ServicePhase) : Value :=
  .obj [("operatorPhase", .str op.word), ("operandPhase", .str operand.word)]

/-- The members of a status, none when false. -/
def members (status : Value) : Except Failure (List Value) := do
  (← status.field "members").itemsOrEmpty

/-- The first of the members with the given name; the search stops there. -/
def findNamed (name : Value) : List Value → Except Failure (Option Value)
  | [] => .ok none
  | m :: rest => do
    if (← m.field "name").equiv name then pure (some m) else findNamed name rest

/-- The first member with the given name. -/
def getMember (status : Value) (name : Value) : Except Failure (Option Value) := do
  findNamed name (← members status)

/-- Replaces the first member with the given name. -/
def replaceFirstNamed (name : Value) (m' : Value) : List Value → List Value
  | [] => []
  | m :: rest =>
    if (m.getD "name").equiv name then m' :: rest else m :: replaceFirstNamed name m' rest

/-- Sets the phases of the member with the given name, adding it when missing. Returns
whether the status changed, and the status. -/
def setMember (status : Value) (name : Value) (op : CsvPhase) (operand : ServicePhase) :
    Except Failure (Bool × Value) := do
  let newPhase := memberPhase op operand
  match ← getMember status name with
  | none =>
    let entry := Value.obj [("name", name), ("phase", newPhase)]
    match status.get? "members" with
    | none => pure (true, status.set "members" (.arr [entry]))
    | some (.arr xs) => pure (true, status.set "members" (.arr (xs ++ [entry])))
    | some other => throw (notAnObject other "append")
  | some m =>
    if (m.getD "phase").equiv newPhase then pure (false, status)
    else
      let ms ← members status
      pure (true, status.set "members" (.arr (replaceFirstNamed name (m.set "phase" newPhase) ms)))

/-- Drops every member with the given name. Returns whether the status changed, and the status. -/
def removeMember (status : Value) (name : Value) : Except Failure (Bool × Value) := do
  let ms ← members status
  let names ← ms.mapM (fun m => m.field "name")
  let remaining := (ms.zip names).filter (fun p => !p.2.equiv name) |>.map (·.1)
  if remaining.length == ms.length then pure (false, status)
  else pure (true, status.set "members" (.arr remaining))

end OperandLifecycle.Status

import OperandLifecycle.Json.Path
import OperandLifecycle.Json.Display
import OperandLifecycle.Clock
/-!
# Status conditions

A condition records a type, a status text, a reason, a message and the time of its last
transition. `mergeConditions` keeps that time stable: a current condition whose type, reason
and message equal those of an earlier condition takes the earlier time (of the last such
one), so a repeated failure does not change the status.
-/
namespace OperandLifecycle.Status

open Json

/-- The key of a condition's transition time. -/
def timestampKey : String := "lastTransitionTime"

/-- A condition stamped with the given time. The status is written as text. -/
def makeCondition (type : Value) (status : Value) (reason message : Value) (time : Stamp) : Value :=
  .obj [("type", type), ("status", .str status.display), ("reason", reason),
    ("message", message), (timestampKey, .str time.iso)]

/-- What identifies a condition across updates: its type, reason and message. -/
def conditionKey (c : Value) : Except Failure (List Value) := do
  let k := [← c.field "type", ← c.field "reason", ← c.field "message"]
  -- keys are compared as a whole and cannot hold containers
  match k.find? (fun v => !v.hashable) with
  | some v => throw (unhashable v)
  | none => pure k

/-- Whether two condition keys are equal. -/
def sameKey (a b : List Value) : Bool := Value.equivItems a b

/-- The transition time recorded for a key: that of the last earlier condition with it. -/
def earlierTime (times : List (List Value × Value)) (k : List Value) : Option Value :=
  (times.reverse.find? (fun p => sameKey p.1 k)).map (·.2)

/-- The current conditions, each keeping the transition time of an earlier condition with the
same key. -/
def mergeConditions (previous current : List Value) : Except Failure (List Value) := do
  let times ← previous.mapM (fun c => do pure (← conditionKey c, ← c.field timestampKey))
  current.mapM (fun c => do
    let k ← conditionKey c
    match earlierTime times k with
    | some t => pure (c.set timestampKey t)
    | none => pure c)

end OperandLifecycle.Status

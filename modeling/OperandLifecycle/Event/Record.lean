import OperandLifecycle.Event
import OperandLifecycle.Cluster.Client
/-!
# Posting events

`Event.record` posts an event about an owner object, when the settings ask for events. The
same event posted again is folded into the existing Event object: its count grows by one and
its last time stamp moves to now. Posting is informational: a failure of the cluster while
posting answers `false` and never stops the caller. Only a malformed owner or event content
stops it, before anything is posted.
-/
namespace OperandLifecycle.Event

open Json Cluster

/-- The count after one more occurrence: the recorded count (one when false) plus one. -/
def nextCount (v : Value) : Except Failure Value :=
  match v.or (.int 1) with
  | .int n => .ok (.int (n + 1))
  | .bool b => .ok (.int ((if b then 1 else 0) + 1))
  | .float x => .ok (.float (x + 1.0))
  | .str _ => .error (.raised .typeError "can only concatenate str (not \"int\") to str")
  | .arr _ => .error (.raised .typeError "can only concatenate list (not \"int\") to list")
  | other => .error (.raised .typeError
      ("unsupported operand type(s) for +: '" ++ other.typeName ++ "' and 'int'"))

/-- Folds one more occurrence into the posted copy of an event; answers whether the copy was
found and written. -/
def bump (event : Value) : ClusterM Bool := do
  let md := event.getD "metadata"
  let (ok, current) ← getObject (.str "Event") (md.getD "name") (md.getD "namespace") (.str "v1")
  match ok, current with
  | true, some cur =>
    let count ← ClusterM.check (nextCount (cur.getD "count"))
    let cur := (cur.set "count" count).set "lastTimestamp" (.str (← ClusterM.now).zulu)
    let (written, _) ← update cur
    pure written
  | _, _ => pure false

/-- Posts an event about an owner; answers whether an event was created or an existing one
folded in. -/
def record (owner : Value) (type : EventType) (reason message : Value) : ClusterM Bool := do
  let md ← ClusterM.check (owner.fieldOr "metadata" (.obj []))
  let _ ← ClusterM.check (md.field "name")
  if !(← ClusterM.setting "post_events").truthy then return false
  let event ← ClusterM.check (makeEvent owner type reason message (← ClusterM.now))
  tryCatch
    (do
      let (ok, created) ← create event
      if ok && !created then bump event else pure (ok && created))
    (fun _ => pure false)

end OperandLifecycle.Event

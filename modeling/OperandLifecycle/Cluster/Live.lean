import OperandLifecycle.Cluster.Api
/-!
# The manager on a live cluster

The cluster calls of the manager made through the API client (`Api`).

* Reads: `currentState` answers whether the lookup succeeded and the object if there is one;
  a forbidden lookup did not succeed, a missing object or kind is a successful lookup of
  nothing. `listState` does the same for a selection.
* `deleteAllOf` deletes a selection and answers whether it succeeded and whether anything was
  deleted, which is assumed when the server does not say.
* Writes (`create`, `update`, `setStatus`) never fail: any failure inside them is the answer
  "not done" (`guarded`). An update or status write that meets a conflict refreshes the
  resource version and tries again, as many times as the `deploy_retries` setting allows
  (`retrying`). A create that meets a conflict found the object already there.
-/
namespace OperandLifecycle.Cluster

open Json

/-- The field manager named on every write. -/
def fieldManager : String := "odlm"

/-! ## Reads -/

/-- The object of a kind and name, with whether the lookup succeeded. -/
def currentState (kind name ns apiVersion : Value) : ApiM (Bool × Option Value) := do
  match ← Api.resourceHandle kind apiVersion with
  | none => pure (true, none)
  | some h =>
    match ← (h.within ns).call "get" [("name", name), ("namespace", ns)] with
    | .error (.status .forbidden _) => pure (false, none)
    | .error (.status .notFound _) => pure (true, none)
    | .error r => throw r.failure
    | .ok none => throw nothingToRead
    | .ok (some content) => pure (true, some content)

/-- The objects of a kind that match the selectors, with whether the listing succeeded. -/
def listState (kind ns apiVersion labelSelector fieldSelector : Value) : ApiM (Bool × Value) := do
  match ← Api.resourceHandle kind apiVersion with
  | none => pure (true, .arr [])
  | some h =>
    match ← h.call "get" [("label_selector", labelSelector), ("field_selector", fieldSelector),
        ("namespace", ns)] with
    | .error (.status .forbidden _) => pure (false, .arr [])
    | .error (.status .notFound _) => pure (true, .arr [])
    | .error r => throw r.failure
    | .ok none => throw nothingToRead
    | .ok (some content) => pure (true, ← ApiM.check (content.fieldOr "items" (.arr [])))

/-! ## Deleting -/

/-- Deletes the objects of a kind that match the selectors: whether it succeeded, and whether
anything was deleted. An unserved kind and a missing selection delete nothing; an answer
without an item list counts as having deleted something. -/
def deleteAllOf (kind ns apiVersion labelSelector fieldSelector : Value) : ApiM (Bool × Bool) := do
  match ← Api.resourceHandle kind apiVersion with
  | none => pure (true, false)
  | some h =>
    match ← (h.within ns).call "delete" [("namespace", ns), ("label_selector", labelSelector),
        ("field_selector", fieldSelector)] with
    | .error (.status .notFound _) => pure (true, false)
    | .error _ => pure (false, false)
    | .ok content =>
      let items ← ApiM.check ((content.getD (.obj [])).field "items")
      pure (true, items.isNull || items.truthy)

/-! ## Writes -/

/-- What names a written resource. -/
structure Identity where
  /-- The API version. -/
  apiVersion : Value
  /-- The kind. -/
  kind : Value
  /-- The name. -/
  name : Value
  /-- The namespace. -/
  ns : Value

/-- The identity of a resource to write; it must have a kind and a name. -/
def Identity.read (resource : Value) : Except Failure Identity := do
  let metadata ← resource.fieldOr "metadata" (.obj [])
  let id : Identity := ⟨← resource.field "apiVersion", ← resource.field "kind",
    ← metadata.field "name", ← metadata.field "namespace"⟩
  if id.kind.truthy && id.name.truthy then pure id
  else throw (Failure.assertion "Cannot write resource without kind or name")

/-- The handle to write a resource through; its kind must be served. -/
def requiredHandle (id : Identity) : ApiM Handle := do
  match ← Api.resourceHandle id.kind id.apiVersion with
  | none =>
    throw (.cluster ("Failed to fetch resource handle for " ++ id.ns.display ++ "/" ++
      id.apiVersion.display ++ "/" ++ id.kind.display))
  | some h => pure (h.within id.ns)

/-- The writes that go through the retrying guard. -/
inductive Write where
  | create
  | update
  /-- Sets the status of the resource to the given one. -/
  | setStatus (status : Value)

/-- Raises a refusal, or answers the content of a reply. -/
def Reply.content (r : Reply) : ApiM (Option Value) :=
  match r with
  | .error e => throw e.failure
  | .ok c => pure c

/-- One attempt of a write; answers whether it changed anything. A conflict is raised, except
by a create, for which it means the object is already there. -/
def Write.attempt (w : Write) (resource : Value) : ApiM Bool := do
  let id ← ApiM.check (Identity.read resource)
  let h ← requiredHandle id
  match w with
  | .create =>
    match ← h.call "create" [("body", resource), ("namespace", id.ns),
        ("field_manager", .str fieldManager)] with
    | .error (.status .conflict _) => pure false
    | .error e => throw e.failure
    | .ok _ => pure true
  | .update =>
    let metadata := (← ApiM.check (resource.fieldOr "metadata" (.obj []))).erase "managedFields"
    let previous ← ApiM.check (metadata.field "resourceVersion")
    let reply ← h.call "replace" [("body", resource.set "metadata" metadata), ("name", id.name),
      ("namespace", id.ns), ("field_manager", .str fieldManager)]
    match ← reply.content with
    | none => throw nothingToRead
    | some result =>
      let stored ← ApiM.check (result.fieldOr "metadata" (.obj []))
      let version ← ApiM.check (stored.field "resourceVersion")
      pure (!version.equiv previous)
  | .setStatus status =>
    match ← (← h.call "get" [("name", id.name), ("namespace", id.ns)]).content with
    | none => throw nothingToRead
    | some current =>
      if (← ApiM.check (current.field "status")).equiv status then return false
      let _ ← (← h.call "status.replace" [("body", current.set "status" status)]).content
      return true

/-- The retry count after one more retry, none when no retry is left. A count that is no
finite number cannot be counted down, so it allows none either. -/
def nextRetry : Value → Option Value
  | .int n => if n == 0 then none else some (.int (n - 1))
  | .bool true => some (.int 0)
  | .float x =>
    if x == 0.0 || x.isNaN || x.isInf then none else some (.float (x - 1.0))
  | _ => none

/-- The resource with its resource version refreshed from the cluster. -/
def refreshVersion (resource : Value) : ApiM Value := do
  let id ← ApiM.check (Identity.read resource)
  let (ok, content) ← currentState id.kind id.name id.ns id.apiVersion
  let content ← match ok, content with
    | true, some c => pure c
    | _, _ =>
      throw (.cluster ("Failed to fetch updated resourceVersion for " ++ id.ns.display ++ "/" ++
        id.apiVersion.display ++ "/" ++ id.kind.display ++ "/" ++ id.name.display))
  let stored ← ApiM.check (content.fieldOr "metadata" (.obj []))
  let version ← ApiM.check (stored.field "resourceVersion")
  if version.isNull then throw (.cluster "No updated resource version found!")
  let metadata ← ApiM.check (resource.fieldOr "metadata" (.obj []))
  pure (resource.set "metadata" (metadata.set "resourceVersion" version))

/-- Runs a write; on a conflict with retries left, refreshes the resource version and tries
again. Every conflict uses up a reply of the script, so `fuel` beyond the script's length is
never used up. -/
def retrying (w : Write) : Nat → Value → Value → ApiM Bool
  | fuel, remaining, resource =>
    tryCatch (w.attempt resource) fun e => do
      let conflict := e.kindName == StatusError.conflict.name
      match fuel, nextRetry remaining with
      | fuel + 1, some rest =>
        if conflict then
          let resource ← refreshVersion resource
          retrying w fuel rest resource
        else throw e
      | _, _ => throw e

/-- Runs a write that answers whether it succeeded and whether it changed anything: any
failure is "not done". -/
def guarded (w : Write) (retries : Value) (resource : Value) : ApiM (Bool × Bool) := do
  let fuel := (← getThe Api).script.length + 1
  tryCatch (do pure (true, ← retrying w fuel retries resource)) fun _ => pure (false, false)

/-- Creates a resource: done and new, done and already there, or not done. -/
def createLive (resource : Value) : ApiM (Bool × Bool) := guarded .create (.int 0) resource

/-- Replaces a resource: whether it was done, and whether its resource version moved. -/
def updateLive (retries : Value) (resource : Value) : ApiM (Bool × Bool) :=
  guarded .update retries resource

/-- Sets the status of a resource: whether it was done, and whether the status changed. -/
def setStatusLive (retries kind name ns status apiVersion : Value) : ApiM (Bool × Bool) :=
  guarded (.setStatus status) retries
    (.obj [("kind", kind), ("apiVersion", apiVersion),
      ("metadata", .obj [("name", name), ("namespace", ns)])])

end OperandLifecycle.Cluster

import OperandLifecycle.Cluster.Client
import OperandLifecycle.Event.Record
import OperandLifecycle.Status.Change
/-!
# Reconcile sessions

A `Session` holds one reconcile of one custom resource: an id, the resource's manifest and the
status observed at the start (or written last). A session opens only on a manifest with a
kind, an API version, and metadata with a name and a namespace; opening reads the status from
the cluster.

`ReconcileM` runs a reconcile against the cluster world and its session. Like the cluster,
it keeps what changed before a failure. Through the session a reconcile reads objects in the
resource's namespace by default, writes the resource's status only when it changed in more
than its time stamps, posts events about the resource, and adds or removes the resource's
finalizers, both in the cluster and in its own manifest.
-/
namespace OperandLifecycle.Reconcile

open Json Cluster Status

/-- One reconcile of one resource. -/
structure Session where
  id : String
  /-- The resource's manifest, an object. -/
  manifest : Value
  /-- The status observed at the start, or the one written last. -/
  status : Value

/-- The cluster world with the session of a reconcile. -/
structure Reconciling where
  world : World
  session : Session

/-- Runs a reconcile; a failure keeps the changes made before it. -/
abbrev ReconcileM := ExceptT Failure (StateM Reconciling)

/-- Runs a cluster operation inside a reconcile. -/
def liftCluster {α : Type} (m : ClusterM α) : ReconcileM α :=
  ExceptT.mk (modifyGet (fun r =>
    let (res, w) := (m.run).run r.world
    (res, { r with world := w })))

instance : MonadLift ClusterM ReconcileM := ⟨liftCluster⟩

namespace Session

/-- The metadata of the resource. -/
def metadata (s : Session) : Except Failure Value := s.manifest.attr "metadata"

/-- The kind of the resource. -/
def kind (s : Session) : Value := s.manifest.getD "kind"

/-- The API version of the resource. -/
def apiVersion (s : Session) : Value := s.manifest.getD "apiVersion"

/-- The name of the resource. -/
def name (s : Session) : Except Failure Value := do (← s.metadata).attr "name"

/-- The namespace of the resource. -/
def ns (s : Session) : Except Failure Value := do (← s.metadata).attr "namespace"

/-- The spec of the resource, the empty object when it has none. -/
def spec (s : Session) : Value := (s.manifest.get? "spec").getD (.obj [])

/-- Whether the resource is marked for deletion. -/
def deleting (s : Session) : Except Failure Bool := do
  pure (← (← s.metadata).field "deletionTimestamp").truthy

/-- Checks that a manifest has what every resource has. -/
def validate (manifest : Value) : Except Failure Unit := do
  let has (k : String) : Bool := ((manifest.fields?.getD []).find? (·.1 == k)).isSome
  if !has "kind" then throw (Failure.assertion "CR missing required section ['kind']")
  if !has "apiVersion" then throw (Failure.assertion "CR missing required section ['apiVersion']")
  if !has "metadata" then throw (Failure.assertion "CR missing required section ['metadata']")
  let md ← manifest.attr "metadata"
  if !(← Value.memberOf (.str "name") md) then
    throw (Failure.assertion "CR missing required section ['metadata.name']")
  if !(← Value.memberOf (.str "namespace") md) then
    throw (Failure.assertion "CR missing required section ['metadata.namespace']")

/-- A namespace asked for through the session: the session's own unless one is given. -/
def resolveNamespace (s : Session) (given : Option Value) : Except Failure Value :=
  match given with
  | none => s.ns
  | some (.str "__SESSION_NAMESPACE__") => s.ns
  | some ns => .ok ns

/-- The status of the resource in the cluster, the empty object when it has none. -/
def readStatus (s : Session) : ClusterM Value := do
  let name ← ClusterM.check s.name
  let ns ← ClusterM.check s.ns
  let (ok, content) ← getObject s.kind name ns s.apiVersion
  if !ok then
    throw (.cluster ("Failed to fetch status for [" ++ s.apiVersion.display ++ "/" ++
      s.kind.display ++ "/" ++ name.display ++ "]"))
  match content with
  | some c => if c.truthy then ClusterM.check (do pure ((← c.field "status").orEmpty)) else pure (.obj [])
  | none => pure (.obj [])

/-- Opens a session on a manifest, reading the resource's status. -/
def start (id : String) (manifest : Value) : ClusterM Session := do
  ClusterM.check (validate manifest)
  let s : Session := ⟨id, manifest, .obj []⟩
  pure { s with status := ← s.readStatus }

end Session

namespace ReconcileM

/-- Stops with a failure of a check. -/
def check {α : Type} (r : Except Failure α) : ReconcileM α := ExceptT.mk (pure r)

/-- The session. -/
def session : ReconcileM Session := do return (← getThe Reconciling).session

/-- Changes the session. -/
def modifySession (f : Session → Session) : ReconcileM Unit :=
  modifyThe Reconciling (fun r => { r with session := f r.session })

/-- Reads an object; by default in the session's namespace. -/
def getObject (kind name apiVersion : Value) (ns : Option Value) :
    ReconcileM (Bool × Option Value) := do
  let ns ← check ((← session).resolveNamespace ns)
  Cluster.getObject kind name ns apiVersion

/-- Lists objects; by default in the session's namespace. -/
def listObjects (kind apiVersion labelSelector fieldSelector : Value) (ns : Option Value) :
    ReconcileM (Bool × List Value) := do
  let ns ← check ((← session).resolveNamespace ns)
  Cluster.listObjects kind ns apiVersion labelSelector fieldSelector

/-- Writes the resource's status when it changed in more than its time stamps; answers whether
it was written. -/
def setStatus (new : Value) : ReconcileM Bool := do
  let s ← session
  if !statusChanged s.status new then return false
  let name ← check s.name
  let ns ← check s.ns
  let (ok, _) ← Cluster.setStatus s.kind name ns new s.apiVersion
  if !ok then throw (.cluster ("Failed to update status for " ++ s.kind.display ++ "/" ++ name.display))
  modifySession (fun s => { s with status := new })
  pure true

/-- Posts an event about the resource. -/
def recordEvent (type : Event.EventType) (reason message : String) : ReconcileM Bool := do
  Event.record (← session).manifest type (.str reason) (.str message)

/-- Changes the metadata of the session's manifest. -/
def modifyMetadata (f : Value → Value) : ReconcileM Unit :=
  modifySession (fun s => { s with manifest := s.manifest.set "metadata" (f (s.manifest.getD "metadata")) })

/-- The finalizers of the resource, as its manifest holds them; a manifest without any gets an
empty list first. -/
def finalizers : ReconcileM Value := do
  let md ← check (← session).metadata
  if !(← check (Value.memberOf (.str "finalizers") md)) then
    modifyMetadata (·.set "finalizers" (.arr []))
  let md ← check (← session).metadata
  check (md.field "finalizers")

/-- The failure of calling a list method on a value that has no such method: an object answers
an attribute of that name, which is no method. -/
def notAList (v : Value) (method : String) : Failure :=
  match v with
  | .obj fs => .raised .typeError
      ("'" ++ ((Fields.get? fs method).getD .null).typeName ++ "' object is not callable")
  | other => notAnObject other method

/-- Changes the finalizer list of the session's manifest, which must be a list. -/
def editFinalizers (method : String) (f : List Value → List Value) : ReconcileM Unit := do
  match ← finalizers with
  | .arr xs => modifyMetadata (·.set "finalizers" (.arr (f xs)))
  | other => throw (notAList other method)

/-- Removes the first item equal to `x`. -/
def removeFirst (x : Value) : List Value → List Value
  | [] => []
  | y :: ys => if y.equiv x then ys else y :: removeFirst x ys

/-- The resource as the cluster holds it. -/
def liveResource : ReconcileM (Bool × Option Value) := do
  let s ← session
  let name ← check s.name
  getObject s.kind name s.apiVersion none

/-- Adds a finalizer to the resource, in the cluster and in the manifest. -/
def addFinalizer (finalizer : Value) : ReconcileM Unit := do
  if ← check (Value.memberOf finalizer (← finalizers)) then return
  let (ok, current) ← liveResource
  let current ← match ok, current with
    | true, some c => if c.truthy then pure c else throw (.cluster "Failed to look up CR for self")
    | _, _ => throw (.cluster "Failed to look up CR for self")
  let md := current.getD "metadata"
  let listed ← match (md.get? "finalizers").getD (.arr []) with
    | .arr xs => pure (xs ++ [finalizer])
    | other => throw (notAnObject other "append")
  let (written, _) ← Cluster.update (current.set "metadata" (md.set "finalizers" (.arr listed)))
  if !written then throw (.cluster ("Failed to add finalizer " ++ finalizer.display))
  editFinalizers "append" (· ++ [finalizer])

/-- Removes a finalizer from the resource, in the cluster (while it is there) and in the
manifest. -/
def removeFinalizer (finalizer : Value) : ReconcileM Unit := do
  if !(← check (Value.memberOf finalizer (← finalizers))) then return
  let (ok, current) ← liveResource
  if !ok then throw (.cluster "Failed to look up CR for self")
  if let some c := current then
    if c.truthy then
      let md := c.getD "metadata"
      let listed := (md.get? "finalizers").getD (.arr [])
      if ← check (Value.memberOf finalizer listed) then
        let remaining ← match listed with
          | .arr xs => pure (removeFirst finalizer xs)
          | other => throw (notAnObject other "remove")
        let (written, _) ← Cluster.update (c.set "metadata" (md.set "finalizers" (.arr remaining)))
        if !written then throw (.cluster ("Failed to remove finalizer " ++ finalizer.display))
  editFinalizers "remove" (removeFirst finalizer)

end ReconcileM

end OperandLifecycle.Reconcile

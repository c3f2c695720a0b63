import OperandLifecycle.Cluster.Client
/-!
# Owner references

An object that should be removed together with another names it among its owner references.
`addOwner owner child` gives the child a reference to the owner, keeping every reference the
child already carries and those of the live copy of the child in the cluster (a live reference
whose uid the child already names is not repeated). The owner is added only when it lives in
the child's namespace, since ownership cannot cross namespaces, and only when no reference
names its uid yet.

Both objects must have a kind, an API version, and metadata with a name and a namespace.
-/
namespace OperandLifecycle.Cluster

open Json

/-- Checks that an object has the parts an owner reference needs. -/
def validateOwned (obj : Value) : Except Failure Unit := do
  if !(← Value.memberOf (.str "kind") obj) then throw (Failure.assertion "Got object without 'kind'")
  if !(← Value.memberOf (.str "apiVersion") obj) then
    throw (Failure.assertion "Got object without 'apiVersion'")
  let metadata ← obj.field "metadata"
  if !metadata.isObj then throw (Failure.assertion "Got object with non-dict 'metadata'")
  if !(← Value.memberOf (.str "name") metadata) then
    throw (Failure.assertion "Got object without 'metadata.name'")
  if !(← Value.memberOf (.str "namespace") metadata) then
    throw (Failure.assertion "Got object without 'metadata.namespace'")

/-- The reference to an owner. -/
def ownerReference (owner : Value) : Value :=
  let md := owner.getD "metadata"
  .obj [("apiVersion", owner.getD "apiVersion"), ("kind", owner.getD "kind"),
    ("name", md.getD "name"), ("uid", md.getD "uid"), ("blockOwnerDeletion", .bool true)]

/-- The uid a reference names; the reference must be an object. -/
def referenceUid (ref : Value) : Except Failure Value := ref.field "uid"

/-- The references of the live copy that name a uid not in `known`, in order. The uids are
looked up as members of a set, where NaN matches NaN. -/
def newReferences (known : List Value) (live : List Value) : Except Failure (List Value) :=
  live.filterM (fun ref => do
    let uid ← referenceUid ref
    if !uid.hashable then throw (unhashable uid)
    pure !(known.any (·.heldEquiv uid)))

/-- The child's references followed by those of its live copy, if any, that name a uid none of
the child's names. -/
def withLiveReferences (refs : List Value) : Option Value → Except Failure (List Value)
  | none => pure refs
  | some content => do
    let known ← refs.mapM (fun r => do
      let uid ← referenceUid r
      if !uid.hashable then throw (unhashable uid)
      pure uid)
    let liveMd ← content.fieldOr "metadata" (.obj [])
    let liveRefs ← (← liveMd.fieldOr "ownerReferences" (.arr [])).iterate
    pure (refs ++ (← newReferences known liveRefs))

/-- The references of a child in namespace `ns`, with a reference to the owner appended when
the owner lives in `ns` and no reference names its uid yet. -/
def withOwnerReference (owner ns : Value) (refs : List Value) : Except Failure (List Value) := do
  let ownerMd := owner.getD "metadata"
  if !ns.equiv (ownerMd.getD "namespace") then return refs
  let uids ← refs.mapM referenceUid
  if uids.any (·.heldEquiv (ownerMd.getD "uid")) then pure refs
  else pure (refs ++ [ownerReference owner])

/-- The child with a reference to the owner merged into its owner references. -/
def addOwner (owner child : Value) : ClusterM Value := do
  ClusterM.check (validateOwned owner)
  ClusterM.check (validateOwned child)
  let childMd := child.getD "metadata"
  let kind := child.getD "kind"
  let apiVersion := child.getD "apiVersion"
  let name := childMd.getD "name"
  let ns := childMd.getD "namespace"
  let (ok, live) ← getObject kind name ns apiVersion
  if !ok then
    throw (.cluster ("Failed to fetch current state of " ++ apiVersion.display ++ "." ++
      kind.display ++ "/" ++ name.display))
  let refs ← ClusterM.check ((childMd.fieldOr "ownerReferences" (.arr [])).bind Value.iterate)
  let refs ← ClusterM.check (withLiveReferences refs live)
  let refs ← ClusterM.check (withOwnerReference owner ns refs)
  pure (child.set "metadata" (childMd.set "ownerReferences" (.arr refs)))

end OperandLifecycle.Cluster

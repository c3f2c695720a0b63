import OperandLifecycle.Cluster.Selector
import OperandLifecycle.Clock
/-!
# The in-memory cluster

`Store` holds the objects of a cluster in memory, filed by namespace, then kind, then API
version, then name; each level is a `Table` that keeps its keys in the order they were first
filed. Keys are compared by value, the one NaN a reader makes matching itself, and each level
is looked up with the key it is asked for, so a part of an address that cannot serve as a key
(an array or an object) stops the operation there. Creating an object opens the groups on its way before it looks for the name,
so a create that stops at its name leaves the groups it opened, empty.

The store answers like the cluster's API does:

* `Store.get` finds the single object of a name (under any version when none is given);
* `Store.list` lists a kind, in a namespace or all of them, filtered by label and field
  selectors;
* `Store.create` files a new object and stamps it with a uid, a creation time, generation 1
  and a fresh resource version; an existing address is left alone;
* `Store.update` replaces an object but keeps its status and its uid, creation and deletion
  times; the generation grows when the spec changes, the resource version when anything but
  the server's fields and the status changes. With `strict` versions, an update that names an
  out-of-date resource version is refused. An update that leaves a deletion time and no
  finalizers completes the deletion;
* `Store.deleteListed` removes listed objects, or only marks them with a deletion time while
  they carry finalizers; removing the last object of a group removes the group. `Store.deleteAll`
  deletes what a listing selects;
* `Store.setStatus` writes the status of an object.

Resource versions are issued from one counter, so no two writes share one.
-/
namespace OperandLifecycle.Cluster

open Json

/-- Entries under value keys, in the order the keys were first added. Keys are compared as a
table holds them (`Value.heldEquiv`): by value, so `1`, `1.0` and `true` are one key, and a NaN
is the key of a NaN. -/
abbrev Table (α : Type) := List (Value × α)

namespace Table

variable {α : Type}

/-- The entry under a key. -/
def lookup (t : Table α) (k : Value) : Option α :=
  (List.find? (fun p => p.1.heldEquiv k) t).map (·.2)

/-- Whether a key has an entry. -/
def holds (t : Table α) (k : Value) : Bool := List.any t (fun p => p.1.heldEquiv k)

/-- The keys, in order. -/
def keys (t : Table α) : List Value := List.map (·.1) t

/-- The entries, in order. -/
def entries (t : Table α) : List α := List.map (·.2) t

/-- Adds an entry under a new key at the end; a key already present keeps its entry. -/
def ensure (t : Table α) (k : Value) (fresh : α) : Table α :=
  if t.holds k then t else t ++ [(k, fresh)]

/-- Changes the entry under a key, which keeps its place and its first spelling. -/
def alter (t : Table α) (k : Value) (f : α → α) : Table α :=
  List.map (fun p => if p.1.heldEquiv k then (p.1, f p.2) else p) t

/-- Puts an entry under a key: in its place when the key is present, else at the end. -/
def put (t : Table α) (k : Value) (x : α) : Table α :=
  if t.holds k then t.alter k (fun _ => x) else t ++ [(k, x)]

/-- Drops the entry under a key. -/
def drop (t : Table α) (k : Value) : Table α := List.filter (fun p => !p.1.heldEquiv k) t

end Table

/-- Where the store files an object. -/
structure Address where
  /-- The namespace, `null` for a cluster-wide object. -/
  ns : Value
  kind : Value
  apiVersion : Value
  name : Value

/-- The address a resource names for a write: it must have a kind and a name. -/
def Address.read (resource : Value) : Except Failure Address := do
  let metadata ← resource.fieldOr "metadata" (.obj [])
  let kind ← resource.field "kind"
  let name ← metadata.field "name"
  if !(kind.truthy && name.truthy) then
    throw (Failure.assertion "Cannot manage a resource without kind and name")
  pure ⟨← metadata.field "namespace", kind, ← resource.field "apiVersion", name⟩

/-- A part of an address must be able to serve as a key. -/
def requireKey (v : Value) : Except Failure Unit :=
  if v.hashable then .ok () else .error (unhashable v)

/-- Objects of one kind and version, by name. -/
abbrev Shelf := Table Value

/-- The shelves of one kind, by version. -/
abbrev KindShelves := Table Shelf

/-- The objects of a cluster by namespace, kind, version and name, with the count of resource
versions issued. -/
structure Store where
  content : Table (Table KindShelves)
  /-- The number of resource versions issued so far; the next one is one more. -/
  issued : Nat
  /-- Whether updates naming an out-of-date resource version are refused. -/
  strict : Bool

/-- Operations on the store: they may stop with a failure, and keep what they changed before. -/
abbrev StoreM := ExceptT Failure (StateM Store)

/-- A check of the arguments, which changes nothing. -/
def StoreM.check {α : Type} (r : Except Failure α) : StoreM α := ExceptT.mk (pure r)

namespace Store

/-- The empty store. -/
def empty (strict : Bool) : Store := ⟨[], 0, strict⟩

/-- The shelves of a kind in a namespace; both must serve as keys. -/
def shelvesOf (s : Store) (ns kind : Value) : Except Failure KindShelves := do
  requireKey ns
  requireKey kind
  pure (((s.content.lookup ns).bind (·.lookup kind)).getD [])

/-- Issues the next resource version. -/
def nextVersion : StoreM String :=
  modifyGet (fun s => (toString (s.issued + 1), { s with issued := s.issued + 1 }))

/-- Changes the shelves of a kind in a namespace. -/
def alterShelves (ns kind : Value) (f : KindShelves → KindShelves) : StoreM Unit :=
  modify (fun s => { s with content := s.content.alter ns (·.alter kind f) })

/-- Drops the shelves, kinds and namespaces that hold nothing on the way to a shelf. -/
def pruneAt (ns kind apiVersion : Value) : StoreM Unit :=
  modify (fun s =>
    let prune (kinds : Table KindShelves) :=
      let kinds := kinds.alter kind (fun shelves =>
        if (shelves.lookup apiVersion).getD [] |>.isEmpty then shelves.drop apiVersion else shelves)
      if (kinds.lookup kind).getD [] |>.isEmpty then kinds.drop kind else kinds
    let content := s.content.alter ns prune
    { s with content := if (content.lookup ns).getD [] |>.isEmpty then content.drop ns else content })

/-- Removes the object of a name from a shelf, and the groups this leaves empty. -/
def removeAt (ns kind apiVersion name : Value) : StoreM Unit := do
  alterShelves ns kind (·.alter apiVersion (·.drop name))
  pruneAt ns kind apiVersion

/-- Whether an object's version is the one asked for; `null` asks for any. -/
def versionFits (apiVersion shelfVersion : Value) : Bool :=
  apiVersion.isNull || shelfVersion.equiv apiVersion

/-- Whether the version asked for is `null` or the shelf's version, as a membership test in a
list of the two sees it: there a NaN asked for finds a NaN. -/
def versionHeld (apiVersion shelfVersion : Value) : Bool :=
  apiVersion.isNull || shelfVersion.heldEquiv apiVersion

/-- The object of a name, when exactly one version of it fits. -/
def get (s : Store) (kind name ns apiVersion : Value) : Except Failure (Option Value) := do
  let shelves ← s.shelvesOf ns kind
  if !shelves.isEmpty then requireKey name
  match shelves.filterMap (fun p =>
      if versionFits apiVersion p.1 then p.2.lookup name else none) with
  | [o] => pure (some o)
  | _ => pure none

/-- The labels of an object, the empty object when false. -/
def labelsOf (obj : Value) : Value := ((obj.getD "metadata").getD "labels").orEmpty

/-- Whether an object satisfies a label and a field selector; a false selector selects
everything. The label selector is tried first. -/
def selects (labelSelector fieldSelector : Value) (o : Value) : Except Failure Bool := do
  if labelSelector.truthy then
    if !(← selectorHolds (labelsOf o) labelSelector) then return false
  if fieldSelector.truthy then
    if !(← selectorHolds (.obj (flatten (o.fields?.getD []))) fieldSelector) then return false
  pure true

/-- The objects of a kind, in one namespace or all (`null`), of a version or all, that satisfy
the label and field selectors, in filing order. -/
def list (s : Store) (kind ns apiVersion labelSelector fieldSelector : Value) :
    Except Failure (List Value) := do
  let namespaces := if ns.isNull then s.content.keys else [ns]
  let found ← namespaces.mapM (fun n => do
    let shelves ← s.shelvesOf n kind
    pure ((shelves.filter (fun p => versionFits apiVersion p.1)).flatMap (fun p => p.2.entries)))
  found.flatten.filterM (selects labelSelector fieldSelector)

/-- Files a new object with the given uid, stamped `now`, and answers whether it was created:
an object already filed under the address is left as it is. The groups on the way are
opened before the name is looked at. -/
def create (resource : Value) (uid : String) (now : Stamp) : StoreM Bool := do
  let a ← StoreM.check (Address.read resource)
  StoreM.check (requireKey a.ns)
  modify (fun s => { s with content := s.content.ensure a.ns [] })
  StoreM.check (requireKey a.kind)
  modify (fun s => { s with content := s.content.alter a.ns (·.ensure a.kind []) })
  StoreM.check (requireKey a.apiVersion)
  alterShelves a.ns a.kind (·.ensure a.apiVersion [])
  StoreM.check (requireKey a.name)
  let s ← getThe Store
  let shelf := (((s.content.lookup a.ns).bind (·.lookup a.kind)).bind (·.lookup a.apiVersion)).getD []
  if shelf.holds a.name then return false
  let version ← nextVersion
  let md := (((resource.getD "metadata").set "uid" (.str uid)).set "creationTimestamp"
    (.str now.iso) |>.set "generation" (.int 1)).set "resourceVersion" (.str version)
  alterShelves a.ns a.kind (·.alter a.apiVersion (·.put a.name (resource.set "metadata" md)))
  pure true

/-- The metadata fields the server writes, which never count as a change. -/
def serverFields : List String := ["resourceVersion", "uid", "creationTimestamp", "generation"]

/-- An object without the server's fields and without status. -/
def stripServerFields (o : Value) : Value :=
  let o := match o.get? "metadata" with
    | some md => o.set "metadata" (serverFields.foldl Value.erase md)
    | none => o
  o.erase "status"

/-- The generation after a write: one more when the spec changed. -/
def nextGeneration (current : Value) (specChanged : Bool) : Value :=
  match current with
  | .int n => .int (if specChanged then n + 1 else n)
  | other => other

/-- Replaces a filed object. Answers whether the update was accepted and whether it changed
anything beyond the server's fields and the status. -/
def update (resource : Value) : StoreM (Bool × Bool) := do
  let a ← StoreM.check (Address.read resource)
  let s ← getThe Store
  let shelves ← StoreM.check (s.shelvesOf a.ns a.kind)
  StoreM.check (requireKey a.apiVersion)
  StoreM.check (requireKey a.name)
  match ((shelves.lookup a.apiVersion).getD []).lookup a.name with
  | none => pure (false, false)
  | some current =>
    let curMd := current.getD "metadata"
    let md := resource.getD "metadata"
    let requested := md.getD "resourceVersion"
    if s.strict && requested.truthy && !requested.equiv (curMd.getD "resourceVersion") then
      return (false, false)
    let res := match current.get? "status" with
      | some st => resource.set "status" st
      | none => resource.erase "status"
    let md := ["uid", "creationTimestamp", "deletionTimestamp"].foldl (fun m f =>
      match curMd.get? f with
      | some v => m.set f v
      | none => m) md
    let changed := !(stripServerFields current).equiv (stripServerFields (res.set "metadata" md))
    let specChanged := !(current.getD "spec").equiv (res.getD "spec")
    let md := md.set "generation" (nextGeneration ((curMd.get? "generation").getD (.int 1)) specChanged)
    let version ← if changed then Value.str <$> nextVersion else pure (curMd.getD "resourceVersion")
    let md := md.set "resourceVersion" version
    alterShelves a.ns a.kind (·.alter a.apiVersion (·.put a.name (res.set "metadata" md)))
    if (md.getD "deletionTimestamp").truthy && !(md.getD "finalizers").truthy then
      removeAt a.ns a.kind a.apiVersion a.name
    pure (true, changed)

/-- Deletes listed objects of a kind: an object with finalizers is only marked with a deletion
time (kept when already marked), any other is removed. Answers whether any object was
listed. -/
def deleteListed (kind : Value) (listed : List Value) (now : Stamp) : StoreM Bool := do
  for m in listed do
    let a ← StoreM.check (Address.read m)
    let s ← getThe Store
    let stored ← StoreM.check (do
      let kinds ← (s.content.lookup a.ns).elim (.error (Failure.missingKey a.ns.literal)) .ok
      let shelves ← (kinds.lookup kind).elim (.error (Failure.missingKey kind.literal)) .ok
      let shelf ← (shelves.lookup a.apiVersion).elim
        (.error (Failure.missingKey a.apiVersion.literal)) .ok
      (shelf.lookup a.name).elim (.error (Failure.missingKey a.name.literal)) .ok)
    let md := stored.getD "metadata"
    if (md.getD "finalizers").truthy then
      let md := if (md.get? "deletionTimestamp").isSome then md
        else md.set "deletionTimestamp" (.str now.zulu)
      alterShelves a.ns kind (·.alter a.apiVersion (·.put a.name (stored.set "metadata" md)))
    else removeAt a.ns kind a.apiVersion a.name
  pure !listed.isEmpty

/-- Deletes the objects of a kind that the selectors select, as the store lists them before the
first deletion. Answers whether any object was listed. -/
def deleteAll (kind ns apiVersion labelSelector fieldSelector : Value) (now : Stamp) :
    StoreM Bool := do
  let listed ← StoreM.check ((← getThe Store).list kind ns apiVersion labelSelector fieldSelector)
  deleteListed kind listed now

/-- Writes the status of the first object of a name whose version fits. Answers whether such
an object exists and whether its status changed. -/
def setStatus (kind name ns status apiVersion : Value) : StoreM (Bool × Bool) := do
  let s ← getThe Store
  let shelves ← StoreM.check (s.shelvesOf ns kind)
  if !shelves.isEmpty then StoreM.check (requireKey name)
  match shelves.find? (fun p => p.2.holds name && versionHeld apiVersion p.1) with
  | none => pure (false, false)
  | some (version, shelf) =>
    let current := (Table.lookup shelf name).getD .null
    if (current.getD "status").equiv status then return (true, false)
    let rv ← nextVersion
    let updated := (current.set "status" status).set "metadata"
      ((current.getD "metadata").set "resourceVersion" (.str rv))
    alterShelves ns kind (·.alter version (·.put name updated))
    pure (true, true)

/-- Every filed object, in filing order. -/
def objects (s : Store) : List Value :=
  s.content.entries.flatMap (fun kinds =>
    kinds.entries.flatMap (fun shelves => shelves.entries.flatMap Table.entries))

/-- The sort key of an address part: its text, and whether it is given (`null` sorts as the
empty text, before a given empty text). -/
def orderKey (v : Value) : String × Bool :=
  match v with
  | .null => ("", false)
  | .str t => (t, true)
  | other => (other.display, true)

/-- Lexicographic order on lists of sort keys. -/
def keysBefore : List (String × Bool) → List (String × Bool) → Bool
  | [], _ => true
  | _ :: _, [] => false
  | (t, g) :: r, (t', g') :: r' =>
    if t < t' then true else if t' < t then false
    else if g != g' then !g else keysBefore r r'

/-- The sort key of an object: its namespace, kind, version and name. -/
def addressKeys (o : Value) : List (String × Bool) :=
  let md := o.getD "metadata"
  [orderKey (md.getD "namespace"), orderKey (o.getD "kind"), orderKey (o.getD "apiVersion"),
   orderKey (md.getD "name")]

/-- Every filed object, sorted by namespace, kind, version and name. -/
def dump (s : Store) : List Value :=
  s.objects.mergeSort (fun a b => keysBefore (addressKeys a) (addressKeys b))

end Store

end OperandLifecycle.Cluster

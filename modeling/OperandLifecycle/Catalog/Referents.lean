import OperandLifecycle.Catalog.Lookup
import OperandLifecycle.Resource.Request
import OperandLifecycle.Resource.Registry
import OperandLifecycle.Json.Order
/-!
# Which requests refer to an operand

A request refers to an operand when one of its entries names it. The requests are listed
afresh, cluster-wide, on every question, and a request that is being deleted refers to
nothing.

* `referentsOf` finds the requests naming an operand, optionally only through a registry of a
  given name or namespace.
* `namespaceReferents` finds the requests whose entry for the operand resolves, through the
  entry's registry, to an operator installed in a given namespace. Each registry is fetched once
  per question.
* `deleteSafe` holds when no request but the triggering one refers to the operand through an
  operator in the namespace: only then may the operand's resources there be removed. The
  requests that remain are sorted for the log, so two of them that cannot be compared stop it
  with a type error.

The answers are sets: each request counts once. Referents sort by name, then namespace, in the
values' own order (`Value.less?`).
-/
namespace OperandLifecycle.Catalog

open Json Cluster Resource

/-- A request that refers to an operand, by name and namespace. -/
structure Referent where
  name : Value
  ns : Value

/-- The referent as an object with its name and namespace. -/
def Referent.toValue (r : Referent) : Value :=
  .obj [("name", r.name), ("namespace", r.ns)]

/-- Whether two referents are the same request, as a set of them compares its members: names
and namespaces equal, the one NaN matching itself. -/
def Referent.same (a b : Referent) : Bool := a.name.heldEquiv b.name && a.ns.heldEquiv b.ns

/-- A referent must be able to serve as a key. -/
def Referent.requireKey (r : Referent) : Except Failure Unit := do
  if !r.name.hashable then throw (unhashable r.name)
  if !r.ns.hashable then throw (unhashable r.ns)

/-- The referent of a request. -/
def Referent.ofView (v : View) : Referent := ⟨v.name, v.namespace⟩

/-- Adds a referent to a set of them, kept in order of first appearance. -/
def addReferent (found : List Referent) (r : Referent) : List Referent :=
  if found.any (·.same r) then found else found ++ [r]

/-- Whether a referent comes before another: by name, then by namespace. -/
def Referent.less? (a b : Referent) : Except Failure Bool := itemsLess? [a.name, a.ns] [b.name, b.ns]

/-- Referents sorted by name, then namespace; two that cannot be compared stop the sort. -/
def sortReferents (rs : List Referent) : Except Failure (List Referent) :=
  sortChecked Referent.less? rs

/-- Every request in the cluster. -/
def listRequests : ClusterM (List View) := do
  let (ok, manifests) ← listObjects (.str requestKind) .null (.str apiVersion) .null .null
  if !ok then throw (.cluster "Failed to list OperandRequests")
  ClusterM.check (manifests.mapM View.ofManifest)

/-- Whether a request counts: it is not excluded and not being deleted. -/
def counts (excluded : List Referent) (request : View) : Except Failure Bool := do
  let r := Referent.ofView request
  r.requireKey
  pure (!(excluded.any (·.same r)) && !request.deleting)

/-- The requests naming an operand, optionally only through a registry of the given name and
namespace, leaving out the excluded ones. -/
def referentsOf (operand registry registryNamespace : Value) (exclude : List Referent) :
    ClusterM (List Referent) := do
  ClusterM.check (exclude.forM Referent.requireKey)
  let mut found := []
  for request in ← listRequests do
    if !(← ClusterM.check (counts exclude request)) then continue
    if (← ClusterM.check (request.findOperand operand registry registryNamespace)).isSome then
      found := addReferent found (Referent.ofView request)
  pure found

/-- Registries fetched for one question, by namespace and name; `none` for a missing one. -/
abbrev RegistryCache := List ((Value × Value) × Option View)

/-- The registry of a namespace and name, fetched once per question. -/
def cachedRegistry (cache : RegistryCache) (ns name : Value) :
    ClusterM (Option View × RegistryCache) := do
  if !ns.hashable then throw (unhashable ns)
  if !name.hashable then throw (unhashable name)
  match cache.find? (fun p => p.1.1.equiv ns && p.1.2.equiv name) with
  | some (_, v) => pure (v, cache)
  | none =>
    let (ok, manifest) ← getObject (.str registryKind) name ns (.str apiVersion)
    if !ok then
      throw (.cluster ("Failed to fetch OperandRegistry " ++ ns.display ++ "/" ++ name.display))
    let v ← match manifest with
      | some m => if m.truthy then some <$> ClusterM.check (View.ofManifest m) else pure none
      | none => pure none
    pure (v, cache ++ [((ns, name), v)])

/-- The namespaces the operand's operator is installed into, for every entry of the request
naming it; an entry whose registry or operator is missing gives none. -/
def operatorNamespaces (request : View) (operand : Value) (cache : RegistryCache) :
    ClusterM (List Value × RegistryCache) := do
  let mut cache := cache
  let mut namespaces : List Value := []
  for entry in ← ClusterM.check request.requests do
    for found in ← ClusterM.check entry.operands do
      if !found.name.equiv operand then continue
      let (registry, cache') ← cachedRegistry cache entry.registryNamespace entry.registry
      cache := cache'
      let operator ← match registry with
        | some r => ClusterM.check (r.operatorNamed operand)
        | none => pure none
      if let some op := operator then
        let ns ← installNamespace op
        if !ns.hashable then throw (unhashable ns)
        if !namespaces.any (·.equiv ns) then namespaces := namespaces ++ [ns]
  pure (namespaces, cache)

/-- The requests whose entry for the operand resolves to an operator installed in the given
namespace, leaving out the excluded ones. -/
def namespaceReferents (operand operatorNs : Value) (exclude : List Referent) :
    ClusterM (List Referent) := do
  ClusterM.check (exclude.forM Referent.requireKey)
  let mut cache : RegistryCache := []
  let mut found := []
  for request in ← listRequests do
    if !(← ClusterM.check (counts exclude request)) then continue
    let (namespaces, cache') ← operatorNamespaces request operand cache
    cache := cache'
    if !operatorNs.hashable then throw (unhashable operatorNs)
    if namespaces.any (·.equiv operatorNs) then
      found := addReferent found (Referent.ofView request)
  pure found

/-- Whether the operand's resources in a namespace may be removed for the triggering request:
no other request refers to the operand through an operator installed there. -/
def deleteSafe (operand operatorNs : Value) (triggering : Referent) : ClusterM Bool := do
  let remaining ← namespaceReferents operand operatorNs [triggering]
  if !remaining.isEmpty then
    -- the remaining requests are sorted for the log line, even when nothing is logged
    let _ ← ClusterM.check (sortReferents remaining)
  pure remaining.isEmpty

end OperandLifecycle.Catalog

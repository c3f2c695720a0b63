import OperandLifecycle.Catalog.Examples
import OperandLifecycle.Cluster.Client
/-!
# Finding an operator's installation

An operator declared by a registry is installed through a Subscription in the operator's
namespace (`Catalog.operatorNamespace`), named after the operator or after its package; the
first of the two names that is given and found wins. The Subscription reports the
ClusterServiceVersion it resolved to (the installed one, else the current one), which lives in
the Subscription's namespace.

A failing lookup stops with a cluster failure that names the object looked for.
-/
namespace OperandLifecycle.Catalog

open Json Cluster Resource

/-- The distinct values of a list, in order of first appearance; every value must be able to
serve as a key. -/
def distinctKeys (vs : List Value) : Except Failure (List Value) :=
  vs.foldlM (fun acc v => do
    if !v.hashable then throw (unhashable v)
    pure (if acc.any (·.equiv v) then acc else acc ++ [v])) []

/-- The namespace of an operator under the current settings. -/
def installNamespace (op : Operator) : ClusterM Value := do
  pure (operatorNamespace (← ClusterM.setting "cluster_operator_namespace") op)

/-- The Subscription of an operator, if there is one. -/
def subscriptionOf (op : Operator) : ClusterM (Option Value) := do
  let ns ← installNamespace op
  let names ← ClusterM.check (distinctKeys [op.name, op.packageName])
  for name in names do
    if !name.truthy then continue
    let (ok, found) ← getObject (.str subscriptionKind) name ns (.str lifecycleApiVersion)
    if !ok then throw (.cluster ("Failed to fetch Subscription " ++ ns.display ++ "/" ++ name.display))
    if let some sub := found then
      -- the control label is read to tell managed subscriptions apart
      ClusterM.check (do
        let md ← sub.fieldOr "metadata" (.obj [])
        let _ ← Value.memberOf (.str controlLabel) (← md.field "labels").orEmpty
        pure ())
      return some sub
  return none

/-- The installation a Subscription resolved to, if it resolved and the installation exists. -/
def installationOf (subscription : Value) : ClusterM (Option Value) := do
  let status ← ClusterM.check (subscription.field "status")
  let status := status.orEmpty
  let installed ← ClusterM.check (status.field "installedCSV")
  let csvName ← if installed.truthy then pure installed else ClusterM.check (status.field "currentCSV")
  let md ← ClusterM.check (subscription.index "metadata")
  let ns ← ClusterM.check (md.field "namespace")
  if !csvName.truthy then
    let _ ← ClusterM.check (md.index "name")
    return none
  let (ok, csv) ← getObject (.str installationKind) csvName ns (.str lifecycleApiVersion)
  if !ok then
    throw (.cluster ("Failed to fetch ClusterServiceVersion " ++ ns.display ++ "/" ++ csvName.display))
  pure csv

/-- The Subscription of an operator and the installation it resolved to. -/
def installationOfOperator (op : Operator) : ClusterM (Option Value × Option Value) := do
  match ← subscriptionOf op with
  | none => pure (none, none)
  | some sub => pure (some sub, ← installationOf sub)

end OperandLifecycle.Catalog

import OperandLifecycle.Controllers.Basic
import OperandLifecycle.Json.Overlay
import OperandLifecycle.Status.Members
import OperandLifecycle.Status.Conditions
/-!
# The request controller

A request asks for operands through registries. For every operand it names, the controller
finds the operator in the registry, the operator's installation, and the example resources the
installation ships whose kind the configuration of the same name configures. Each such example
becomes a managed resource in the installation's namespace: the example with the configured
spec overlaid on its own, and the control and operand labels. A resource that exists already
gets the spec and labels when they differ.

An operand dropped from the request, and every operand when the request is deleted, is
removed: through every registry the request names or that lists the request among the
operand's requesters, its managed resources are deleted, but only those that carry the
operand's label and only when no other request still refers to the operand through an
operator in the same namespace (`Catalog.deleteSafe`). A deletion is checked once: a resource
still there, or back under another uid, is a timeout.

The request's status lists one member per operand with the operator's install phase and the
operand's phase, an overall phase, and conditions for what failed. An operator that is private
to its registry's namespace may not be requested from another namespace.

Registries and configurations are fetched once per reconcile (`ResourceCache`).
-/
namespace OperandLifecycle.Controllers

open Json Cluster Reconcile Resource Catalog Status

/-- Registries and configurations fetched in one reconcile, by kind, namespace and name;
`none` for a missing one. -/
structure ResourceCache where
  fetched : List ((String × Value × Value) × Option View)

/-- A request reconcile: a reconcile with its cache of fetched objects. -/
abbrev RequestM := ExceptT Failure (StateM (Reconciling × ResourceCache))

/-- Runs a reconcile step inside a request reconcile. -/
def liftReconcile {α : Type} (m : ReconcileM α) : RequestM α :=
  ExceptT.mk (modifyGet (fun (r, c) =>
    let (res, r') := (m.run).run r
    (res, (r', c))))

instance : MonadLift ReconcileM RequestM := ⟨liftReconcile⟩

/-- Stops with a failure of a check. -/
def RequestM.check {α : Type} (r : Except Failure α) : RequestM α := ExceptT.mk (pure r)

/-- Runs an item, answering the manager's own failure of it instead of stopping. -/
def tryItem {α : Type} (m : RequestM α) : RequestM (Except Failure α) :=
  tryCatch (do pure (.ok (← m))) (fun e => if e.isOwn then pure (.error e) else throw e)

/-- The object of a kind, namespace and name, fetched once per reconcile. -/
def cachedView (kind : String) (name ns : Value) : RequestM (Option View) := do
  if !ns.hashable then throw (unhashable ns)
  if !name.hashable then throw (unhashable name)
  let (_, cache) ← getThe (Reconciling × ResourceCache)
  match cache.fetched.find? (fun p => p.1.1 == kind && p.1.2.1.equiv ns && p.1.2.2.equiv name) with
  | some (_, v) => pure v
  | none =>
    let (ok, manifest) ← getObject (.str kind) name ns (.str apiVersion)
    if !ok then throw (.cluster ("Failed to fetch " ++ kind ++ " " ++ ns.display ++ "/" ++ name.display))
    let v ← match manifest with
      | some m => if m.truthy then some <$> RequestM.check (View.ofManifest m) else pure none
      | none => pure none
    modifyThe (Reconciling × ResourceCache) (fun (r, c) => (r, ⟨c.fetched ++ [((kind, ns, name), v)]⟩))
    pure v

/-- The labels of a managed resource of an operand. -/
def managedLabels (operand : Value) : Fields := [(controlLabel, .str "true"), (operandLabel, operand)]

/-- Labels as a map, which a false value stands for empty. -/
def labelMap (v : Value) : Except Failure Fields :=
  match v.orEmpty with
  | .obj fs => .ok fs
  | other => .error (.raised .typeError ("'" ++ other.typeName ++ "' object is not a mapping"))

/-- Labels with others laid over them. -/
def overlayLabels (base extra : Fields) : Fields :=
  extra.foldl (fun acc (k, v) => Fields.insert acc k v) base

/-- A merge side as a document: a text is JSON text. -/
def documentOf : Option Value → Document
  | none => .absent
  | some (.str s) => .text s
  | some v => .value v

/-- A status key set on a status that must be an object. -/
def assignKey (status : Value) (k : String) (x : Value) : Except Failure Value :=
  match status with
  | .obj _ => .ok (status.set k x)
  | .arr _ => .error (.raised .typeError "list indices must be integers or slices, not str")
  | other => .error (.raised .typeError ("'" ++ other.typeName ++ "' object does not support item assignment"))

/-! ## Converging an operand -/

/-- Creates the managed resource of an example, or brings the existing one up to date. -/
def applyResource (sample spec ns operand : Value) : RequestM Unit := do
  let kind ← RequestM.check (sample.index "kind")
  let merged ← RequestM.check (mergeDocuments (documentOf (sample.get? "spec")) (documentOf (some spec)))
  let resource := sample.set "spec" (.obj merged)
  let md := (resource.get? "metadata").getD (.obj [])
  let name ← RequestM.check (md.field "name")
  if !name.truthy then
    throw (.config ("Example " ++ kind.display ++ " for " ++ operand.display ++ " has no name"))
  let md := ((["resourceVersion", "uid", "creationTimestamp"].foldl Value.erase md).set "namespace" ns)
  let labels ← RequestM.check (do labelMap (← md.field "labels"))
  let managed := managedLabels operand
  let resource := resource.set "metadata" (md.set "labels" (.obj (overlayLabels labels managed)))
  let at_ := kind.display ++ " " ++ ns.display ++ "/" ++ name.display
  let (ok, created) ← create resource
  if !ok then throw (.cluster ("Failed to create " ++ at_))
  if created then return
  let (ok, current) ← getObject kind name ns (resource.getD "apiVersion")
  let some current := (if ok then current else none)
    | throw (.cluster ("Failed to fetch existing " ++ at_))
  let curMd ← RequestM.check (current.index "metadata")
  let curLabels := (← RequestM.check (curMd.field "labels")).orEmpty
  if (current.getD "spec").equiv (resource.getD "spec") then
    let upToDate ← RequestM.check (managed.allM (fun (k, v) => do pure ((← curLabels.field k).equiv v)))
    if upToDate then return
  let labels ← RequestM.check (labelMap curLabels)
  let current := (current.set "spec" (resource.getD "spec")).set "metadata"
    (curMd.set "labels" (.obj (overlayLabels labels managed)))
  let (ok, _) ← update current
  if !ok then throw (.cluster ("Failed to update " ++ at_))

/-- Converges the managed resources of one operand through one request entry. Answers the
phase of every kind attempted, and the failures of single kinds. -/
def reconcileOperand (entry : RequestEntry) (operand : Value) :
    RequestM (List (String × ServicePhase) × List Failure) := do
  let place := entry.registryNamespace.display ++ "/" ++ entry.registry.display
  let some config ← cachedView configKind entry.registry entry.registryNamespace
    | throw (.precondition ("OperandConfig " ++ place ++ " not found"))
  let some service ← RequestM.check (config.serviceNamed operand) | return ([], [])
  let some registry ← cachedView registryKind entry.registry entry.registryNamespace
    | throw (.precondition ("OperandRegistry " ++ place ++ " not found"))
  let some op ← RequestM.check (registry.operatorNamed operand)
    | throw (.config ("Operator " ++ operand.display ++ " not declared in OperandRegistry " ++
        registry.namespace.display ++ "/" ++ registry.name.display))
  let (_, csv) ← installationOfOperator op
  let some csv := csv | return ([], [])
  let ns ← RequestM.check (do (← csv.index "metadata").index "namespace")
  let samples ← RequestM.check (examplesOf csv)
  let mut kinds : List (String × ServicePhase) := []
  let mut errors : List Failure := []
  for sample in samples do
    let kind ← RequestM.check (sample.index "kind")
    let some (_, spec) ← RequestM.check (service.matchKind kind) | continue
    let phase ← match ← tryItem (applyResource sample spec ns operand) with
      | .error e =>
        errors := errors ++ [e]
        pure ServicePhase.failed
      | .ok () => pure ServicePhase.running
    let k := kind.display
    kinds := if kinds.any (·.1 == k) then kinds.map (fun p => if p.1 == k then (k, phase) else p)
      else kinds ++ [(k, phase)]
  return (kinds, errors)

/-- The registry an entry names, fetched once per reconcile, and the operator it declares for an
operand. -/
def entryOperator (entry : RequestEntry) (operand : Value) :
    RequestM (Option View × Option Operator) := do
  let registry ← cachedView registryKind entry.registry entry.registryNamespace
  let operator ← match registry with
    | some r => RequestM.check (r.operatorNamed operand)
    | none => pure none
  pure (registry, operator)

/-- The install phase of the operator behind an operand of a request entry. -/
def operatorPhaseOf (entry : RequestEntry) (operand : Value) : RequestM CsvPhase := do
  let (_, operator) ← entryOperator entry operand
  let some op := operator | return .none
  let (sub, csv) ← installationOfOperator op
  if sub.isNone then return .none
  let some csv := csv | return .pending
  let st ← RequestM.check (csv.field "status")
  pure (CsvPhase.read (← RequestM.check (st.orEmpty.field "phase")))

/-! ## Removing an operand -/

/-- Deletes the managed resource of one example, when it carries the operand's label, and
checks once that it is gone. -/
def deleteResource (sample ns operand : Value) : RequestM Unit := do
  let kind ← RequestM.check (sample.index "kind")
  let apiVersion := sample.getD "apiVersion"
  let name ← RequestM.check (do (← sample.field "metadata").orEmpty.field "name")
  if !name.truthy then return
  let at_ := kind.display ++ " " ++ ns.display ++ "/" ++ name.display
  let (ok, current) ← getObject kind name ns apiVersion
  if !ok then throw (.cluster ("Failed to fetch " ++ at_))
  let some current := current | return
  let curMd ← RequestM.check (current.index "metadata")
  let labels := (← RequestM.check (curMd.field "labels")).orEmpty
  if !(← RequestM.check (labels.field operandLabel)).equiv operand then return
  let (ok, _) ← deleteAll kind ns apiVersion (.str (operandLabel ++ "=" ++ operand.display))
    (.str ("metadata.name=" ++ name.display))
  if !ok then throw (.cluster ("Failed to delete " ++ at_))
  let uid ← RequestM.check (curMd.field "uid")
  -- the deletion is checked once
  let (ok, after) ← getObject kind name ns apiVersion
  if !ok then throw (.cluster ("Failed to fetch " ++ at_))
  let some after := after | return
  let afterUid ← RequestM.check (do (← after.index "metadata").field "uid")
  if uid.truthy && !afterUid.equiv uid then
    throw (.pollTimeout (at_ ++ " was recreated while being deleted"))
  throw (.pollTimeout ("Timed out waiting for " ++ at_ ++ " to be deleted"))

/-- Deletes the managed resources of an operand through one registry, when no other request
still refers to the operand there. -/
def deleteOperand (registry : View) (operand : Value) (referent : Referent) : RequestM Unit := do
  let operator ← RequestM.check (registry.operatorNamed operand)
  let config ← cachedView configKind registry.name registry.namespace
  let service ← match config with
    | some c => RequestM.check (c.serviceNamed operand)
    | none => pure none
  let (some op, some service) := (operator, service) | return
  let (_, csv) ← installationOfOperator op
  let some csv := csv | return
  let ns ← RequestM.check (do (← csv.index "metadata").index "namespace")
  if !(← deleteSafe operand ns referent) then return
  let samples ← RequestM.check (examplesOf csv)
  let mut errors : List Failure := []
  for sample in samples do
    let kind ← RequestM.check (sample.index "kind")
    if (← RequestM.check (service.matchKind kind)).isNone then continue
    if let .error e ← tryItem (deleteResource sample ns operand) then errors := errors ++ [e]
  if errors.isEmpty then
    let _ ← ReconcileM.recordEvent .normal "Deleted" ("Deleted operand " ++ operand.display)
  liftReconcile (raiseGathered errors)

/-- Whether a registry's status lists the request among the operand's requesters. -/
def listsRequester (registry : View) (operand : Value) (referent : Referent) :
    Except Failure Bool := do
  let entry ← match ← registry.operatorsStatus with
    | .obj fs => pure ((← Fields.lookup fs operand).getD .null)
    | other => throw (notAnObject other "get")
  Value.memberOf referent.toValue ((← entry.orEmpty.field "reconcileRequests").or (.arr []))

/-- Removes an operand through every registry the request names, or that lists the request
among the operand's requesters. -/
def removeOperand (request : View) (operand : Value) : RequestM Unit := do
  let referent := Referent.ofView request
  let mut registries : List ((Value × Value) × View) := []
  for entry in ← RequestM.check request.requests do
    if let some r ← cachedView registryKind entry.registry entry.registryNamespace then
      registries := if registries.any (fun p => p.1.1.equiv r.namespace && p.1.2.equiv r.name)
        then registries.map (fun p => if p.1.1.equiv r.namespace && p.1.2.equiv r.name then (p.1, r) else p)
        else registries ++ [((r.namespace, r.name), r)]
  let (ok, manifests) ← listObjects (.str registryKind) .null (.str apiVersion) .null .null
  if !ok then throw (.cluster "Failed to list OperandRegistries")
  for m in manifests do
    let r ← RequestM.check (View.ofManifest m)
    let listed ← RequestM.check (listsRequester r operand referent)
    if listed && !registries.any (fun p => p.1.1.equiv r.namespace && p.1.2.equiv r.name) then
      registries := registries ++ [((r.namespace, r.name), r)]
  let mut errors : List Failure := []
  for (_, r) in registries do
    if let .error e ← tryItem (deleteOperand r operand referent) then errors := errors ++ [e]
  liftReconcile (raiseGathered errors)

/-! ## Reconciling and finalizing a request

A reconcile runs in three phases over the request's entries, each a loop of turns: the members
the request no longer names are dropped (`dropTurn`), every requested operand is converged
(`convergeTurn`), and every operand gets its member (`memberTurn`). A `Tally` carries what the
phases gather for the status: the status itself, the failures and the conditions. -/

/-- The names of a request's operands, in order. -/
def operandNames (request : View) : RequestM (List (RequestEntry × Operand)) := do
  let mut pairs := []
  for entry in ← RequestM.check request.requests do
    for operand in ← RequestM.check entry.operands do
      pairs := pairs ++ [(entry, operand)]
  pure pairs

/-- A condition about an operand, stamped now. -/
def operandCondition (type : String) (e : Failure) : RequestM Value := do
  pure (makeCondition (.str type) (.bool false) (.str e.kindName) (.str e.message) (← ClusterM.now))

/-- What a reconcile gathers for the status it publishes: the status so far, the failures to
raise at the end and the conditions to merge in. -/
structure Tally where
  status : Value
  errors : List Failure
  conditions : List Value

/-- The names of an entry's operands after the names found so far, each checked to serve as a
key. -/
def entryNames (entry : RequestEntry) (requested : List Value) : RequestM (List Value) := do
  let mut requested := requested
  for operand in ← RequestM.check entry.operands do
    if !operand.name.hashable then throw (unhashable operand.name)
    requested := requested ++ [operand.name]
  pure requested

/-- The names the request's entries ask for, in order, each checked to serve as a key. -/
def requestedNames (request : View) : RequestM (List Value) := do
  let mut requested : List Value := []
  for entry in ← RequestM.check request.requests do
    requested ← entryNames entry requested
  pure requested

/-- One member of the status: unless the request still names its operand, the operand is
removed and the member goes, or stays marked deleting, with a condition, when the removal
fails. -/
def dropTurn (request : View) (requested : List Value) (t : Tally) (member : Value) :
    RequestM Tally := do
  let name ← RequestM.check (member.field "name")
  if !name.hashable then throw (unhashable name)
  if requested.any (·.equiv name) then return t
  match ← tryItem (removeOperand request name) with
  | .error e =>
    let condition ← operandCondition "Deleting" e
    let opPhase ← RequestM.check (do
      pure (CsvPhase.read (← (← member.field "phase").orEmpty.field "operatorPhase")))
    let status := (← RequestM.check (setMember t.status name opPhase .deleting)).2
    pure ⟨status, t.errors ++ [e], t.conditions ++ [condition]⟩
  | .ok () => pure { t with status := (← RequestM.check (removeMember t.status name)).2 }

/-- Removes the operands of the members the request no longer names. -/
def dropMembers (request : View) (requested : List Value) (t : Tally) : RequestM Tally := do
  let listed ← RequestM.check (do ((← t.status.field "members").or (.arr [])).iterate)
  let mut t := t
  for member in listed do
    t ← dropTurn request requested t member
  pure t

/-- The phases per kind of each operand converged so far, and the operands found out of
scope. -/
structure Converged where
  results : List (Value × List (String × ServicePhase))
  outOfScope : List Value

/-- Folds the phases of the kinds attempted through one entry into an operand's phases: a kind
that failed through any entry stays failed. -/
def foldKinds (acc kinds : List (String × ServicePhase)) : List (String × ServicePhase) :=
  kinds.foldl (fun acc (k, ph) =>
    if acc.any (fun q => q.1 == k && q.2 == .failed) then acc
    else if acc.any (·.1 == k) then acc.map (fun q => if q.1 == k then (k, ph) else q)
    else acc ++ [(k, ph)]) acc

/-- Marks an operand failed as a whole. -/
def markFailed (kinds : List (String × ServicePhase)) : List (String × ServicePhase) :=
  if kinds.any (·.1 == "") then kinds.map (fun q => if q.1 == "" then ("", .failed) else q)
  else kinds ++ [("", .failed)]

/-- Changes the phases of an operand. -/
def alterResult (results : List (Value × List (String × ServicePhase))) (name : Value)
    (f : List (String × ServicePhase) → List (String × ServicePhase)) :
    List (Value × List (String × ServicePhase)) :=
  results.map (fun p => if !p.1.equiv name then p else (p.1, f p.2))

/-- Converges one operand through one entry: a private operator of another namespace is out of
scope, any other is reconciled; a failure becomes a condition and, unless out of scope, a
warning event. -/
def convergeTurn (request : View) (entry : RequestEntry) (operand : Operand)
    (acc : Converged × Tally) : RequestM (Converged × Tally) := do
  let (c, t) := acc
  let name := operand.name
  if !name.hashable then throw (unhashable name)
  let results := if !c.results.any (·.1.equiv name) then c.results ++ [(name, [])] else c.results
  let mut outOfScope := c.outOfScope
  let found ← tryItem (entryOperator entry name)
  let outcome ← match found with
    | .error e => pure (Except.error e)
    | .ok (some r, some op) =>
      if op.isPrivate && !request.namespace.equiv r.namespace then
        outOfScope := outOfScope ++ [name]
        let message := "Operator " ++ name.display ++ " in OperandRegistry " ++
          r.namespace.display ++ "/" ++ r.name.display ++ " is private"
        let _ ← ReconcileM.recordEvent .warning "OutofScope" message
        pure (Except.error (Failure.config message))
      else tryItem (reconcileOperand entry name)
    | .ok _ => tryItem (reconcileOperand entry name)
  match outcome with
  | .ok (kinds, failures) =>
    pure (⟨alterResult results name (foldKinds · kinds), outOfScope⟩,
      { t with errors := t.errors ++ failures })
  | .error e =>
    let isOutOfScope := outOfScope.any (·.equiv name)
    let condType := match e with
      | .precondition _ => "NotFound"
      | _ => if isOutOfScope then "OutofScope" else "Failed"
    if !isOutOfScope then
      let _ ← ReconcileM.recordEvent .warning condType e.message
    let condition ← operandCondition condType e
    pure (⟨alterResult results name markFailed, outOfScope⟩,
      { t with errors := t.errors ++ [e], conditions := t.conditions ++ [condition] })

/-- Converges every requested operand, entry by entry. -/
def convergeOperands (request : View) (t : Tally) : RequestM (Converged × Tally) := do
  let mut acc : Converged × Tally := (⟨[], []⟩, t)
  for entry in ← RequestM.check request.requests do
    for operand in ← RequestM.check entry.operands do
      acc ← convergeTurn request entry operand acc
  pure acc

/-- Gives an operand its member, once, with the install phase of its first entry and the phase
of its kinds. -/
def memberTurn (c : Converged) (entry : RequestEntry) (operand : Operand)
    (acc : List Value × Tally) : RequestM (List Value × Tally) := do
  let (membered, t) := acc
  let name := operand.name
  if membered.any (·.equiv name) then return acc
  let (opPhase, errors) ← if c.outOfScope.any (·.equiv name) then pure (CsvPhase.failed, t.errors)
    else match ← tryItem (operatorPhaseOf entry name) with
      | .ok p => pure (p, t.errors)
      | .error e => pure (CsvPhase.unknown, t.errors ++ [e])
  let kinds := ((c.results.find? (·.1.equiv name)).map (·.2)).getD []
  let status := (← RequestM.check (setMember t.status name opPhase (operandPhase (kinds.map (·.2))))).2
  pure (membered ++ [name], { t with status := status, errors := errors })

/-- Gives every operand of the request its member. -/
def publishMembers (request : View) (c : Converged) (t : Tally) : RequestM Tally := do
  let mut acc : List Value × Tally := ([], t)
  for entry in ← RequestM.check request.requests do
    for operand in ← RequestM.check entry.operands do
      acc ← memberTurn c entry operand acc
  pure acc.2

/-- The status with the overall phase of its members and the conditions merged in. -/
def finishStatus (t : Tally) : Except Failure Value := do
  let members ← (← t.status.field "members").itemsOrEmpty
  let phase ← requestPhase members
  let status ← assignKey t.status "phase" (.str phase.word)
  let previous ← (← status.field "conditions").itemsOrEmpty
  let merged ← mergeConditions previous t.conditions
  assignKey status "conditions" (.arr merged)

/-- Converges every operand of the session's request and publishes its members, phase and
conditions. -/
def reconcileRequestM : RequestM Unit := do
  let s ← ReconcileM.session
  let request ← RequestM.check (View.ofManifest s.manifest)
  let requested ← requestedNames request
  let t ← dropMembers request requested ⟨s.status, [], []⟩
  let (c, t) ← convergeOperands request t
  let t ← publishMembers request c t
  let status ← RequestM.check (finishStatus t)
  let _ ← ReconcileM.setStatus status
  liftReconcile (raiseGathered t.errors)

/-- Removes every operand of the session's request before it is deleted. -/
def finalizeRequestM : RequestM Unit := do
  let s ← ReconcileM.session
  let request ← RequestM.check (View.ofManifest s.manifest)
  let status ← RequestM.check (assignKey s.status "phase" (.str ServicePhase.deleting.word))
  let _ ← ReconcileM.setStatus status
  let mut names : List Value := (← operandNames request).map (·.2.name)
  for member in ← RequestM.check (do (← request.members).iterate) do
    names := names ++ [← RequestM.check (member.field "name")]
  let mut distinct : List Value := []
  for name in names do
    if !name.hashable then throw (unhashable name)
    if !distinct.any (·.equiv name) then distinct := distinct ++ [name]
  let mut errors : List Failure := []
  for name in distinct do
    if let .error e ← tryItem (removeOperand request name) then errors := errors ++ [e]
  liftReconcile (raiseGathered errors)

/-- Runs a request reconcile with an empty cache. -/
def withCache (m : RequestM Unit) : ReconcileM Unit :=
  ExceptT.mk (modifyGet (fun r =>
    let (res, (r', _)) := (m.run).run (r, ⟨[]⟩)
    (res, r')))

/-- Reconciles the session's request. -/
def reconcileRequest : ReconcileM Unit := withCache reconcileRequestM

/-- Finalizes the session's request. -/
def finalizeRequest : ReconcileM Unit := withCache finalizeRequestM

end OperandLifecycle.Controllers

import OperandLifecycle.Proofs.Injection
import OperandLifecycle.Proofs.References
import OperandLifecycle.Controllers.Registry
/-!
# What a registry publishes

A reconcile of a registry looks up, for each operator it declares, the operator's installation
and the requests that name it through the registry, and publishes an entry per operator. Under
failure injection any lookup may fail; what a lookup answers is still what the store holds
(`readsUnder_installationOfOperator`, `readsUnder_referentsOf`).
-/

namespace OperandLifecycle.Catalog

open Json Cluster Resource

/-! ### Twins of the installation lookups -/

/-- Reads a Subscription's labels, as the lookup does to tell managed Subscriptions apart. -/
def readLabels (sub : Value) : Except Failure Unit := do
  let md ← sub.fieldOr "metadata" (.obj [])
  let _ ← Value.memberOf (.str controlLabel) (← md.field "labels").orEmpty
  pure ()

/-- The first of the names that is given and names a Subscription in the namespace. -/
def subscriptionAmong (s : Store) (ns : Value) : List Value → Except Failure (Option Value)
  | [] => pure none
  | name :: rest =>
    if !name.truthy then subscriptionAmong s ns rest
    else do
      match ← s.get (.str subscriptionKind) name ns (.str lifecycleApiVersion) with
      | some sub =>
        readLabels sub
        pure (some sub)
      | none => subscriptionAmong s ns rest

/-- The Subscription of an operator in the store, named after the operator or its package. -/
def subscriptionIn (s : Store) (shared : Value) (op : Operator) : Except Failure (Option Value) := do
  subscriptionAmong s (operatorNamespace shared op) (← distinctKeys [op.name, op.packageName])

/-- The installation a Subscription resolved to, as the store holds it. -/
def installationIn (s : Store) (subscription : Value) : Except Failure (Option Value) := do
  let status := (← subscription.field "status").orEmpty
  let installed ← status.field "installedCSV"
  let csvName ← if installed.truthy then pure installed else status.field "currentCSV"
  let md ← subscription.index "metadata"
  let ns ← md.field "namespace"
  if !csvName.truthy then
    let _ ← md.index "name"
    return none
  s.get (.str installationKind) csvName ns (.str lifecycleApiVersion)

/-- An operator's Subscription and the installation it resolved to, as the store holds them. -/
def installationOfIn (s : Store) (shared : Value) (op : Operator) :
    Except Failure (Option Value × Option Value) := do
  match ← subscriptionIn s shared op with
  | none => pure (none, none)
  | some sub => pure (some sub, ← installationIn s sub)

/-! ### Lookups under failure injection -/

section Faults

variable {w : World}

theorem readsUnder_installNamespace (op : Operator) :
    ReadsUnder Eq (installNamespace op) (pure (operatorNamespace (sharedNamespace w) op)) w :=
  ⟨fun p => ⟨p, rfl⟩, fun _ _ h => ⟨_, rfl, by cases h; rfl⟩⟩

theorem readsUnder_subscriptionOf (op : Operator) :
    ReadsUnder Eq (subscriptionOf op) (subscriptionIn w.store (sharedNamespace w) op) w := by
  unfold subscriptionOf subscriptionIn
  refine ReadsUnder.bind_pure (g := fun ns => distinctKeys [op.name, op.packageName] >>=
    fun names => subscriptionAmong w.store ns names) (readsUnder_installNamespace op) ?_
  rintro ns rfl
  refine ReadsUnder.bind (ReadsUnder.check _) ?_
  rintro names _ - rfl
  -- the loop stops at the first name that is given and found
  induction names with
  | nil => exact ReadsUnder.pure' rfl
  | cons name rest ih =>
    rw [List.forIn_cons, bind_assoc]
    by_cases hn : name.truthy = true
    swap
    · simp only [hn, Bool.not_false, if_true, pure_bind, subscriptionAmong]
      exact ih
    simp only [hn, Bool.not_true, Bool.false_eq_true, if_false, bind_assoc, subscriptionAmong]
    refine ReadsUnder.bind_pure (g := fun found => found >>= fun x => match x with
      | some sub => readLabels sub >>= fun _ => pure (some sub)
      | none => subscriptionAmong w.store (operatorNamespace (sharedNamespace w) op) rest)
      (readsUnder_getObject _ _ _ _) ?_
    rintro ⟨ok, found⟩ hok
    cases ok
    · simp only [Bool.not_false, if_true, bind_assoc]
      exact ReadsUnder.throw_bind _ _ _
    simp only [hok rfl, Bool.not_true, Bool.false_eq_true, if_false, except_ok_bind]
    cases found with
    | none => simpa using ih
    | some sub =>
      simp only [bind_assoc, pure_bind]
      exact ReadsUnder.bind (ReadsUnder.check _) (fun _ _ _ _ => ReadsUnder.pure' rfl)

theorem readsUnder_installationOf (subscription : Value) :
    ReadsUnder Eq (installationOf subscription) (installationIn w.store subscription) w := by
  unfold installationOf installationIn
  refine ReadsUnder.bind (ReadsUnder.check _) ?_
  rintro status _ - rfl
  refine ReadsUnder.bind (ReadsUnder.check _) ?_
  rintro installed _ - rfl
  -- the installation is named by the installed version, else by the current one
  by_cases hi : installed.truthy = true <;>
    simp only [hi, if_true, Bool.false_eq_true, if_false] <;>
    refine ReadsUnder.bind (by first | exact ReadsUnder.pure' rfl | exact ReadsUnder.check _) ?_ <;>
    rintro csvName _ - rfl <;>
    refine ReadsUnder.bind (ReadsUnder.check _) ?_ <;>
    rintro md _ - rfl <;>
    refine ReadsUnder.bind (ReadsUnder.check _) ?_ <;>
    rintro ns _ - rfl <;>
    by_cases hc : csvName.truthy = true <;>
    simp only [hc, Bool.not_true, Bool.not_false, Bool.false_eq_true, if_true, if_false]
  all_goals first
    | exact ReadsUnder.bind (ReadsUnder.check _) (fun _ _ _ _ => ReadsUnder.pure' rfl)
    | refine ReadsUnder.bind_pure (g := id) (readsUnder_getObject _ _ _ _) ?_
      rintro ⟨ok, csv⟩ hok
      cases ok
      · simp only [Bool.not_false, if_true]
        exact ReadsUnder.throw_bind _ _ _
      · simp only [hok rfl, Bool.not_true, Bool.false_eq_true, if_false]
        exact ReadsUnder.pure' rfl

theorem readsUnder_installationOfOperator (op : Operator) :
    ReadsUnder Eq (installationOfOperator op) (installationOfIn w.store (sharedNamespace w) op) w := by
  unfold installationOfOperator installationOfIn
  refine ReadsUnder.bind (readsUnder_subscriptionOf op) ?_
  rintro sub _ - rfl
  cases sub with
  | none => exact ReadsUnder.pure' rfl
  | some sub =>
    exact ReadsUnder.bind (readsUnder_installationOf sub) (fun _ _ _ h => ReadsUnder.pure' (by rw [h]))

theorem readsUnder_listRequests : ReadsUnder Eq listRequests (requestsIn w.store) w := by
  unfold listRequests requestsIn
  refine ReadsUnder.bind_pure (g := fun found => found >>= fun ms => ms.mapM View.ofManifest)
    (readsUnder_listObjects _ _ _ _ _) ?_
  rintro ⟨ok, manifests⟩ hok
  cases ok
  · simp only [Bool.not_false, if_true]
    exact ReadsUnder.throw_bind _ _ _
  · simp only [hok rfl, Bool.not_true, Bool.false_eq_true, if_false, except_ok_bind]
    exact ReadsUnder.check _

/-- The requests naming an operand, under failure injection, answer as the fresh selection. -/
theorem readsUnder_referentsOf (operand registry registryNamespace : Value)
    (exclude : List Referent) :
    ReadsUnder Eq (referentsOf operand registry registryNamespace exclude)
      (freshReferents w.store operand registry registryNamespace exclude) w := by
  unfold referentsOf freshReferents selectReferents selectStep
  refine ReadsUnder.bind (ReadsUnder.check _) ?_
  rintro u _ - rfl
  dsimp only
  refine ReadsUnder.bind readsUnder_listRequests ?_
  rintro views _ - rfl
  refine ReadsUnder.bind_reshape (ReadsUnder.forIn (fun found found' => found = found') rfl ?_) ?_
  · rintro request - found found' rfl
    refine ReadsUnder.bind (ReadsUnder.check _) ?_
    rintro b _ - rfl
    cases b
    · exact ReadsUnder.pure' ⟨_, rfl, rfl⟩
    simp only [Bool.not_true, Bool.false_eq_true, if_false, bind_map_left]
    refine ReadsUnder.bind (ReadsUnder.check _) ?_
    rintro o _ - rfl
    cases o.isSome <;>
      simp only [Bool.false_eq_true, if_true, if_false] <;>
      exact ReadsUnder.pure' ⟨_, rfl, rfl⟩
  · rintro found found' rfl
    rfl

end Faults

end OperandLifecycle.Catalog

namespace OperandLifecycle.Controllers

open Json Cluster Reconcile Resource Catalog Status

variable {α : Type}

/-! ### Running a reconcile -/

theorem run_session (r : Reconciling) : (ReconcileM.session).run.run r = (.ok r.session, r) := rfl

theorem run_reconcileCheck (x : Except Failure α) (r : Reconciling) :
    (ReconcileM.check x).run.run r = (x, r) := rfl

theorem run_liftCluster (m : ClusterM α) (r : Reconciling) :
    (liftCluster m : ReconcileM α).run.run r =
      ((m.run.run r.world).1, { r with world := (m.run.run r.world).2 }) := rfl

theorem run_liftM (m : ClusterM α) (r : Reconciling) :
    (liftM m : ReconcileM α).run.run r =
      ((m.run.run r.world).1, { r with world := (m.run.run r.world).2 }) := rfl

/-- An attempt answers the manager's own failure and passes any other on. -/
theorem run_attempt (m : ReconcileM α) (r : Reconciling) :
    (attempt m).run.run r = match m.run.run r with
      | (.ok a, r') => (.ok (.ok a), r')
      | (.error e, r') => if e.isOwn then (.ok (.error e), r') else (.error e, r') := by
  unfold attempt
  rw [ExceptT.run_tryCatch, StateT.run_bind, ExceptT.run_bind, StateT.run_bind]
  rcases m.run.run r with ⟨e | a, r'⟩
  · cases e <;> rfl
  · rfl

/-! ### One operator's turn -/

/-- An operator's lookups: its installation, then the requests that name it through the
registry. -/
def registryLookups (registry : View) (op : Operator) :
    ClusterM (Option Value × Option Value × List Referent) := do
  let (sub, csv) ← installationOfOperator op
  let refs ← referentsOf op.name registry.name registry.namespace []
  pure (sub, csv, refs)

/-- The lookups of an operator inside a reconcile. -/
def liftedLookups (registry : View) (op : Operator) :
    ReconcileM (Option Value × Option Value × List Referent) := do
  let (sub, csv) ← installationOfOperator op
  let refs ← referentsOf op.name registry.name registry.namespace []
  pure (sub, csv, refs)

theorem run_liftedLookups (registry : View) (op : Operator) (r : Reconciling) :
    (liftedLookups registry op).run.run r = (liftCluster (registryLookups registry op)).run.run r := by
  unfold liftedLookups registryLookups
  rw [run_liftCluster, run_run_bind, run_run_bind, run_liftM]
  rcases (installationOfOperator op).run.run r.world with ⟨e | ⟨sub, csv⟩, w'⟩
  · rfl
  · simp only [run_run_bind, run_liftM]
    rcases (referentsOf op.name registry.name registry.namespace []).run.run w' with
      ⟨e | refs, w''⟩ <;> rfl

/-- What the store answers to an operator's lookups. -/
def lookupsIn (s : Store) (shared : Value) (registry : View) (op : Operator) :
    Except Failure (Option Value × Option Value × List Referent) := do
  let (sub, csv) ← installationOfIn s shared op
  let refs ← freshReferents s op.name registry.name registry.namespace []
  pure (sub, csv, refs)

theorem readsUnder_registryLookups {w : World} (registry : View) (op : Operator) :
    ReadsUnder Eq (registryLookups registry op) (lookupsIn w.store (sharedNamespace w) registry op) w := by
  unfold registryLookups lookupsIn
  refine ReadsUnder.bind (readsUnder_installationOfOperator op) ?_
  rintro ⟨sub, csv⟩ _ - rfl
  exact ReadsUnder.bind (readsUnder_referentsOf _ _ _ _) (fun _ _ _ h => ReadsUnder.pure' (by rw [h]))

/-- The entry a registry publishes for an operator whose lookups answered: the operator's
install phase and the requests that name it, sorted. -/
def operatorEntry (sub csv : Option Value) (refs : List Referent) : Except Failure Value := do
  let phase ← operatorInstallPhase sub csv
  let requests ← referentValues refs
  pure (.obj [("phase", .str phase.word), ("reconcileRequests", requests)])

/-- An operator with what its lookups came to. -/
abbrev Turn := Operator × Except Failure (Option Value × Option Value × List Referent)

/-- The entry a turn publishes under its operator's name, if any: the operator's entry when its
lookups answered; the entry published before, if there was one, when they failed on one of the
manager's own failures. Any other failure stops the reconcile. -/
def turnEntry (previous : Value) (t : Turn) : Except Failure (Option Value) :=
  match t.2 with
  | .ok (sub, csv, refs) => some <$> operatorEntry sub csv refs
  | .error e =>
    if e.isOwn then do
      if ← Value.memberOf t.1.name previous then some <$> previous.subscript t.1.name
      else pure none
    else throw e

/-- The failure a turn gathers, if its lookups failed. -/
def turnFailures (t : Turn) : List Failure :=
  match t.2 with
  | .ok _ => []
  | .error e => [e]

/-- A turn on the entries and failures gathered so far. -/
def publishStep (previous : Value) (acc : Fields × List Failure) (t : Turn) :
    Except Failure (Fields × List Failure) := do
  let entry ← turnEntry previous t
  pure ((entry.map (Fields.insert acc.1 t.1.name.keyText)).getD acc.1, acc.2 ++ turnFailures t)

/-- The status a reconcile of a registry hands over after the turns of its operators, with the
failures it gathered. -/
def publishedStatus (previous : Value) (turns : List Turn) : Except Failure (Value × List Failure) := do
  let acc ← turns.foldlM (publishStep previous) ([], [])
  let phase ← registryPhase acc.1
  pure (.obj [("phase", .str phase.word), ("operatorsStatus", .obj acc.1)], acc.2)

/-- One operator's turn of `reconcileRegistry`. -/
def registryTurn (registry : View) (previous : Value) (op : Operator)
    (acc : Fields × List Failure) : ReconcileM (ForInStep (Fields × List Failure)) := do
  let outcome ← attempt (liftedLookups registry op)
  match outcome with
  | .error e =>
    let errors := acc.2 ++ [e]
    if ← ReconcileM.check (Value.memberOf op.name previous) then
      let entry ← ReconcileM.check (previous.subscript op.name)
      pure (.yield (Fields.insert acc.1 op.name.keyText entry, errors))
    else pure (.yield (acc.1, errors))
  | .ok (sub, csv, refs) =>
    let phase ← ReconcileM.check (operatorInstallPhase sub csv)
    let requests ← ReconcileM.check (referentValues refs)
    pure (.yield (Fields.insert acc.1 op.name.keyText
      (.obj [("phase", .str phase.word), ("reconcileRequests", requests)]), acc.2))

theorem reconcileRegistry_eq : reconcileRegistry = (do
    let s ← ReconcileM.session
    let registry ← ReconcileM.check (View.ofManifest s.manifest)
    let previous ← ReconcileM.check registry.operatorsStatus
    let ops ← ReconcileM.check registry.operators
    let acc ← forIn ops (([] : Fields), ([] : List Failure)) (registryTurn registry previous)
    let phase ← ReconcileM.check (registryPhase acc.1)
    let _ ← ReconcileM.setStatus
      (.obj [("phase", .str phase.word), ("operatorsStatus", .obj acc.1)])
    raiseGathered acc.2) := rfl

/-- A turn runs the operator's lookups on the cluster and then takes the step their outcome
gives. -/
theorem run_registryTurn (registry : View) (previous : Value) (op : Operator)
    (acc : Fields × List Failure) (r : Reconciling) :
    (registryTurn registry previous op acc).run.run r =
      (ForInStep.yield <$> publishStep previous acc (op, ((registryLookups registry op).run.run r.world).1),
        { r with world := ((registryLookups registry op).run.run r.world).2 }) := by
  unfold registryTurn
  rw [run_run_bind, run_attempt, run_liftedLookups, run_liftCluster]
  rcases (registryLookups registry op).run.run r.world with ⟨e | ⟨sub, csv, refs⟩, w'⟩
  · cases he : e.isOwn
    · simp only [he, publishStep, turnEntry]
      rfl
    · simp only [he, if_true, publishStep, turnEntry]
      cases op.name.memberOf previous with
      | error => rfl
      | ok b =>
        cases b
        · rfl
        · cases previous.subscript op.name <;> rfl
  · simp only [publishStep, turnEntry, operatorEntry, turnFailures, List.append_nil]
    cases operatorInstallPhase sub csv <;> cases referentValues refs <;> rfl

/-! ### The loop over the operators -/

/-- A loop of a reconcile whose every turn, from a state the invariant allows, comes to an
outcome that `Ok` allows and goes on as `step` says, runs as the fold of `step` over its turns.
After a turn that stops the loop, the turns left may be given any outcome `Ok` allows. -/
theorem run_forIn_turns {ρ τ σ : Type} (Inv : Reconciling → Prop) (Ok : ρ → τ → Prop)
    (step : σ → ρ × τ → Except Failure σ) (body : ρ → σ → ReconcileM (ForInStep σ))
    (hany : ∀ x, ∃ t, Ok x t)
    (hbody : ∀ x acc r, Inv r → ∃ t r₁, Ok x t ∧ Inv r₁ ∧
      (body x acc).run.run r = (ForInStep.yield <$> step acc (x, t), r₁)) :
    ∀ (xs : List ρ) (acc : σ) (r : Reconciling), Inv r →
      ∃ turns : List (ρ × τ), ∃ r₁, turns.map Prod.fst = xs ∧ (∀ t ∈ turns, Ok t.1 t.2) ∧
        Inv r₁ ∧ (forIn xs acc body).run.run r = (turns.foldlM step acc, r₁)
  | [], acc, r, hr => ⟨[], r, rfl, by simp, hr, rfl⟩
  | x :: xs, acc, r, hr => by
    obtain ⟨t, r₁, ht, hr₁, hrun⟩ := hbody x acc r hr
    rw [List.forIn_cons, run_run_bind, hrun]
    cases hs : step acc (x, t) with
    | error e =>
      refine ⟨(x, t) :: xs.map (fun y => (y, (hany y).choose)), r₁, by simp [Function.comp_def],
        ?_, hr₁, ?_⟩
      · intro u hu
        rcases List.mem_cons.1 hu with rfl | hu
        · exact ht
        · obtain ⟨y, -, rfl⟩ := List.mem_map.1 hu
          exact (hany y).choose_spec
      · simp [List.foldlM_cons, hs]
    | ok acc' =>
      obtain ⟨turns, r₂, hmap, hok, hr₂, hrun'⟩ := run_forIn_turns Inv Ok step body hany hbody xs acc' r₁ hr₁
      refine ⟨(x, t) :: turns, r₂, by simp [hmap], ?_, hr₂, ?_⟩
      · intro u hu
        rcases List.mem_cons.1 hu with rfl | hu
        · exact ht
        · exact hok u hu
      · simpa [List.foldlM_cons, hs, except_map_ok] using hrun'

/-- The entry a turn publishes under the key `k`, if it publishes one there. -/
def publishedUnder (previous : Value) (k : String) (t : Turn) : Option Value :=
  if t.1.name.keyText = k then (turnEntry previous t).toOption.join else none

/-- After a run of turns, the entry under a key is the one the last turn publishing under it
published, else the one held before. -/
theorem get?_foldlM_publishStep {previous : Value} :
    ∀ (turns : List Turn) {acc acc' : Fields × List Failure},
    turns.foldlM (publishStep previous) acc = .ok acc' → ∀ k,
      Fields.get? acc'.1 k =
        ((turns.filterMap (publishedUnder previous k)).getLast?).or (Fields.get? acc.1 k)
  | [], acc, acc', h, k => by
    simp only [List.foldlM_nil, except_pure, Except.ok.injEq] at h
    subst h
    simp
  | t :: rest, acc, acc', h, k => by
    rw [List.foldlM_cons] at h
    cases hs : publishStep previous acc t with
    | error e => simp [hs] at h
    | ok mid =>
      rw [hs, except_ok_bind] at h
      rw [get?_foldlM_publishStep rest h k]
      unfold publishStep at hs
      cases he : turnEntry previous t with
      | error e => simp [he] at hs
      | ok entry =>
        simp only [he, except_ok_bind, except_pure, Except.ok.injEq] at hs
        subst hs
        -- the turn publishes under `k` exactly when it publishes and its key is `k`
        have hpub : publishedUnder previous k t = if t.1.name.keyText = k then entry else none := by
          simp [publishedUnder, he, Except.toOption]
        cases entry with
        | none =>
          have hnone : publishedUnder previous k t = none := by simp [hpub]
          simp [hnone]
        | some v =>
          by_cases hk : t.1.name.keyText = k
          · have hsome : publishedUnder previous k t = some v := by simp [hpub, hk]
            simp only [List.filterMap_cons, hsome, Option.map_some, Option.getD_some,
              Fields.get?_insert, hk, if_true, List.getLast?_cons]
            cases (rest.filterMap (publishedUnder previous k)).getLast? <;> rfl
          · have hnone : publishedUnder previous k t = none := by simp [hpub, hk]
            simp [hnone, Ne.symm hk]

/-- Answered lookups give the operator's installation as the store holds it, and the requests
that name the operator through the registry. -/
theorem lookupsIn_ok {s : Store} {shared : Value} {registry : View} {op : Operator}
    {sub csv : Option Value} {refs : List Referent}
    (h : lookupsIn s shared registry op = .ok (sub, csv, refs)) :
    installationOfIn s shared op = .ok (sub, csv) ∧ ∃ views, requestsIn s = .ok views ∧
      Selects views [] (fun q => NamesOperand q op.name registry.name registry.namespace) refs := by
  unfold lookupsIn at h
  cases hi : installationOfIn s shared op with
  | error e => simp [hi] at h
  | ok found =>
    cases hf : freshReferents s op.name registry.name registry.namespace [] with
    | error e => simp [hi, hf] at h
    | ok refs' =>
      simp only [hi, hf, except_ok_bind, except_pure, Except.ok.injEq, Prod.mk.injEq] at h
      obtain ⟨h₁, h₂, rfl⟩ := h
      exact ⟨by rw [← h₁, ← h₂], selects_freshReferents hf⟩

/-! ### The reconcile -/

end OperandLifecycle.Controllers

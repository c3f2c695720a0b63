import OperandLifecycle.Proofs.ObserverFootprint
import OperandLifecycle.Proofs.SafeReconcile
/-!
# What a configuration reports

A reconcile of a configuration reads the registry of the same name and namespace and goes
through the operators it declares, in order. An operator that the configuration has a service
for and that the registry reports installed is observed (`observeOperand`): its installation is
looked up, and every example of the installation whose kind the service configures and that has
a name is looked up in the installation's namespace. An example whose lookup fails records its
kind as failed, one whose resource exists as running, and the last such example of a kind
decides (`Observed`). The kinds an operator records become its entry in the service status map,
under the operator's name; an operator declared twice keeps the entry of the later declaration
that records one.

The observation reads the store as the reconcile has left it so far, and an operator whose
examples are malformed has an event posted about the configuration: a later lookup may find it.
The stores an observation reads therefore differ from the first one in the Events of the
configuration's namespace only (`Steady`).

`config_status_reflects_observations` puts this together: unless reading the registry fails,
the reconcile hands `ReconcileM.setStatus` the status of `observedStatus`, under each name the
entry of the last declaration that recorded one, with the phase `rolledUpPhase`: initial while
the map is empty, failed when some recorded kind failed, running otherwise.
-/

namespace OperandLifecycle

namespace Json.Fields

variable {β : Type}

/-- Sets the member that `f` names at `t`, if it names one. -/
def setBy (f : β → Option (String × Value)) (fs : Fields) (t : β) : Fields :=
  ((f t).map fun p => insert fs p.1 p.2).getD fs

/-- The value `f` sets under the key `k` at `t`, if it sets one there. -/
def setUnder (f : β → Option (String × Value)) (k : String) (t : β) : Option Value :=
  (f t).bind fun p => if p.1 = k then some p.2 else none

theorem get?_setBy (f : β → Option (String × Value)) (fs : Fields) (t : β) (k : String) :
    get? (setBy f fs t) k = (setUnder f k t).or (get? fs k) := by
  unfold setBy setUnder
  cases f t with
  | none => rfl
  | some p =>
    by_cases hk : p.1 = k
    · simp [hk]
    · simp [hk, Ne.symm hk]

/-- A fold that sets, at each item, the member the item names holds under each key the value
the last item naming that key set, else what it held before. -/
theorem get?_foldl_setBy (f : β → Option (String × Value)) (k : String) :
    ∀ (items : List β) (fs : Fields), get? (items.foldl (setBy f) fs) k =
      ((items.filterMap (setUnder f k)).getLast?).or (get? fs k)
  | [], fs => by simp
  | t :: rest, fs => by
    rw [List.foldl_cons, get?_foldl_setBy f k rest, get?_setBy, List.filterMap_cons]
    cases setUnder f k t with
    | none => rfl
    | some v =>
      simp only [List.getLast?_cons]
      cases (rest.filterMap (setUnder f k)).getLast? <;> rfl

theorem mem_insert {fs : Fields} {k : String} {v : Value} {p : String × Value}
    (h : p ∈ insert fs k v) : p ∈ fs ∨ p = (k, v) := by
  unfold insert at h
  split at h
  · obtain ⟨q, hq, rfl⟩ := List.mem_map.1 h
    by_cases hqk : q.1 = k
    · simp [hqk]
    · simp [hqk, hq]
  · simpa using h

/-- Every value a fold of `setBy` leaves satisfies what the values it started from and the
values it set satisfy. -/
theorem values_foldl_setBy (P : Value → Prop) (f : β → Option (String × Value)) :
    ∀ (items : List β) (fs : Fields), (∀ t ∈ items, ∀ p, f t = some p → P p.2) →
      (∀ p ∈ fs, P p.2) → ∀ p ∈ items.foldl (setBy f) fs, P p.2
  | [], _, _, hfs => hfs
  | t :: rest, fs, hf, hfs => by
    refine values_foldl_setBy P f rest _ (fun u hu => hf u (List.mem_cons_of_mem _ hu)) ?_
    intro p hp
    unfold setBy at hp
    cases ht : f t with
    | none =>
      rw [ht] at hp
      exact hfs p hp
    | some q =>
      rw [ht] at hp
      rcases mem_insert hp with hp | rfl
      · exact hfs p hp
      · exact hf t (List.mem_cons_self ..) q ht

end Json.Fields

namespace Controllers

open Json Cluster Store Reconcile Resource Catalog Status

/-! ## Looking at one operator's examples -/

/-- The lookup an example asks for: its kind, name and API version. None when the service
configures no key for its kind, or the example has no name. -/
def exampleLookup (service : Service) (sample : Value) :
    Except Failure (Option (Value × Value × Value)) := do
  let kind ← sample.index "kind"
  if (← service.matchKind kind).isNone then return none
  let name ← (← sample.field "metadata").orEmpty.field "name"
  if !name.truthy then return none
  return some (kind, name, sample.getD "apiVersion")

/-- An example's lookup with what it came to: `none` when the lookup failed, else what it
found. -/
abbrev Sighting := (Value × Value × Value) × Option (Option Value)

/-- The phase a sighting gives its kind: failed when the lookup failed, running when it found
the resource, none when it found nothing. -/
def Sighting.phase (s : Sighting) : Option ServicePhase :=
  match s.2 with
  | none => some .failed
  | some (some _) => some .running
  | some none => none

/-- The kind status a sighting sets, under its kind's key. -/
def sightingMember (s : Sighting) : Option (String × Value) :=
  s.phase.map fun ph => (s.1.1.keyText, .str ph.word)

/-- What an observation of the operator `op` for `service` answered, as the store `s` holds
it, with `shared` the namespace of cluster-wide operators. -/
inductive Observed (s : Store) (shared : Value) (service : Service) (op : Operator) :
    Option Fields → Prop
  /-- The operator has no installation yet. -/
  | unresolved {sub : Option Value} :
      installationOfIn s shared op = .ok (sub, none) → Observed s shared service op none
  /-- The installation `csv` lives in `ns`. Its examples that the service configures and that
  have a name were looked up there in order, each lookup failing or finding what the store
  holds, and the kinds record the sightings in order. -/
  | resolved {sub csv ns : Value} {examples : List Value}
      {lookups : List (Option (Value × Value × Value))} (sightings : List Sighting) :
      installationOfIn s shared op = .ok (some sub, some csv) →
      (do (← csv.index "metadata").field "namespace") = .ok ns →
      examplesOf csv = .ok examples →
      examples.mapM (exampleLookup service) = .ok lookups →
      sightings.map Prod.fst = lookups.reduceOption →
      (∀ x ∈ sightings, ∀ found, x.2 = some found → s.get x.1.1 x.1.2.1 ns x.1.2.2 = .ok found) →
      Observed s shared service op (some (sightings.foldl (Fields.setBy sightingMember) []))

/-! ## The service status map -/

/-- The entry of an operator whose examples recorded `kinds`. -/
def serviceEntry (kinds : Fields) : Value := .obj [("customResourceStatus", .obj kinds)]

/-- An operator with what its observation came to. -/
abbrev Observation := Operator × Except Failure (Option Fields)

/-- A turn of the loop over the registry's operators, on the entries and failures gathered so
far: an operator that the configuration has no service for, or that the registry does not
report installed, is passed over; a failure of the manager's own is gathered, any other stops
the reconcile; recorded kinds become the operator's entry. -/
def observeStep (config registry : View) (acc : Fields × List Failure) (t : Observation) :
    Except Failure (Fields × List Failure) := do
  let some _ ← config.serviceNamed t.1.name | pure acc
  if !(← operatorInstalled registry.status t.1.name) then return acc
  match t.2 with
  | .error e => if e.isOwn then pure (acc.1, acc.2 ++ [e]) else throw e
  | .ok (some kinds) =>
    pure (if kinds.isEmpty then acc.1 else Fields.insert acc.1 t.1.name.keyText (serviceEntry kinds),
      acc.2)
  | .ok none => pure acc

/-- The entry a turn sets in the service status map, under its operator's name. -/
def observedMember (config registry : View) (t : Observation) : Option (String × Value) :=
  match config.serviceNamed t.1.name, operatorInstalled registry.status t.1.name, t.2 with
  | .ok (some _), .ok true, .ok (some kinds) =>
    if kinds.isEmpty then none else some (t.1.name.keyText, serviceEntry kinds)
  | _, _, _ => none

/-- The kind statuses a service status map records. -/
def recordedPhases (ss : Fields) : List Value :=
  ss.flatMap fun p => ((p.2.getD "customResourceStatus").fields?.getD []).map (·.2)

/-- The phase a service status map rolls up to: initial while it is empty, failed when some
recorded kind failed, running otherwise. -/
def rolledUpPhase (ss : Fields) : ServicePhase :=
  if ss.isEmpty then .init
  else if (recordedPhases ss).any (·.equiv (.str ServicePhase.failed.word)) then .failed
  else .running

/-- The status a reconcile of `config` backed by `registry` hands over after the turns of the
registry's operators, with the failures it gathered. -/
def observedStatus (config registry : View) (turns : List Observation) :
    Except Failure (Value × List Failure) := do
  let acc ← turns.foldlM (observeStep config registry) ([], [])
  let phase ← configPhase acc.1
  pure (.obj [("phase", .str phase.word), ("serviceStatus", .obj acc.1)], acc.2)

/-- A turn that goes on sets the entry `observedMember` names. -/
theorem fst_observeStep {config registry : View} {acc acc' : Fields × List Failure}
    {t : Observation} (h : observeStep config registry acc t = .ok acc') :
    acc'.1 = Fields.setBy (observedMember config registry) acc.1 t := by
  unfold observeStep at h
  unfold Fields.setBy observedMember
  cases hs : config.serviceNamed t.1.name with
  | error e => simp [hs] at h
  | ok service =>
    cases service with
    | none =>
      simp only [hs, except_ok_bind, except_pure, Except.ok.injEq] at h
      subst h
      rfl
    | some service =>
      cases hi : operatorInstalled registry.status t.1.name with
      | error e => simp [hs, hi] at h
      | ok installed =>
        cases installed
        · simp only [hs, hi, except_ok_bind, Bool.not_false, if_true, except_pure,
            Except.ok.injEq] at h
          subst h
          rfl
        · rcases ht : t.2 with e | (_ | kinds)
          · simp only [hs, hi, ht, except_ok_bind, Bool.not_true, Bool.false_eq_true, if_false] at h
            split at h
            · simp only [except_pure, Except.ok.injEq] at h
              subst h
              rfl
            · cases h
          · simp only [hs, hi, ht, except_ok_bind, Bool.not_true, Bool.false_eq_true, if_false,
              except_pure, Except.ok.injEq] at h
            subst h
            rfl
          · simp only [hs, hi, ht, except_ok_bind, Bool.not_true, Bool.false_eq_true, if_false,
              except_pure, Except.ok.injEq] at h
            subst h
            cases he : kinds.isEmpty <;> simp [he]

/-- The service status map of a run of turns that goes on sets, in order, the entries the
turns name. -/
theorem fst_foldlM_observeStep {config registry : View} :
    ∀ (turns : List Observation) {acc acc' : Fields × List Failure},
      turns.foldlM (observeStep config registry) acc = .ok acc' →
        acc'.1 = turns.foldl (Fields.setBy (observedMember config registry)) acc.1
  | [], acc, acc', h => by
    simp only [List.foldlM_nil, except_pure, Except.ok.injEq] at h
    subst h
    rfl
  | t :: rest, acc, acc', h => by
    rw [List.foldlM_cons] at h
    cases hs : observeStep config registry acc t with
    | error e => simp [hs] at h
    | ok mid =>
      rw [hs, except_ok_bind] at h
      rw [fst_foldlM_observeStep rest h, List.foldl_cons, fst_observeStep hs]

/-! ## The phase of a service status map -/

/-- What a kind status map holds: failed and running kinds only. -/
def KindStatuses (kinds : Fields) : Prop :=
  ∀ p ∈ kinds, p.2 = .str ServicePhase.failed.word ∨ p.2 = .str ServicePhase.running.word

/-- What an entry of a service status map holds: some kind statuses. -/
def IsServiceEntry (v : Value) : Prop :=
  ∃ kinds, v = serviceEntry kinds ∧ kinds ≠ [] ∧ KindStatuses kinds

/-- The kinds sightings record are failed or running. -/
theorem kindStatuses_foldl_sightings (sightings : List Sighting) :
    KindStatuses (sightings.foldl (Fields.setBy sightingMember) []) := by
  refine Fields.values_foldl_setBy
    (fun v => v = .str ServicePhase.failed.word ∨ v = .str ServicePhase.running.word) _ sightings []
    ?_ (fun _ h => absurd h List.not_mem_nil)
  intro s _ p hp
  obtain ⟨ph, hph, rfl⟩ := Option.map_eq_some_iff.1 hp
  unfold Sighting.phase at hph
  split at hph <;> cases hph
  · exact .inl rfl
  · exact .inr rfl

theorem getD_serviceEntry (kinds : Fields) :
    (serviceEntry kinds).getD "customResourceStatus" = .obj kinds := rfl

theorem kindPhases_serviceEntry {kinds : Fields} (h : KindStatuses kinds) :
    kindPhases (serviceEntry kinds) = .ok (kinds.map (·.2)) := by
  have hhash : kinds.find? (fun p => !p.2.hashable) = none := by
    rw [List.find?_eq_none]
    intro p hp
    rcases h p hp with h' | h' <;> simp [h', Value.hashable, Value.isObj, Value.isArr]
  have hsection : (serviceEntry kinds).section "customResourceStatus" =
      .ok ((Value.obj kinds).orEmpty) := rfl
  unfold kindPhases
  rw [hsection]
  cases kinds with
  | nil => rfl
  | cons p rest => simp [Value.orEmpty, Value.or, Value.truthy, hhash]

/-- The entries' kind statuses, gathered as the roll-up gathers them. -/
theorem mapM_kindPhases {ss : Fields} (h : ∀ p ∈ ss, IsServiceEntry p.2) :
    ss.mapM (fun p => kindPhases p.2) =
      .ok (ss.map fun p => ((p.2.getD "customResourceStatus").fields?.getD []).map (·.2)) := by
  induction ss with
  | nil => rfl
  | cons p rest ih =>
    obtain ⟨kinds, hp, -, hk⟩ := h p (List.mem_cons_self ..)
    rw [List.mapM_cons, hp, kindPhases_serviceEntry hk,
      ih (fun q hq => h q (List.mem_cons_of_mem _ hq))]
    simp only [List.map_cons, hp, getD_serviceEntry]
    rfl

/-- A service status map of entries rolls up to `rolledUpPhase`. -/
theorem configPhase_of_entries {ss : Fields} (h : ∀ p ∈ ss, IsServiceEntry p.2) :
    configPhase ss = .ok (rolledUpPhase ss) := by
  have hobserved : ∀ v ∈ recordedPhases ss,
      v = .str ServicePhase.failed.word ∨ v = .str ServicePhase.running.word := by
    intro v hv
    obtain ⟨p, hp, hv⟩ := List.mem_flatMap.1 hv
    obtain ⟨kinds, hentry, -, hk⟩ := h p hp
    rw [hentry, getD_serviceEntry] at hv
    obtain ⟨q, hq, rfl⟩ := List.mem_map.1 hv
    exact hk q hq
  unfold configPhase rolledUpPhase
  rw [mapM_kindPhases h]
  simp only [except_ok_bind]
  have hflat : (ss.map fun p => ((p.2.getD "customResourceStatus").fields?.getD []).map (·.2)).flatten =
      recordedPhases ss := by
    simp [recordedPhases, List.flatMap]
  rw [hflat]
  cases ss with
  | nil => rfl
  | cons p rest =>
    -- the first entry records some kind, so something was recorded
    have hne : (recordedPhases (p :: rest)).isEmpty = false := by
      obtain ⟨kinds, hentry, hkinds, -⟩ := h p (List.mem_cons_self ..)
      cases kinds with
      | nil => exact absurd rfl hkinds
      | cons q _ => simp [recordedPhases, hentry, serviceEntry, Value.getD, Value.get?,
          Fields.get?, Value.fields?]
    simp only [hne, Bool.false_eq_true, if_false, List.isEmpty_cons]
    by_cases hf : (recordedPhases (p :: rest)).any (·.equiv (.str ServicePhase.failed.word)) = true
    · simp [configSeverity, hf]
    · -- only running kinds were recorded, so no phase but running is found
      have hnot : ∀ ph : ServicePhase, ph ≠ .failed → ph ≠ .running →
          (recordedPhases (p :: rest)).any (·.equiv (.str ph.word)) = false := by
        intro ph h₁ h₂
        rw [List.any_eq_false]
        intro v hv hvp
        have hv' := Value.equiv_str_iff.1 (by simpa using hvp)
        rcases hobserved v hv with rfl | rfl <;> cases ph <;> simp_all [ServicePhase.word]
      simp only [Bool.not_eq_true] at hf
      by_cases hr : (recordedPhases (p :: rest)).any (·.equiv (.str ServicePhase.running.word)) = true
      · simp [configSeverity, hf, hr, hnot .deleting, hnot .updating, hnot .creating, hnot .pending]
      · simp only [Bool.not_eq_true] at hr
        simp [configSeverity, hf, hr, hnot .deleting, hnot .updating, hnot .creating, hnot .pending]

/-! ## The loop over an installation's examples -/

/-- One example's turn of `observeOperand`: an example whose kind the service configures and
that has a name is looked up; a failed lookup records its kind as failed, a found resource as
running. -/
def sightTurn (service : Service) (ns : Value) (sample : Value) (kinds : Fields) :
    ReconcileM (ForInStep Fields) := do
  let kind ← ReconcileM.check (sample.index "kind")
  if (← ReconcileM.check (service.matchKind kind)).isNone then return .yield kinds
  let name ← ReconcileM.check (do (← sample.field "metadata").orEmpty.field "name")
  if !name.truthy then return .yield kinds
  let (ok, current) ← getObject kind name ns (sample.getD "apiVersion")
  if !ok then return .yield (Fields.insert kinds kind.keyText (.str ServicePhase.failed.word))
  else if current.isSome then
    return .yield (Fields.insert kinds kind.keyText (.str ServicePhase.running.word))
  else return .yield kinds

/-- Malformed examples are reported as an event about the configuration, then passed on. -/
def invalidExamples (op : Operator) (e : Failure) : ReconcileM (List Value) := do
  if let .merge _ := e then
    let _ ← ReconcileM.recordEvent .warning "InvalidExamples"
      ("Invalid example resources for operator " ++ op.name.display)
  throw e

theorem observeOperand_eq (op : Operator) (service : Service) : observeOperand op service = (do
    let (_, csv) ← installationOfOperator op
    let some csv := csv | return none
    let ns ← ReconcileM.check (do (← csv.index "metadata").field "namespace")
    let examples ← tryCatch (ReconcileM.check (examplesOf csv)) (invalidExamples op)
    let kinds ← forIn examples [] (sightTurn service ns)
    return some kinds) := rfl

/-- What an example's turn may come to, with the resources of `ns` as the store `s` holds them:
an answer looks the example up as `exampleLookup` says, and a lookup that went through found
what the store holds. -/
def SightedIn (s : Store) (ns : Value) (service : Service) (sample : Value)
    (o : Except Failure (Option Sighting)) : Prop :=
  ∀ x, o = .ok x → exampleLookup service sample = .ok (x.map Prod.fst) ∧
    ∀ y found, x = some y → y.2 = some found → s.get y.1.1 y.1.2.1 ns y.1.2.2 = .ok found

/-- The kind statuses after an example's turn came to `t.2`. -/
def sightStep (kinds : Fields) (t : Value × Except Failure (Option Sighting)) :
    Except Failure Fields :=
  (fun x => x.elim kinds (Fields.setBy sightingMember kinds)) <$> t.2

/-- An example's turn looks the example up under any fault plan, and goes on as `sightStep`
says with what the lookup came to; it changes nothing but the fault plan. -/
theorem run_sightTurn (service : Service) (ns sample : Value) (kinds : Fields) (r : Reconciling) :
    ∃ (o : Except Failure (Option Sighting)) (q : FaultPlan),
      SightedIn r.world.store ns service sample o ∧
      (sightTurn service ns sample kinds).run.run r =
        (ForInStep.yield <$> sightStep kinds (sample, o), { r with world := r.world.withFaults q }) := by
  unfold sightTurn
  simp only [run_run_bind, run_reconcileCheck]
  cases hk : sample.index "kind" with
  | error e => exact ⟨.error e, r.world.faults, (fun _ h => by cases h), rfl⟩
  | ok kind =>
    dsimp only
    cases hm : service.matchKind kind with
    | error e => exact ⟨.error e, r.world.faults, (fun _ h => by cases h), rfl⟩
    | ok m =>
      dsimp only
      cases m with
      | none =>
        refine ⟨.ok none, r.world.faults, fun x hx => ?_, rfl⟩
        cases hx
        exact ⟨by simp [exampleLookup, hk, hm], fun _ _ h => by cases h⟩
      | some m =>
        simp only [Option.isNone_some, Bool.false_eq_true, if_false, run_run_bind,
          run_reconcileCheck]
        cases hmd : sample.field "metadata" with
        | error e => exact ⟨.error e, r.world.faults, (fun _ h => by cases h), rfl⟩
        | ok md =>
        simp only [except_ok_bind]
        cases hn : md.orEmpty.field "name" with
        | error e => exact ⟨.error e, r.world.faults, (fun _ h => by cases h), rfl⟩
        | ok name =>
          dsimp only
          by_cases ht : name.truthy = true
          swap
          · -- an example without a name is passed over
            simp only [ht, Bool.not_false, if_true]
            refine ⟨.ok none, r.world.faults, fun x hx => ?_, rfl⟩
            cases hx
            exact ⟨by simp [exampleLookup, hk, hm, hmd, hn, ht], fun _ _ h => by cases h⟩
          simp only [ht, Bool.not_true, Bool.false_eq_true, if_false, run_run_bind, run_liftM]
          have hreads := readsUnder_getObject (w := r.world) kind name ns (sample.getD "apiVersion")
          obtain ⟨q, hq⟩ := hreads.world r.world.faults
          have hans := hreads.answer r.world.faults
          have hself : r.world.withFaults r.world.faults = r.world := rfl
          rw [hself] at hq hans
          rcases hg : (getObject kind name ns (sample.getD "apiVersion")).run.run r.world with
            ⟨e | ⟨ok, cur⟩, w'⟩
          · rw [hg] at hq
            cases hq
            exact ⟨.error e, q, (fun _ h => by cases h), rfl⟩
          · rw [hg] at hq hans
            cases hq
            obtain ⟨b, hb, hfound⟩ := hans _ rfl
            cases hb
            refine ⟨.ok (some ((kind, name, sample.getD "apiVersion"), if ok then some cur else none)),
              q, fun x hx => ?_, ?_⟩
            · cases hx
              refine ⟨by simp [exampleLookup, hk, hm, hmd, hn, ht], fun y found hy hfy => ?_⟩
              cases hy
              cases ok
              · simp at hfy
              · simp only [if_true, Option.some.injEq] at hfy
                subst hfy
                exact hfound rfl
            · cases ok
              · rfl
              · cases cur <;> rfl

/-- The loop over an installation's examples looks each example up under any fault plan and
comes to the fold of `sightStep` over what the lookups came to; it changes nothing but the
fault plan. -/
theorem run_forIn_sightTurn (service : Service) (ns : Value) (examples : List Value)
    (r : Reconciling) :
    ∃ turns : List (Value × Except Failure (Option Sighting)), ∃ q : FaultPlan,
      turns.map Prod.fst = examples ∧ (∀ t ∈ turns, SightedIn r.world.store ns service t.1 t.2) ∧
      (forIn examples [] (sightTurn service ns)).run.run r =
        (turns.foldlM sightStep [], { r with world := r.world.withFaults q }) := by
  obtain ⟨turns, r₁, hmap, hok, ⟨q, rfl⟩, hrun⟩ := run_forIn_turns
    (fun r' => ∃ q, r' = { r with world := r.world.withFaults q })
    (SightedIn r.world.store ns service) sightStep (sightTurn service ns)
    (fun _ => ⟨.error (.cluster ""), fun _ h => by cases h⟩)
    (fun sample kinds r' ⟨q, hq⟩ => by
      subst hq
      obtain ⟨o, q', ho, hrun⟩ :=
        run_sightTurn service ns sample kinds { r with world := r.world.withFaults q }
      exact ⟨o, _, ho, ⟨q', rfl⟩, hrun⟩)
    examples [] r ⟨r.world.faults, rfl⟩
  exact ⟨turns, q, hmap, hok, hrun⟩

/-- A run of example turns that goes on looked every example up as `exampleLookup` says, and
its kind statuses record the sightings in order. -/
theorem sightings_of_foldlM {s : Store} {ns : Value} {service : Service} :
    ∀ (turns : List (Value × Except Failure (Option Sighting))) {kinds kinds' : Fields},
      (∀ t ∈ turns, SightedIn s ns service t.1 t.2) → turns.foldlM sightStep kinds = .ok kinds' →
      ∃ (lookups : List (Option (Value × Value × Value))) (sightings : List Sighting),
        (turns.map Prod.fst).mapM (exampleLookup service) = .ok lookups ∧
        sightings.map Prod.fst = lookups.reduceOption ∧
        (∀ x ∈ sightings, ∀ found, x.2 = some found → s.get x.1.1 x.1.2.1 ns x.1.2.2 = .ok found) ∧
        kinds' = sightings.foldl (Fields.setBy sightingMember) kinds
  | [], kinds, kinds', _, h => by
    simp only [List.foldlM_nil, except_pure, Except.ok.injEq] at h
    exact ⟨[], [], rfl, rfl, by simp, by simp [h]⟩
  | t :: rest, kinds, kinds', hok, h => by
    rw [List.foldlM_cons] at h
    obtain ⟨mid, hmid, hrest⟩ := except_bind_eq_ok h
    -- the turn went on, so its example was looked up as `exampleLookup` says
    obtain ⟨x, hx, rfl⟩ : ∃ x, t.2 = .ok x ∧ mid = x.elim kinds (Fields.setBy sightingMember kinds) := by
      unfold sightStep at hmid
      cases ht : t.2 with
      | error e => simp [ht] at hmid
      | ok x =>
        simp only [ht, except_map_ok, Except.ok.injEq] at hmid
        exact ⟨x, rfl, hmid.symm⟩
    obtain ⟨hlook, hfound⟩ := hok t (List.mem_cons_self ..) x hx
    obtain ⟨lookups, sightings, hmap, hsight, hget, hkinds⟩ :=
      sightings_of_foldlM rest (fun u hu => hok u (List.mem_cons_of_mem _ hu)) hrest
    refine ⟨x.map Prod.fst :: lookups, x.toList ++ sightings, ?_, ?_, ?_, ?_⟩
    · simp [List.mapM_cons, hlook, hmap]
    · cases x <;> simp [hsight, List.reduceOption_cons_of_some, List.reduceOption_cons_of_none]
    · intro y hy found hfy
      rcases List.mem_append.1 hy with hy | hy
      · exact hfound y found (by simpa using hy) hfy
      · exact hget y hy found hfy
    · cases x <;> simp [hkinds]

/-! ## Observing an operator -/

/-- Where posting events about `R` writes: the Events of `R`'s namespace. -/
def eventsFootprint (R : Value) : Footprint where
  free := Event.FiledFor R
  own _ := False
  kinds k := k = .str "Event"

/-- The reconcile state `r'` that observing operators leaves of the state `r`: the same session
and settings, and a store that differs from `r`'s only in the Events of the resource's
namespace. -/
structure Steady (r r' : Reconciling) : Prop where
  session : r'.session = r.session
  settings : r'.world.settings = r.world.settings
  store : Within (eventsFootprint r.session.manifest) r.world.store r'.world.store

namespace Steady

variable {r r' r'' : Reconciling}

theorem withFaults (hwf : r.world.store.WF) (q : FaultPlan) :
    Steady r { r with world := r.world.withFaults q } :=
  ⟨rfl, rfl, Within.refl hwf⟩

theorem trans (h₁ : Steady r r') (h₂ : Steady r' r'') : Steady r r'' := by
  have hstore := h₂.store
  rw [h₁.session] at hstore
  exact ⟨h₂.session.trans h₁.session, h₂.settings.trans h₁.settings, h₁.store.trans hstore⟩

theorem sharedNamespace_eq (h : Steady r r') : sharedNamespace r'.world = sharedNamespace r.world := by
  unfold sharedNamespace
  rw [h.settings]

end Steady

theorem run_recordEvent (type : Event.EventType) (reason message : String) (r : Reconciling) :
    (ReconcileM.recordEvent type reason message).run.run r =
      (((Event.record r.session.manifest type (.str reason) (.str message)).run.run r.world).1,
        { r with world :=
          ((Event.record r.session.manifest type (.str reason) (.str message)).run.run r.world).2 }) :=
  rfl

/-- Posting an event about the resource keeps the state steady. -/
theorem steady_recordEvent {r₀ r : Reconciling} (hr : Steady r₀ r) (type : Event.EventType)
    (reason message : String) :
    Steady r₀ ((ReconcileM.recordEvent type reason message).run.run r).2 := by
  rw [run_recordEvent]
  refine ⟨hr.session, ?_, ?_⟩
  · exact (settings_of_run (fun S => record_settings (S := S) _ type _ _) r.world).trans hr.settings
  · have hfree : ∀ b, Event.FiledFor r.session.manifest b →
        (eventsFootprint r₀.session.manifest).free b := by
      rw [hr.session]
      exact fun b h => h
    exact state_of_run (Event.record_within hfree rfl type _ _) hr.store rfl

/-- Reporting malformed examples fails, and keeps the state steady. -/
theorem run_invalidExamples {r₀ r : Reconciling} (hr : Steady r₀ r) (op : Operator)
    (e : Failure) :
    (∃ e', ((invalidExamples op e).run.run r).1 = .error e') ∧
      Steady r₀ ((invalidExamples op e).run.run r).2 := by
  unfold invalidExamples
  cases e
  case merge m =>
    -- malformed examples post an event first
    dsimp only
    rw [run_run_bind]
    have hsteady := steady_recordEvent hr .warning "InvalidExamples"
      ("Invalid example resources for operator " ++ op.name.display)
    rcases hrec : (ReconcileM.recordEvent .warning "InvalidExamples"
      ("Invalid example resources for operator " ++ op.name.display)).run.run r with ⟨_ | _, r'⟩ <;>
      rw [hrec] at hsteady
    · exact ⟨⟨_, rfl⟩, hsteady⟩
    · exact ⟨⟨_, rfl⟩, hsteady⟩
  all_goals exact ⟨⟨_, rfl⟩, hr⟩

theorem run_tryCatch_check {α : Type} (x : Except Failure α) (h : Failure → ReconcileM α)
    (r : Reconciling) :
    (tryCatch (ReconcileM.check x) h).run.run r =
      match x with
      | .ok a => (.ok a, r)
      | .error e => (h e).run.run r := by
  cases x <;> rfl

/-- An installation is found through a Subscription. -/
theorem subscribed_of_installationOfIn {s : Store} {shared : Value} {op : Operator}
    {sub : Option Value} {csv : Value} (h : installationOfIn s shared op = .ok (sub, some csv)) :
    ∃ x, sub = some x := by
  unfold installationOfIn at h
  cases hs : subscriptionIn s shared op with
  | error e => simp [hs] at h
  | ok found =>
    cases found with
    | none => simp [hs] at h
    | some x =>
      cases hi : installationIn s x with
      | error e => simp [hs, hi] at h
      | ok c =>
        simp only [hs, hi, except_ok_bind, except_pure, Except.ok.injEq, Prod.mk.injEq] at h
        exact ⟨x, h.1.symm⟩

/-- An observation of an operator keeps the state steady, and what it answers is what the
store holds: the operator's installation, and the lookups of its examples as `Observed`
says. -/
theorem run_observeOperand (op : Operator) (service : Service) {r₀ r : Reconciling}
    (hr : Steady r₀ r) :
    ∃ res r', (observeOperand op service).run.run r = (res, r') ∧ Steady r₀ r' ∧
      ∀ x, res = .ok x → Observed r.world.store (sharedNamespace r.world) service op x := by
  have hwf := hr.store.wf
  rw [observeOperand_eq]
  simp only [run_run_bind, run_liftM]
  have hreads := readsUnder_installationOfOperator (w := r.world) op
  obtain ⟨q, hq⟩ := hreads.world r.world.faults
  have hans := hreads.answer r.world.faults
  have hself : r.world.withFaults r.world.faults = r.world := rfl
  rw [hself] at hq hans
  have hsteady := hr.trans (Steady.withFaults hwf q)
  rcases hm : (installationOfOperator op).run.run r.world with ⟨e | ⟨sub, csv⟩, w'⟩
  · rw [hm] at hq
    subst hq
    exact ⟨_, _, rfl, hsteady, fun _ h => by cases h⟩
  rw [hm] at hq hans
  subst hq
  obtain ⟨b, hb, rfl⟩ := hans _ rfl
  cases csv with
  | none => exact ⟨_, _, rfl, hsteady, fun x hx => by cases hx; exact .unresolved hb⟩
  | some csv =>
    obtain ⟨sub, rfl⟩ := subscribed_of_installationOfIn hb
    dsimp only
    simp only [run_run_bind, run_reconcileCheck]
    cases hns : (do (← csv.index "metadata").field "namespace") with
    | error e => exact ⟨_, _, rfl, hsteady, fun _ h => by cases h⟩
    | ok ns =>
      dsimp only
      rw [run_tryCatch_check]
      cases hex : examplesOf csv with
      | error e =>
        -- malformed examples: the event is posted and the observation fails
        obtain ⟨⟨e', he'⟩, hsteady'⟩ := run_invalidExamples hsteady op e
        dsimp only
        rcases hinv : (invalidExamples op e).run.run { r with world := r.world.withFaults q } with
          ⟨_ | _, r'⟩ <;> rw [hinv] at he' hsteady'
        · exact ⟨_, _, rfl, hsteady', fun _ h => by cases h⟩
        · cases he'
      | ok examples =>
        dsimp only
        obtain ⟨turns, q', hmap, hok, hloop⟩ :=
          run_forIn_sightTurn service ns examples { r with world := r.world.withFaults q }
        rw [hloop]
        have hsteady' := hr.trans (Steady.withFaults hwf q')
        cases hfold : turns.foldlM sightStep [] with
        | error e => exact ⟨_, _, rfl, hsteady', fun _ h => by cases h⟩
        | ok kinds =>
          refine ⟨_, _, rfl, hsteady', fun x hx => ?_⟩
          cases hx
          obtain ⟨lookups, sightings, hlook, hsight, hget, rfl⟩ := sightings_of_foldlM turns hok hfold
          rw [hmap] at hlook
          exact .resolved sightings hb hns hex hlook hsight hget

/-! ## The loop over the registry's operators -/

/-- One operator's turn of `reconcileConfig`. -/
def configTurn (config registry : View) (op : Operator) (acc : Fields × List Failure) :
    ReconcileM (ForInStep (Fields × List Failure)) := do
  let some service ← ReconcileM.check (config.serviceNamed op.name) | return .yield acc
  if !(← ReconcileM.check (operatorInstalled registry.status op.name)) then return .yield acc
  match ← attempt (observeOperand op service) with
  | .error e => return .yield (acc.1, acc.2 ++ [e])
  | .ok (some kinds) =>
    if !kinds.isEmpty then
      return .yield (Fields.insert acc.1 op.name.keyText
        (.obj [("customResourceStatus", .obj kinds)]), acc.2)
    else return .yield acc
  | .ok none => return .yield acc

theorem reconcileConfig_eq : reconcileConfig = (do
    let s ← ReconcileM.session
    let config ← ReconcileM.check (View.ofManifest s.manifest)
    let name ← ReconcileM.check s.name
    let (ok, registryManifest) ← ReconcileM.getObject (.str registryKind) name (.str apiVersion) none
    let ns ← ReconcileM.check s.ns
    if !ok then throw (.cluster ("Failed to fetch OperandRegistry " ++ ns.display ++ "/" ++ name.display))
    let some manifest := registryManifest
      | let message := "OperandRegistry " ++ ns.display ++ "/" ++ name.display ++ " not found"
        let _ ← ReconcileM.recordEvent .warning "NotFound" message
        let _ ← ReconcileM.setStatus
          (.obj [("phase", .str ServicePhase.init.word), ("serviceStatus", .obj [])])
        throw (.precondition message)
    let registry ← ReconcileM.check (View.ofManifest manifest)
    let ops ← ReconcileM.check registry.operators
    let acc ← forIn ops (([] : Fields), ([] : List Failure)) (configTurn config registry)
    let phase ← ReconcileM.check (configPhase acc.1)
    let _ ← ReconcileM.setStatus
      (.obj [("phase", .str phase.word), ("serviceStatus", .obj acc.1)])
    raiseGathered acc.2) := rfl

/-- What a turn of the loop may have observed, from the reconcile state `r`: an answer of the
observation was read in a store that differs from `r`'s only in the Events of the resource's
namespace. -/
def ObservedFrom (r : Reconciling) (config : View) (t : Observation) : Prop :=
  ∀ service x, config.serviceNamed t.1.name = .ok (some service) → t.2 = .ok x →
    ∃ s, Within (eventsFootprint r.session.manifest) r.world.store s ∧
      Observed s (sharedNamespace r.world) service t.1 x

/-- An operator's turn observes it, when the configuration has a service for it and the
registry reports it installed, and goes on as `observeStep` says with what the observation
came to; it keeps the state steady. -/
theorem run_configTurn {r₀ r : Reconciling} (hr : Steady r₀ r) (config registry : View)
    (op : Operator) (acc : Fields × List Failure) :
    ∃ (o : Except Failure (Option Fields)) (r₁ : Reconciling), ObservedFrom r₀ config (op, o) ∧
      Steady r₀ r₁ ∧
      (configTurn config registry op acc).run.run r =
        (ForInStep.yield <$> observeStep config registry acc (op, o), r₁) := by
  -- a turn that observes nothing may be given a failed observation
  have hnone : ∀ e, ObservedFrom r₀ config (op, .error e) := fun _ _ _ _ h => by cases h
  unfold configTurn observeStep
  simp only [run_run_bind, run_reconcileCheck]
  cases hs : config.serviceNamed op.name with
  | error e => exact ⟨.error e, r, hnone e, hr, rfl⟩
  | ok service =>
    cases service with
    | none => exact ⟨.error (.cluster ""), r, hnone _, hr, rfl⟩
    | some service =>
      dsimp only
      cases hi : operatorInstalled registry.status op.name with
      | error e => exact ⟨.error e, r, hnone e, hr, rfl⟩
      | ok installed =>
        cases installed
        · exact ⟨.error (.cluster ""), r, hnone _, hr, rfl⟩
        simp only [run_reconcileCheck, except_ok_bind, Bool.not_true, Bool.false_eq_true, if_false,
          run_run_bind, run_attempt]
        obtain ⟨res, r', hrun, hsteady, hobs⟩ := run_observeOperand op service hr
        refine ⟨res, r', fun service' x hs' hx => ⟨r.world.store, hr.store, ?_⟩, hsteady, ?_⟩
        · rw [hs] at hs'
          cases hs'
          rw [← hr.sharedNamespace_eq]
          exact hobs x hx
        · rw [hrun]
          rcases res with e | (_ | kinds)
          · cases he : e.isOwn
            · simp [he]
            · simp [he]
              rfl
          · rfl
          · cases he : kinds.isEmpty <;> simp [he] <;> rfl

/-- The entries a turn sets are entries of recorded kinds. -/
theorem isServiceEntry_of_observedMember {r : Reconciling} {config registry : View}
    {t : Observation} (hobs : ObservedFrom r config t) {p : String × Value}
    (h : observedMember config registry t = some p) : IsServiceEntry p.2 := by
  unfold observedMember at h
  cases hs : config.serviceNamed t.1.name with
  | error e => simp [hs] at h
  | ok service =>
    cases service with
    | none => simp [hs] at h
    | some service =>
      cases hi : operatorInstalled registry.status t.1.name with
      | error e => simp [hs, hi] at h
      | ok installed =>
        cases installed
        · simp [hs, hi] at h
        rcases ht : t.2 with e | (_ | kinds)
        · simp [hs, hi, ht] at h
        · simp [hs, hi, ht] at h
        cases he : kinds.isEmpty
        · simp only [hs, hi, ht, he, Bool.false_eq_true, if_false, Option.some.injEq] at h
          subst h
          obtain ⟨s, -, hobserved⟩ := hobs service (some kinds) hs ht
          cases hobserved with
          | resolved sightings =>
            exact ⟨_, rfl, by simpa using he, kindStatuses_foldl_sightings sightings⟩
        · simp [hs, hi, ht, he] at h

/-! ## The reconcile -/

/-- A read through the session looks in the session's namespace. -/
theorem run_getObject_session {r : Reconciling} {ns : Value} (hns : r.session.ns = .ok ns)
    (kind name apiVersion : Value) :
    (ReconcileM.getObject kind name apiVersion none).run.run r =
      (((getObject kind name ns apiVersion).run.run r.world).1,
        { r with world := ((getObject kind name ns apiVersion).run.run r.world).2 }) := by
  unfold ReconcileM.getObject
  simp only [run_run_bind, run_session, run_reconcileCheck, Session.resolveNamespace, hns,
    run_liftM]

end Controllers

end OperandLifecycle

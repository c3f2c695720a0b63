import OperandLifecycle.Proofs.RemovalPaths
/-!
# The removal phase of a request run

The removal phase of a run of request `R` from the store `s₀` deletes only what `Removable`
allows: `Removing` carries, through every step of the phase, that the world stays plain with
its settings, that the store is `Pruned` from `s₀` by the removable objects, and that every
registry and configuration the run has cached is the one `s₀` holds.

Each function of the phase gets a spec under `Removing`, from the deletion of one example
(`deleteResource_spec`, given that the lookups before it make the deletion `Authorized`) up to
the removal of an operand (`removeOperand_spec`) and the loop over the members a request no
longer names (`dropMembers_spec`), which removes an operand only when no name the request asks
for equals it (`NamesAll`, `requestedNames_spec`).
-/

open Std.Do

namespace OperandLifecycle.Controllers

open Json Cluster Store Reconcile Resource Catalog

set_option mvcgen.warning false

/-- A state of the removal phase of a run from `s₀`. -/
abbrev Removing (σ : Config.Settings) (D : Address → Value → Prop) (s₀ : Store)
    (st : Reconciling × ResourceCache) : Prop :=
  PlainWith σ (Pruned D s₀) st.1.world ∧ CacheHolds s₀ st.2

/-- What the deletion of one example may delete: every object of `s₀` its selection picks. -/
def Authorized (D : Address → Value → Prop) (s₀ : Store) (sample ns X : Value) : Prop :=
  ∀ kind name, sample.index "kind" = .ok kind →
    (do (← sample.field "metadata").orEmpty.field "name") = .ok name → name.truthy = true →
    (∀ K ∈ "Event" :: lookupKinds, kind ≠ .str K) ∧
    ∀ b m, s₀.objectAt b = some m → Selected kind ns (sample.getD "apiVersion")
      (.str (operandLabel ++ "=" ++ X.display)) (.str ("metadata.name=" ++ name.display)) b m →
      D b m

section Removing

variable {σ : Config.Settings} {D : Address → Value → Prop} {s₀ : Store}

/-! ### Deleting the resources of an operand -/

theorem Removing.of_read {st : Reconciling × ResourceCache} {A : Prop}
    (h : (PlainWith σ (Pruned D s₀) st.1.world ∧ A) ∧ CacheHolds s₀ st.2) : Removing σ D s₀ st :=
  ⟨h.1.1, h.2⟩

/-- The deletion of an example's resource by selectors, when the deletion is authorized, keeps
the removal phase. -/
theorem Removing.delete {st : Reconciling × ResourceCache} (h : Removing σ D s₀ st)
    {sample ns X kind name : Value} (hA : Authorized D s₀ sample ns X)
    (hkind : sample.index "kind" = .ok kind)
    (hname : (do (← sample.field "metadata").orEmpty.field "name") = .ok name)
    (htruthy : ¬(!name.truthy) = true) :
    (PlainWith σ (Pruned D s₀) st.1.world ∧ ∀ listed,
      st.1.world.store.list kind ns (sample.getD "apiVersion")
        (.str (operandLabel ++ "=" ++ X.display)) (.str ("metadata.name=" ++ name.display)) =
        .ok listed →
      Pruned D s₀ ((Store.deleteListed kind listed st.1.world.now).run.run st.1.world.store).2) ∧
    CacheHolds s₀ st.2 := by
  obtain ⟨hsafe, hD⟩ := hA kind name hkind hname (by simpa using htruthy)
  exact ⟨⟨h.1, fun _ hl => h.1.store.deleteListed hl hsafe hD _⟩, h.2⟩

theorem Removing.of_cached {st : Reconciling × ResourceCache} {A : Prop}
    (h : Removing σ D s₀ st ∧ A) : Removing σ D s₀ st :=
  h.1

/-- An authorized deletion of one example's resource keeps the removal phase. -/
theorem deleteResource_spec {sample ns X : Value} (hA : Authorized D s₀ sample ns X) :
    ⦃fun st => ⌜Removing σ D s₀ st⌝⦄ deleteResource sample ns X
    ⦃post⟨fun _ st => ⌜Removing σ D s₀ st⌝, fun _ st => ⌜Removing σ D s₀ st⌝⟩⦄ := by
  have hget := fun k n ns v => lift_spec
    (getObject_spec (P := PlainWith σ (Pruned D s₀)) (fun _ h => h.plain) k n ns v) (CacheHolds s₀)
  have hdel := fun k ns v l f => lift_spec (plainWith_deleteAll (σ := σ) (Q := Pruned D s₀)
    k ns v l f) (CacheHolds s₀)
  mvcgen [deleteResource, RequestM.check_eq, hget, hdel]
  all_goals first
    | assumption
    | exact Removing.of_read ‹_›
    | exact Removing.delete (Removing.of_read ‹_›) hA ‹_› ‹_› ‹_›

variable {R : View} {fin : Bool}

/-- Deleting is found safe only when no request but the triggering one refers to the
operand. -/
theorem fresh_nil_of_safe {s : Store} {shared X ns : Value} {ref : Referent} {b : Bool}
    (h : (do
        let remaining ← freshNamespaceReferents s shared X ns [ref]
        if (!remaining.isEmpty) = true then do
          let _ ← sortReferents remaining
          pure remaining.isEmpty
        else pure remaining.isEmpty) = .ok b) (hb : ¬(!b) = true) :
    freshNamespaceReferents s shared X ns [ref] = .ok [] := by
  cases hf : freshNamespaceReferents s shared X ns [ref] with
  | error e => simp [hf] at h
  | ok remaining =>
    cases remaining with
    | nil => rfl
    | cons r rs => cases hs : sortReferents (r :: rs) <;> simp_all

/-- The lookups of a removal, from the registry down to an example of a configured kind, make
its deletion authorized: every object its selection picks is removable. -/
theorem authorized_of_path {shared : Value} (hsafe : SafeExamples s₀ shared) {X : Value}
    {registry : View} (hreach : Reaches s₀ R X registry) (hdrop : Dropped fin R X)
    {op : Operator} (hop : registry.operatorNamed X = .ok (some op)) {config : View}
    (hcfg : viewAt s₀ configKind registry.namespace registry.name = .ok (some config))
    {service : Service} (hserv : config.serviceNamed X = .ok (some service))
    {sub : Option Value} {csv : Value} (hinst : installationOfIn s₀ shared op = .ok (sub, some csv))
    {ns : Value} (hns : (do (← csv.index "metadata").index "namespace") = .ok ns)
    (halone : NoOtherReferent s₀ shared R X ns) {samples : List Value}
    (hex : examplesOf csv = .ok samples) {sample : Value} (hmem : sample ∈ samples) {kind : Value}
    (hkind : sample.index "kind" = .ok kind) {k : Option (String × Value)}
    (hmatch : service.matchKind kind = .ok k) (hk : ¬ k.isNone = true) :
    Authorized (Removable s₀ shared R fin) s₀ sample ns X := by
  intro kind' name hkind' hname htruthy
  have e : kind = kind' := by rw [hkind] at hkind'; exact Except.ok.inj hkind'
  subst e
  obtain ⟨k, rfl⟩ := Option.ne_none_iff_exists'.1 (by simpa using hk)
  exact ⟨hsafe op sub csv samples sample kind hinst hex hmem hkind, fun b m _ hsel =>
    ⟨X, hdrop, ⟨registry, hreach, op, hop, config, hcfg, service, hserv, sub, csv, hinst, ns, hns,
      halone, samples, hex, sample, hmem, kind, hkind, ⟨k, hmatch⟩, name, hname, htruthy⟩, hsel⟩⟩

/-- Removing an operand through a registry that reaches it, for a request that drops it, keeps
the removal phase: every deletion on the way is authorized by the lookups before it. -/
theorem deleteOperand_spec (hs₀ : s₀.WF)
    (hsafe : SafeExamples s₀ (σ.get "cluster_operator_namespace")) {X : Value} {registry : View}
    (hreach : Reaches s₀ R X registry) (hdrop : Dropped fin R X) :
    ⦃fun st => ⌜Removing σ (Removable s₀ (σ.get "cluster_operator_namespace") R fin) s₀ st⌝⦄
    deleteOperand registry X (Referent.ofView R)
    ⦃post⟨fun _ st => ⌜Removing σ (Removable s₀ (σ.get "cluster_operator_namespace") R fin) s₀ st⌝,
      fun _ st => ⌜Removing σ (Removable s₀ (σ.get "cluster_operator_namespace") R fin) s₀ st⌝⟩⦄ := by
  let D := Removable s₀ (σ.get "cluster_operator_namespace") R fin
  have hcfg := cachedView_spec (P := PlainWith σ (Pruned D s₀))
    (fun _ h => ⟨h.plain, h.store.lookups configKind (by simp [lookupKinds])⟩)
  have hinst := fun op => lift_read (P := PlainWith σ (Pruned D s₀)) (fun _ h => h.plain)
    (fun _ hw => readsAs_installationOfOperator hw op) (CacheHolds s₀)
  have hsafe' := fun operand ns ref => lift_read (P := PlainWith σ (Pruned D s₀)) (fun _ h => h.plain)
    (fun _ hw => readsAs_deleteSafe hw operand ns ref) (CacheHolds s₀)
  have hitem := fun sample ns => triple_of_fact (P := Removing σ D s₀)
    (fun (hA : Authorized D s₀ sample ns X) => tryItem_spec (deleteResource_spec hA))
  have hev := fun type reason message => recordEvent_spec (σ := σ) (Q := Pruned D s₀)
    (fun _ _ h hw => h.event hw) (fun _ h => h.wf) type reason message (CacheHolds s₀)
  have hraise := fun errors => raiseGathered_spec (P := Removing σ D s₀) errors
  mvcgen [deleteOperand, RequestM.check_eq, hcfg, hinst, hsafe', hitem, hev, hraise]
    invariants
    · post⟨fun _ st => ⌜Removing σ D s₀ st⌝, fun _ st => ⌜Removing σ D s₀ st⌝⟩
    · post⟨fun _ st => ⌜Removing σ D s₀ st⌝, fun _ st => ⌜Removing σ D s₀ st⌝⟩
  case vc6 =>
    -- the lookups on the way, read in `s₀`, make a removal path down to this example
    obtain rfl := ‹(_ : Option View) = some _›
    have hcfg := (‹Removing σ D s₀ _ ∧ viewAt s₀ configKind _ _ = .ok _›).2
    obtain ⟨⟨hw₁, ⟨sub, csv⟩, hinst, rfl⟩, -⟩ :=
      ‹(PlainWith σ (Pruned D s₀) _ ∧ ∃ b, installationOfIn _ _ _ = .ok b ∧ _ = b) ∧ _›
    obtain rfl : csv = some _ := ‹(_ : Option Value × Option Value).2 = some _›
    obtain ⟨⟨hw₂, safe, hans, rfl⟩, -⟩ :=
      ‹(PlainWith σ (Pruned D s₀) _ ∧ ∃ b : Bool, _) ∧ CacheHolds s₀ _›
    obtain ⟨rfl, rfl⟩ := Prod.mk.inj ‹(_, _) = (some _, some _)›
    rw [hw₁.shared, hw₁.store.installationOfIn_eq] at hinst
    have hfresh := fresh_nil_of_safe hans ‹_›
    rw [hw₂.shared, hw₂.store.freshNamespaceReferents_eq hs₀] at hfresh
    refine ⟨‹_›, authorized_of_path hsafe hreach hdrop ‹_› hcfg ‹_› hinst ‹_›
      (noOtherReferent_of_fresh hs₀ hfresh) ‹_› (by simp [‹_ = _ ++ _ :: _›]) ‹_› ‹_› ‹_›⟩
  all_goals first
    | assumption
    | exact Removing.of_cached ‹_›
    | exact Removing.of_read ‹_›
    | exact absurd (Prod.mk.inj ‹(_, none) = (some _, some _)›).2 (by simp)

theorem forall_mem_append_singleton {α : Type} {regs : List (α × View)} {P : View → Prop}
    (h : ∀ q ∈ regs, P q.2) {r : View} (hr : P r) (k : α) : ∀ q ∈ regs ++ [(k, r)], P q.2 := by
  intro q hq
  rcases List.mem_append.1 hq with hq | hq
  · exact h q hq
  · rw [List.mem_singleton.1 hq]
    exact hr

/-- Replacing or appending a registry that satisfies `P` in a list of registries that all do
gives one whose registries all do. -/
theorem forall_mem_update {α : Type} {regs : List (α × View)} {P : View → Prop}
    (h : ∀ q ∈ regs, P q.2) {r : View} (hr : P r) (c : Prop) [Decidable c]
    (g : α × View → Prop) [DecidablePred g] (k : α) :
    ∀ q ∈ (if c then regs.map (fun p => if g p then (p.1, r) else p) else regs ++ [(k, r)]),
      P q.2 := by
  split
  · intro q hq
    obtain ⟨p, hp, rfl⟩ := List.mem_map.1 hq
    split
    · exact hr
    · exact h p hp
  · exact forall_mem_append_singleton h hr k

/-- A registry listed, whose status lists the request among the operand's requesters. -/
theorem reaches_of_listed {X : Value} {listed : List Value}
    (hl : s₀.list (.str registryKind) .null (.str apiVersion) .null .null = .ok listed) {m : Value}
    {registry : View} (hm : View.ofManifest m = .ok registry) (hmem : m ∈ listed)
    (hreq : listsRequester registry X (Referent.ofView R) = .ok true) : Reaches s₀ R X registry :=
  .inr ⟨listed, hl, m, hmem, hm, hreq⟩

/-- Every registry gathered so far reaches the operand from the request. -/
abbrev AllReach (s₀ : Store) (R : View) (X : Value) (regs : List ((Value × Value) × View)) : Prop :=
  ∀ q ∈ regs, Reaches s₀ R X q.2

/-- Removing an operand the request drops keeps the removal phase: every registry it gathers
reaches the operand, from the request's entries or from the registries' statuses. -/
theorem removeOperand_spec (hs₀ : s₀.WF)
    (hsafe : SafeExamples s₀ (σ.get "cluster_operator_namespace")) {X : Value}
    (hdrop : Dropped fin R X) :
    ⦃fun st => ⌜Removing σ (Removable s₀ (σ.get "cluster_operator_namespace") R fin) s₀ st⌝⦄
    removeOperand R X
    ⦃post⟨fun _ st => ⌜Removing σ (Removable s₀ (σ.get "cluster_operator_namespace") R fin) s₀ st⌝,
      fun _ st => ⌜Removing σ (Removable s₀ (σ.get "cluster_operator_namespace") R fin) s₀ st⌝⟩⦄ := by
  let D := Removable s₀ (σ.get "cluster_operator_namespace") R fin
  have hreg := cachedView_spec (P := PlainWith σ (Pruned D s₀))
    (fun _ h => ⟨h.plain, h.store.lookups registryKind (by simp [lookupKinds])⟩)
  have hlist := fun k ns v l f => lift_spec
    (listObjects_spec (P := PlainWith σ (Pruned D s₀)) (fun _ h => h.plain) k ns v l f) (CacheHolds s₀)
  have hitem := fun registry => triple_of_fact (P := Removing σ D s₀)
    (fun (hr : Reaches s₀ R X registry) => tryItem_spec (deleteOperand_spec hs₀ hsafe hr hdrop))
  have hraise := fun errors => raiseGathered_spec (P := Removing σ D s₀) errors
  mvcgen [removeOperand, RequestM.check_eq, hreg, hlist, hitem, hraise]
    invariants
    · post⟨fun p st => ⌜Removing σ D s₀ st ∧ AllReach s₀ R X p.2⌝,
        fun _ st => ⌜Removing σ D s₀ st⌝⟩
    · post⟨fun p st => ⌜Removing σ D s₀ st ∧ AllReach s₀ R X p.2⌝,
        fun _ st => ⌜Removing σ D s₀ st⌝⟩
    · post⟨fun _ st => ⌜Removing σ D s₀ st⌝, fun _ st => ⌜Removing σ D s₀ st⌝⟩
  -- a registry an entry names
  case vc2 =>
    obtain ⟨hrm, hview⟩ := ‹Removing σ D s₀ _ ∧ viewAt s₀ registryKind _ _ = .ok _›
    obtain rfl := ‹(_ : Option View) = some _›
    exact ⟨hrm, forall_mem_update (‹Removing σ D s₀ _ ∧ AllReach s₀ R X _›).2
      (.inl ⟨_, ‹R.requests = .ok _›, _, by simp [‹_ = _ ++ _ :: _›], hview⟩) _ _ _⟩
  case vc3 => exact ⟨Removing.of_cached ‹_›, (‹Removing σ D s₀ _ ∧ AllReach s₀ R X _›).2⟩
  case vc5 => exact ⟨‹_›, fun _ hq => absurd hq List.not_mem_nil⟩
  -- a registry whose status lists the request
  case vc8 =>
    obtain ⟨hrm, hregs⟩ := ‹Removing σ D s₀ _ ∧ AllReach s₀ R X _›
    obtain ⟨⟨hw, -, hl⟩, -⟩ := ‹(PlainWith σ (Pruned D s₀) _ ∧ _ = true ∧ _) ∧ CacheHolds s₀ _›
    rw [hw.store.list_registries_eq hs₀] at hl
    obtain ⟨rfl, -⟩ := Bool.and_eq_true_iff.1 ‹(_ && _) = true›
    exact ⟨hrm, forall_mem_append_singleton hregs
      (reaches_of_listed hl ‹_› (by simp [‹_ = _ ++ _ :: _›]) ‹_›) _⟩
  case vc12 => exact ⟨Removing.of_read ‹_›, (‹Removing σ D s₀ _ ∧ AllReach s₀ R X _›).2⟩
  case vc13 =>
    exact ⟨‹_›, (‹Removing σ D s₀ _ ∧ AllReach s₀ R X _›).2 _ (by simp [‹_ = _ ++ _ :: _›])⟩
  all_goals first
    | assumption
    | exact Removing.of_cached ‹_›
    | exact Removing.of_read ‹_›

/-! ### The names a request asks for -/

/-- Every operand of the request's entries is named among `names`. -/
def NamesAll (R : View) (names : List Value) : Prop :=
  ∃ entries, R.requests = .ok entries ∧
    ∀ e ∈ entries, ∃ ops, e.operands = .ok ops ∧ ∀ o ∈ ops, o.name ∈ names

/-- A name none of the request's names equals is a name the request does not ask for. -/
theorem unnamed_of_namesAll {R : View} {names : List Value} (h : NamesAll R names) {X : Value}
    (hX : names.any (·.equiv X) = false) : Unnamed R X := by
  obtain ⟨entries, hentries, hall⟩ := h
  refine ⟨entries, hentries, fun e he => ?_⟩
  obtain ⟨ops, hops, hmem⟩ := hall e he
  exact ⟨ops, hops, fun o ho => by simpa using List.any_eq_false.1 hX _ (hmem o ho)⟩

/-- The names of an entry's operands are appended to those found before. -/
theorem entryNames_spec (entry : RequestEntry) (acc : List Value)
    {P : Reconciling × ResourceCache → Prop} :
    ⦃fun st => ⌜P st⌝⦄ entryNames entry acc
    ⦃post⟨fun names st => ⌜P st ∧ ∃ ops, entry.operands = .ok ops ∧
        names = acc ++ ops.map (·.name)⌝,
      fun _ st => ⌜P st⌝⟩⦄ := by
  mvcgen [entryNames, RequestM.check_eq]
    invariants
    · post⟨fun p st => ⌜P st ∧ p.2 = acc ++ List.map (·.name) ( List.Cursor.prefix p.1)⌝, fun _ st => ⌜P st⌝⟩
  case vc2 =>
    obtain ⟨hP, rfl⟩ := ‹P _ ∧ _ = _›
    refine ⟨hP, ?_⟩
    rw [List.map_append, List.map_singleton, ← List.append_assoc]
  case vc4 => exact ⟨(‹P _ ∧ _›).1, _, ‹_›, (‹P _ ∧ _›).2⟩
  all_goals simp_all

/-- The names a request asks for name all of its operands, and finding them changes nothing. -/
theorem requestedNames_spec (R : View) {P : Reconciling × ResourceCache → Prop} :
    ⦃fun st => ⌜P st⌝⦄ requestedNames R
    ⦃post⟨fun names st => ⌜P st ∧ NamesAll R names⌝, fun _ st => ⌜P st⌝⟩⦄ := by
  have hentry := fun entry acc => entryNames_spec (P := P) entry acc
  mvcgen [requestedNames, RequestM.check_eq, hentry]
    invariants
    · post⟨fun p st => ⌜P st ∧ ∀ e ∈ List.Cursor.prefix p.1, ∃ ops, e.operands = .ok ops ∧
        ∀ o ∈ ops, o.name ∈ p.2⌝, fun _ st => ⌜P st⌝⟩
  -- the names of the entry come after those of the entries before it
  case vc2 =>
    rename_i hbefore _ _ hcur
    obtain ⟨-, hbefore⟩ := hbefore
    obtain ⟨hP, ops, hops, rfl⟩ := hcur
    refine ⟨hP, fun e he => ?_⟩
    rcases List.mem_append.1 he with he | he
    · obtain ⟨ops', hops', hmem⟩ := hbefore e he
      exact ⟨ops', hops', fun o ho => List.mem_append_left _ (hmem o ho)⟩
    · rw [List.mem_singleton.1 he]
      exact ⟨ops, hops, fun o ho => List.mem_append_right _ (List.mem_map_of_mem ho)⟩
  case vc4 => exact ⟨‹_›, by simp⟩
  case vc5 => exact ⟨(‹P _ ∧ _›).1, _, ‹_›, (‹P _ ∧ _›).2⟩
  all_goals exact (‹P _ ∧ _›).1

/-! ### Dropping the members a request no longer names -/

theorem dropTurn_spec (hs₀ : s₀.WF)
    (hsafe : SafeExamples s₀ (σ.get "cluster_operator_namespace")) {requested : List Value}
    (hnames : NamesAll R requested) (t : Tally) (member : Value) :
    ⦃fun st => ⌜Removing σ (Removable s₀ (σ.get "cluster_operator_namespace") R false) s₀ st⌝⦄
    dropTurn R requested t member
    ⦃post⟨fun _ st => ⌜Removing σ (Removable s₀ (σ.get "cluster_operator_namespace") R false) s₀ st⌝,
      fun _ st => ⌜Removing σ (Removable s₀ (σ.get "cluster_operator_namespace") R false) s₀ st⌝⟩⦄ := by
  let D := Removable s₀ (σ.get "cluster_operator_namespace") R false
  have hitem := fun X => triple_of_fact (P := Removing σ D s₀)
    (fun (h : Unnamed R X) => tryItem_spec (removeOperand_spec hs₀ hsafe (.inr h)))
  have hnow := now_request_spec (P := PlainWith σ (Pruned D s₀)) (fun _ h => h.plain)
    (CacheHolds s₀)
  mvcgen [dropTurn, operandCondition, RequestM.check_eq, hitem, hnow]
  -- the member's operand is removed only when no name of the request equals it
  exact ⟨‹_›, unnamed_of_namesAll hnames (Bool.eq_false_iff.2 ‹_›)⟩

/-- Dropping the members a request no longer names keeps the removal phase of a reconcile. -/
theorem dropMembers_spec (hs₀ : s₀.WF)
    (hsafe : SafeExamples s₀ (σ.get "cluster_operator_namespace")) {requested : List Value}
    (hnames : NamesAll R requested) (t : Tally) :
    ⦃fun st => ⌜Removing σ (Removable s₀ (σ.get "cluster_operator_namespace") R false) s₀ st⌝⦄
    dropMembers R requested t
    ⦃post⟨fun _ st => ⌜Removing σ (Removable s₀ (σ.get "cluster_operator_namespace") R false) s₀ st⌝,
      fun _ st => ⌜Removing σ (Removable s₀ (σ.get "cluster_operator_namespace") R false) s₀ st⌝⟩⦄ := by
  have hturn := dropTurn_spec hs₀ hsafe hnames
  mvcgen [dropMembers, RequestM.check_eq, hturn]
    invariants
    · post⟨fun _ st => ⌜Removing σ (Removable s₀ (σ.get "cluster_operator_namespace") R false) s₀ st⌝,
        fun _ st => ⌜Removing σ (Removable s₀ (σ.get "cluster_operator_namespace") R false) s₀ st⌝⟩

end Removing

end OperandLifecycle.Controllers

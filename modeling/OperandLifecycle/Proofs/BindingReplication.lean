import OperandLifecycle.Proofs.BindingCopies
import OperandLifecycle.Proofs.ConfigStatus
import OperandLifecycle.Proofs.GatheredFailures
/-!
# Replicating bindings

A reconcile of binding information `B` copies the public bindings of `B`, Secrets and ConfigMaps
of `B`'s namespace, into the namespace of every request that shares with `B`, under the names
the request's overrides give. A reconcile that raises nothing leaves every such copy in place
(`bindings_replicated_to_sharing_requests`).

The proof follows the controller's two loops. `Replicating` is the invariant of a reconcile in
progress: the store differs from the one it started from only where the reconcile may write
(`CopyZone`), every planned place holds an object a copy can be written over, and the copies
done so far are held. A copy's turn keeps it (`Replicating.copyTurn`), a target's turn keeps it
with all the copies of the target's request made (`Replicating.targetTurn`), and
`Replicating.loop` carries it through a loop whose turns add no failure. The targets stand for
exactly the requests `B` shares with (`exists_shared_of_target`, `exists_target_of_shared`).

Two copies that land on one place are written in turn and the last one stays, and the update
of an object pending removal removes it (`pending_copy_not_replicated`); the theorem therefore
asks that planned copies sharing a place copy one source (`NoCollision`) and that every object
at a planned place can be written over.
-/

open Std.Do

namespace OperandLifecycle.Json

theorem Value.getD_of_field {v x : Value} {k : String} (h : v.field k = .ok x) : v.getD k = x := by
  cases v with
  | obj fs =>
    simp only [Value.field, Except.ok.injEq] at h
    simp only [Value.getD, Value.get?, h]
  | _ => simp [Value.field] at h

end OperandLifecycle.Json

namespace OperandLifecycle.Catalog

open Json

theorem Referent.same_symm {a b : Referent} (ha : a.Keyed) (h : a.same b = true) :
    b.same a = true := by
  simp only [Referent.same, Bool.and_eq_true] at *
  exact ⟨Value.heldEquiv_symm ha.1 h.1, Value.heldEquiv_symm ha.2 h.2⟩

end OperandLifecycle.Catalog

namespace OperandLifecycle.Cluster.Store

open Json

theorem mem_of_filterAuxM_ok {α ε : Type} {p : α → Except ε Bool} :
    ∀ {l acc res : List α}, List.filterAuxM p l acc = .ok res → ∀ x ∈ res, x ∈ l ∨ x ∈ acc
  | [], acc, res, h, x, hx => by
    simp only [List.filterAuxM, except_pure, Except.ok.injEq] at h
    exact .inr (h ▸ hx)
  | y :: l, acc, res, h, x, hx => by
    simp only [List.filterAuxM] at h
    cases hy : p y with
    | error e => simp [hy] at h
    | ok b =>
      simp only [hy, except_ok_bind] at h
      rcases mem_of_filterAuxM_ok h x hx with hl | hacc
      · exact .inl (List.mem_cons_of_mem y hl)
      · cases b
        · exact .inr hacc
        · rcases List.mem_cons.1 hacc with rfl | hacc
          · exact .inl List.mem_cons_self
          · exact .inr hacc

theorem mem_of_filterM_ok {α ε : Type} {p : α → Except ε Bool} {l res : List α}
    (h : l.filterM p = .ok res) {x : α} (hx : x ∈ res) : x ∈ l := by
  unfold List.filterM at h
  cases hr : List.filterAuxM p l [] with
  | error e => simp [hr] at h
  | ok acc =>
    simp only [hr, except_ok_bind, except_pure, Except.ok.injEq] at h
    subst h
    simpa using mem_of_filterAuxM_ok hr x (List.mem_reverse.1 hx)

theorem mem_filterAuxM_ok {α ε : Type} {p : α → Except ε Bool} :
    ∀ {l acc res : List α}, List.filterAuxM p l acc = .ok res →
      ∀ x, (x ∈ l ∧ p x = .ok true) ∨ x ∈ acc → x ∈ res
  | [], acc, res, h, x, hx => by
    simp only [List.filterAuxM, except_pure, Except.ok.injEq] at h
    rcases hx with ⟨hx, -⟩ | hx
    · simp at hx
    · exact h ▸ hx
  | y :: l, acc, res, h, x, hx => by
    simp only [List.filterAuxM] at h
    cases hy : p y with
    | error e => simp [hy] at h
    | ok b =>
      simp only [hy, except_ok_bind] at h
      refine mem_filterAuxM_ok h x ?_
      rcases hx with ⟨hx, hpx⟩ | hacc
      · rcases List.mem_cons.1 hx with rfl | hx
        · rw [hy] at hpx
          cases hpx
          exact .inr List.mem_cons_self
        · exact .inl ⟨hx, hpx⟩
      · cases b
        · exact .inr hacc
        · exact .inr (List.mem_cons_of_mem _ hacc)

theorem mem_filterM_ok {α ε : Type} {p : α → Except ε Bool} {l res : List α}
    (h : l.filterM p = .ok res) {x : α} (hx : x ∈ l) (hp : p x = .ok true) : x ∈ res := by
  unfold List.filterM at h
  cases hr : List.filterAuxM p l [] with
  | error e => simp [hr] at h
  | ok acc =>
    simp only [hr, except_ok_bind, except_pure, Except.ok.injEq] at h
    subst h
    exact List.mem_reverse.2 (mem_filterAuxM_ok hr x (.inl ⟨hx, hp⟩))

/-- Every object a listing of all namespaces answers is filed at an address of the kind asked
for, on a shelf whose version fits. -/
theorem exists_objectAt_of_mem_list {s : Store} (hs : s.Keyed) {kind v l f : Value}
    (hK : kind.hashable = true) {listed : List Value} (h : s.list kind .null v l f = .ok listed)
    {o : Value} (ho : o ∈ listed) :
    ∃ a : Address, s.objectAt a = some o ∧ a.kind = kind ∧ versionFits v a.apiVersion = true := by
  unfold list at h
  simp only [Value.isNull, if_true] at h
  rw [mapM_shelvesOf s hK _ _ (keys_hashable hs)] at h
  simp only [except_ok_bind] at h
  obtain ⟨found, hfound, hof⟩ := List.mem_flatten.1 (mem_of_filterM_ok h ho)
  obtain ⟨n, hn, rfl⟩ := List.mem_map.1 hfound
  obtain ⟨p, hp, hop⟩ := List.mem_flatMap.1 hof
  obtain ⟨hp, hfits⟩ := List.mem_filter.1 hp
  obtain ⟨⟨name, o'⟩, hmem, rfl⟩ := List.mem_map.1 hop
  cases hsh : s.shelvesAt n kind with
  | none => simp [hsh] at hp
  | some shelves =>
    rw [hsh, Option.getD_some] at hp
    have hkeyed := shelvesKeyed_of_shelvesAt hs hsh
    refine ⟨⟨n, kind, p.1, name⟩, ?_, rfl, hfits⟩
    have hshelf : shelves.lookup p.1 = some p.2 :=
      Table.lookup_of_mem hkeyed.1 hp (Value.heldEquiv_self (hkeyed.1.hashable p hp))
    have hname : p.2.lookup name = some o' :=
      Table.lookup_of_mem (hkeyed.2 p hp) hmem (Value.heldEquiv_self ((hkeyed.2 p hp).hashable _ hmem))
    simp [objectAt, hsh, hshelf, hname]

end OperandLifecycle.Cluster.Store

namespace OperandLifecycle.Controllers

open Json Cluster Store Reconcile Resource Catalog Status

/-- A view's metadata is its manifest's, members missing alike. -/
theorem View.getD_metadata_of_ofManifest {m : Value} {v : View} (h : View.ofManifest m = .ok v)
    (k : String) : v.metadata.getD k = (m.getD "metadata").getD k := by
  unfold View.ofManifest at h
  obtain ⟨md, hmd, h⟩ := except_bind_eq_ok h
  obtain ⟨name, -, h⟩ := except_bind_eq_ok h
  cases hn : name.truthy <;>
    simp only [hn, Bool.not_false, Bool.not_true, if_true, if_false, Bool.false_eq_true] at h
  · cases h
  · cases h
    rw [getD_orEmpty]
    cases m <;> cases hmd
    rfl

/-- A request the store lists is filed under its own name and namespace. -/
theorem objectAt_of_mem_requestsIn {s : Store} (hs : s.WF) {views : List View}
    (h : requestsIn s = .ok views) {v : View} (hv : v ∈ views) :
    ∃ M, s.objectAt ⟨v.namespace, .str requestKind, .str apiVersion, v.name⟩ = some M ∧
      View.ofManifest M = .ok v := by
  unfold requestsIn at h
  obtain ⟨manifests, hlist, hmap⟩ := except_bind_eq_ok h
  obtain ⟨M, hM, hv'⟩ := exists_of_mapM_ok hmap v hv
  obtain ⟨a, hat, hk, hver⟩ := exists_objectAt_of_mem_list hs.keyed rfl hlist hM
  obtain ⟨b, hread, hba⟩ := hs.named_of_objectAt hat
  obtain ⟨hns, -, -, hname⟩ := parts_of_read hread
  have ha := (hashable_of_objectAt hs.keyed hat).1
  -- the view names the address its object is filed under, up to equal keys
  have heq : (⟨v.namespace, .str requestKind, .str apiVersion, v.name⟩ : Address).Equiv a := by
    have hvns : v.namespace = b.ns := by
      rw [View.namespace, View.getD_metadata_of_ofManifest hv', hns]
    have hvname : v.name = b.name := by
      rw [View.name, View.getD_metadata_of_ofManifest hv', hname]
    refine ⟨hvns ▸ hba.1, ?_, ?_, hvname ▸ hba.2.2.2⟩
    · rw [hk]
      exact Value.heldEquiv_self rfl
    · rw [versionFits_str_iff.1 hver]
      exact Value.heldEquiv_self rfl
  exact ⟨M, (objectAt_congr s (heq.hashable_left ha) heq).trans hat, hv'⟩

/-- Every program keeps a fact that always holds. -/
theorem triple_true {σ ε α : Type} (x : ExceptT ε (StateM σ) α) :
    ⦃fun _ => ⌜True⌝⦄ x ⦃post⟨fun _ _ => ⌜True⌝, fun _ _ => ⌜True⌝⟩⦄ := by
  rw [triple_iff_run]
  intro s _
  rcases x.run.run s with ⟨_ | _, _⟩ <;> trivial

/-- A program that answers, of whose answers a triple says `Q`, answers something `Q` holds of. -/
theorem ok_of_triple_true {σ ε α : Type} {x : ExceptT ε (StateM σ) α} {Q : α → Prop}
    (h : ⦃fun _ => ⌜True⌝⦄ x ⦃post⟨fun a _ => ⌜Q a⌝, fun _ _ => ⌜True⌝⟩⦄) {s s' : σ} {a : α}
    (hrun : x.run.run s = (.ok a, s')) : Q a := by
  have h' := (triple_iff_run _ _ _).1 h s trivial
  rw [hrun] at h'
  exact h'

set_option mvcgen.warning false in
/-- Bringing an existing copy up to date answers that the copy is made, whenever it answers. -/
theorem refreshCopy_answers_true (c : Copy) (request : View) (copy : Value) :
    ⦃fun _ => ⌜True⌝⦄ refreshCopy c request copy
    ⦃post⟨fun b _ => ⌜b = true⌝, fun _ _ => ⌜True⌝⟩⦄ := by
  have hg := fun k n ns v => triple_true (getObject k n ns v)
  have hu := fun res => triple_true (Cluster.update res)
  mvcgen [refreshCopy, ClusterM.check_eq, hg, hu]

variable {w w' : World}

/-- A copy answers that its source is missing exactly when the lookup finds none, and then it
changes nothing. -/
theorem run_copyResource_answer (hw : w.Plain) (c : Copy) (sourceNs : Value) (request : View)
    {b : Bool} (hrun : (copyResource c sourceNs request).run.run w = (.ok b, w')) :
    ∃ found, w.store.get (.str c.kind) c.source sourceNs (.str "v1") = .ok found ∧
      (b = false ↔ found = none) ∧ (b = false → w' = w) := by
  rw [copyResource_eq] at hrun
  obtain ⟨p, w₁, hp, hrun⟩ := run_run_bind_ok hrun
  rw [run_getObject hw] at hp
  obtain ⟨found, hget, rfl, rfl⟩ : ∃ found,
      w.store.get (.str c.kind) c.source sourceNs (.str "v1") = .ok found ∧ p = (true, found) ∧
        w = w₁ := by
    cases hget : w.store.get (.str c.kind) c.source sourceNs (.str "v1") with
    | error e =>
      rw [hget] at hp
      cases hp
    | ok found =>
      rw [hget] at hp
      cases hp
      exact ⟨found, rfl, rfl, rfl⟩
  refine ⟨found, hget, ?_⟩
  cases found with
  | none =>
    simp only [Bool.not_true, Bool.false_eq_true, if_false, run_run_pure] at hrun
    cases hrun
    exact ⟨iff_of_true rfl rfl, fun _ => rfl⟩
  | some src =>
    -- once the source is found, every answer is that the copy is made
    suffices hb : b = true by
      subst hb
      exact ⟨iff_of_false Bool.noConfusion (Option.some_ne_none src), fun h => Bool.noConfusion h⟩
    simp only [Bool.not_true, Bool.false_eq_true, if_false] at hrun
    obtain ⟨r₁, hao, -⟩ := run_addOwner hw request.manifest (copyObject c request.namespace src)
    obtain ⟨res, w₂, hres, hrun⟩ := run_run_bind_ok hrun
    rw [hao] at hres
    obtain ⟨rfl, rfl⟩ := Prod.mk.inj hres
    obtain ⟨q, w₃, hq, hrun⟩ := run_run_bind_ok hrun
    obtain ⟨n, hcr⟩ := run_create hw res
    rw [hcr] at hq
    -- a create that finds the place taken turns into a refresh of the copy there
    rcases hx : (Store.create res (uidText (w.created + 1)) w.now).run.run w.store with
      ⟨e | created, s₁⟩ <;> rw [hx] at hq
    · cases hq
    cases hq
    cases created
    · simp only [Bool.not_true, Bool.false_eq_true, if_false] at hrun
      exact ok_of_triple_true (refreshCopy_answers_true _ _ _) hrun
    · simp only [Bool.not_true, Bool.false_eq_true, if_false, if_true, run_run_pure] at hrun
      cases hrun
      rfl

/-! ### Plain worlds stay plain -/

theorem create_plain (res : Value) :
    ⦃fun w => ⌜w.Plain⌝⦄ Cluster.create res ⦃post⟨fun _ w => ⌜w.Plain⌝, fun _ w => ⌜w.Plain⌝⟩⦄ := by
  rw [triple_iff_run]
  intro w hw
  obtain ⟨n, h⟩ := run_create hw res
  rw [h]
  rcases (Store.create res (uidText (w.created + 1)) w.now).run.run w.store with ⟨_ | _, _⟩ <;>
    exact ⟨hw.faults, hw.backend⟩

theorem update_plain (res : Value) :
    ⦃fun w => ⌜w.Plain⌝⦄ Cluster.update res ⦃post⟨fun _ w => ⌜w.Plain⌝, fun _ w => ⌜w.Plain⌝⟩⦄ := by
  rw [triple_iff_run]
  intro w hw
  rw [run_update hw]
  rcases (Store.update res).run.run w.store with ⟨_ | _, _⟩ <;> exact ⟨hw.faults, hw.backend⟩

theorem getObject_keeps_plain (k n ns v : Value) :
    ⦃fun w => ⌜w.Plain⌝⦄ getObject k n ns v ⦃post⟨fun _ w => ⌜w.Plain⌝, fun _ w => ⌜w.Plain⌝⟩⦄ := by
  rw [triple_iff_run]
  intro w hw
  rw [run_getObject hw]
  cases w.store.get k n ns v <;> exact hw

set_option mvcgen.warning false in
/-- Posting an event in a plain world leaves it plain. -/
theorem record_plain (owner : Value) (type : Event.EventType) (reason message : Value) :
    ⦃fun w => ⌜w.Plain⌝⦄ Event.record owner type reason message
    ⦃post⟨fun _ w => ⌜w.Plain⌝, fun _ w => ⌜w.Plain⌝⟩⦄ := by
  have hc := create_plain
  have hu := update_plain
  have hg := getObject_keeps_plain
  mvcgen [Event.record, Event.bump, ClusterM.check_eq, ClusterM.setting, ClusterM.settings,
    ClusterM.now, hc, hu, hg]

/-! ### Steps of a reconcile that write in a few places -/

/-- A step of a reconcile that writes at most at the places `W`: the session stays, the world
stays plain with a well-formed store, and every object elsewhere stays. -/
structure StepWithin (W : Address → Prop) (r r' : Reconciling) : Prop where
  session : r'.session = r.session
  plain : r'.world.Plain
  wf : r'.world.store.WF
  frame : ∀ d, ¬ W d → r'.world.store.objectAt d = r.world.store.objectAt d

/-- Posting an event about the resource writes only Events of its namespace. -/
theorem stepWithin_recordEvent {r : Reconciling} (hw : r.world.Plain) (hwf : r.world.store.WF)
    (type : Event.EventType) (reason message : String) :
    StepWithin (Event.FiledFor r.session.manifest) r
      ((ReconcileM.recordEvent type reason message).run.run r).2 := by
  have hsteady : Steady r ((ReconcileM.recordEvent type reason message).run.run r).2 :=
    steady_recordEvent ⟨rfl, rfl, Within.refl hwf⟩ type reason message
  refine ⟨hsteady.session, ?_, hsteady.store.wf, fun d hd => hsteady.store.frame d hd id⟩
  rw [run_recordEvent]
  exact state_of_run (record_plain _ type _ _) hw rfl

/-! ### Loops -/

/-- A loop whose every turn, from a state the invariant allows after the items before it, goes
on with a state it allows after the item too, ends in a state it allows after all items. -/
theorem run_forIn_invariant {α β σ ε : Type} (xs : List α)
    (body : α → β → ExceptT ε (StateM σ) (ForInStep β)) (I : List α → β → σ → Prop)
    (hstep : ∀ pre x b s step s', x ∈ xs → I pre b s → (body x b).run.run s = (.ok step, s') →
      ∃ b', step = .yield b' ∧ I (pre ++ [x]) b' s')
    {b res : β} {s s' : σ} (h0 : I [] b s) (hrun : (forIn xs b body).run.run s = (.ok res, s')) :
    I xs res s' := by
  -- the items still to come are a suffix of the list, the ones done its prefix
  suffices h : ∀ suf pre, pre ++ suf = xs → ∀ b s, I pre b s →
      (forIn suf b body).run.run s = (.ok res, s') → I xs res s' from h xs [] rfl b s h0 hrun
  intro suf
  induction suf with
  | nil =>
    intro pre hxs b s hI hrun
    simp only [List.forIn_nil, run_run_pure] at hrun
    cases hrun
    rw [List.append_nil] at hxs
    exact hxs ▸ hI
  | cons x suf ih =>
    intro pre hxs b s hI hrun
    rw [List.forIn_cons] at hrun
    obtain ⟨step, s₁, hbody, hrest⟩ := run_run_bind_ok hrun
    obtain ⟨b', rfl, hI'⟩ := hstep pre x b s step s₁ (by rw [← hxs]; simp) hI hbody
    exact ih (pre ++ [x]) (by rw [← hxs]; simp) b' s₁ hI' hrest

/-! ### The turns of the controller's loops -/

/-- One copy of a request's turn: attempted, its failure gathered, a missing source reported. -/
def copyTurn (b : BindInfo) (request : View) (c : Copy) (acc : List Failure × Bool × Bool) :
    ReconcileM (ForInStep (List Failure × Bool × Bool)) := do
  match ← attempt (liftCluster (copyResource c b.view.namespace request)) with
  | .error e => pure (.yield (acc.1 ++ [e], acc.2.1, false))
  | .ok true => pure (.yield acc)
  | .ok false =>
    let _ ← ReconcileM.recordEvent .warning "NotFound"
      (c.kind ++ " " ++ b.view.namespace.display ++ "/" ++ c.source.display ++ " not found")
    pure (.yield (acc.1, true, false))

/-- One target's turn: its request is fetched and each of its copies made. -/
def targetTurn (b : BindInfo) (target : Referent) (acc : List Failure × Bool × List Value) :
    ReconcileM (ForInStep (List Failure × Bool × List Value)) := do
  let (ok, manifest) ← liftM (getObject (.str requestKind) target.name target.ns (.str apiVersion))
  match (if ok = true then manifest else none) with
  | some manifest =>
    let request ← ReconcileM.check (View.ofManifest manifest)
    let cs ← ReconcileM.check (copiesFor b request)
    let done ← forIn cs (acc.1, acc.2.1, true) (copyTurn b request)
    if (done.2.2 && !acc.2.2.any fun x => x.equiv target.ns) = true then
      pure (.yield (done.1, done.2.1, acc.2.2 ++ [target.ns]))
    else pure (.yield (done.1, done.2.1, acc.2.2))
  | _ => pure (.yield acc)

/-- The controller runs its loops as turns over the sorted targets and their copies. -/
theorem reconcileBindInfo_eq : reconcileBindInfo = (do
    let s ← ReconcileM.session
    let b ← ReconcileM.check (bindInfoOf s.manifest)
    let registry ← bindRegistry b
    if !(← ReconcileM.check (operatorInstalled registry.status b.operand)) then
      setBindPhase .waiting
      return
    let refs ← liftM (referentsOf b.operand b.registry b.registryNamespace [])
    let targets ← ReconcileM.check
      (sortReferents (refs.filter (fun r => !r.ns.equiv b.view.namespace)))
    let acc ← forIn targets (([] : List Failure), false, ([] : List Value)) (targetTurn b)
    let phase : BindInfoPhase :=
      if !acc.1.isEmpty then .failed
      else if acc.2.1 then .waiting
      else if targets.isEmpty then .init
      else .completed
    let namespaces ← ReconcileM.check (sortChecked Value.less? acc.2.2)
    let _ ← ReconcileM.setStatus
      (.obj [("phase", .str phase.word), ("requestNamespaces", .arr namespaces)])
    raiseGathered acc.1) := rfl

set_option mvcgen.warning false in
/-- A copy's turn only adds failures. -/
theorem copyTurn_grows (b : BindInfo) (request : View) (c : Copy) (acc : List Failure × Bool × Bool) :
    ⦃fun _ => ⌜True⌝⦄ copyTurn b request c acc
    ⦃post⟨fun step _ => ⌜∃ acc', step = .yield acc' ∧ ∃ es, acc'.1 = acc.1 ++ es⌝,
      fun _ _ => ⌜True⌝⟩⦄ := by
  have ha := triple_true (attempt (liftCluster (copyResource c b.view.namespace request)))
  have hev := fun t reason message => triple_true (ReconcileM.recordEvent t reason message)
  mvcgen [copyTurn, ha, hev]
  -- a failure is added; otherwise the failures stay
  all_goals first
    | exact ⟨_, rfl, _, rfl⟩
    | exact ⟨_, rfl, [], (List.append_nil _).symm⟩

set_option mvcgen.warning false in
/-- A target's turn only adds failures. -/
theorem targetTurn_grows (b : BindInfo) (target : Referent) (acc : List Failure × Bool × List Value) :
    ⦃fun _ => ⌜True⌝⦄ targetTurn b target acc
    ⦃post⟨fun step _ => ⌜∃ acc', step = .yield acc' ∧ ∃ es, acc'.1 = acc.1 ++ es⌝,
      fun _ _ => ⌜True⌝⟩⦄ := by
  have hget := triple_true (MonadLift.monadLift (getObject (.str requestKind) target.name target.ns
    (.str apiVersion)) : ReconcileM _)
  have hturn := copyTurn_grows b
  mvcgen [targetTurn, ReconcileM.check_eq, hget, hturn] invariants
  | inv1 => post⟨fun p _ => ⌜∃ es, p.2.1 = acc.1 ++ es⌝, fun _ _ => ⌜True⌝⟩
  case vc1.step.success =>
    -- a copy's failures extend those the turn has gathered so far
    rintro _ ⟨acc', rfl, es', h'⟩
    obtain ⟨es, h⟩ := ‹∃ es, _ = acc.1 ++ es›
    exact ⟨es ++ es', by rw [h', h, List.append_assoc]⟩
  all_goals first
    | exact ⟨[], (List.append_nil _).symm⟩
    | exact ⟨_, rfl, [], (List.append_nil _).symm⟩
    | obtain ⟨es, h⟩ := ‹∃ es, _ = acc.1 ++ es›
      exact ⟨_, rfl, es, h⟩

/-- Failures that only grow end as they began only if no step added one. -/
theorem eq_of_append_eq {α : Type} {a b c es es' : List α} (hb : b = a ++ es) (hc : c = b ++ es')
    (h : c = a) : b = a ∧ es' = [] := by
  have hnil : es ++ es' = [] :=
    List.append_cancel_left (by rw [← List.append_assoc, ← hb, ← hc, h, List.append_nil])
  obtain ⟨rfl, rfl⟩ := List.append_eq_nil_iff.1 hnil
  exact ⟨by simpa using hb, rfl⟩

/-! ### The copies planned, and where they go -/

/-- The lookup of a copy's source: the v1 object of its kind and source name in the namespace of
binding information `B`. -/
def sourceOf (s : Store) (B : BindInfo) (c : Copy) : Except Failure (Option Value) :=
  s.get (.str c.kind) c.source B.view.namespace (.str "v1")

/-- A copy binding information `B` plans in the store `s`: one for a request it shares with. -/
def Planned (s : Store) (B : BindInfo) (v : View) (c : Copy) : Prop :=
  SharesWith s B v ∧ ∃ cs, copiesFor B v = .ok cs ∧ c ∈ cs

/-- The store `s` holds the copy `c` for the request `v`, if its source exists in `S₀`. -/
def Copied (S₀ : Store) (B : BindInfo) (v : View) (c : Copy) (s : Store) : Prop :=
  ∀ src, sourceOf S₀ B c = .ok (some src) → HoldsCopy c.kind src (c.place v) s

/-- Two planned copies that land on one place copy one source. -/
def NoCollision (s : Store) (B : BindInfo) : Prop :=
  ∀ v₁ c₁ v₂ c₂, Planned s B v₁ c₁ → Planned s B v₂ c₂ → (c₁.place v₁).Equiv (c₂.place v₂) →
    sourceOf s B c₁ = sourceOf s B c₂

/-- Where a reconcile of binding information about the resource `R` may write before its
status: the Events of `R`'s namespace, and the Secrets and ConfigMaps of namespaces other than
`ns`. -/
def CopyZone (R ns : Value) (d : Address) : Prop :=
  Event.FiledFor R d ∨
    ((d.kind = .str "Secret" ∨ d.kind = .str "ConfigMap") ∧ d.ns.heldEquiv ns = false)

theorem HoldsCopy.of_objectAt_eq {kind : String} {src : Value} {a : Address} {s s' : Store}
    (h : HoldsCopy kind src a s) (heq : s'.objectAt a = s.objectAt a) : HoldsCopy kind src a s' := by
  obtain ⟨o, hat, hcopy, hover⟩ := h
  exact ⟨o, heq.trans hat, hcopy, hover⟩

/-- A lookup by a version text finds in another store what it found, when the object at the
address it asks for is the same there. -/
theorem get_of_objectAt_eq {s s' : Store} (hs : s.Keyed) (hs' : s'.Keyed) {kind name ns o : Value}
    {t : String} (h : s.get kind name ns (.str t) = .ok (some o))
    (heq : s'.objectAt ⟨ns, kind, .str t, name⟩ = s.objectAt ⟨ns, kind, .str t, name⟩) :
    s'.get kind name ns (.str t) = .ok (some o) := by
  obtain ⟨version, hfits, hat⟩ := found_of_get hs h
  rw [versionFits_str_iff.1 hfits] at hat
  exact get_of_objectAt hs' (heq.trans hat)

section Zone

variable {S : Store} {B : BindInfo} {v : View} {c : Copy} {t : String}

theorem Planned.kind (h : Planned S B v c) : c.kind = "Secret" ∨ c.kind = "ConfigMap" := by
  obtain ⟨-, cs, hcs, hc⟩ := h
  exact kind_of_mem_copiesFor hcs hc

/-- A request that binding information with a text namespace shares with lives in another
namespace, also as keys compare. -/
theorem SharesWith.ns_heldEquiv (hS : S.WF) (h : SharesWith S B v)
    (hns : B.view.namespace = .str t) :
    v.namespace.hashable = true ∧ v.namespace.heldEquiv B.view.namespace = false := by
  obtain ⟨views, hviews, hv, -, hne, -⟩ := h
  obtain ⟨M, hat, -⟩ := objectAt_of_mem_requestsIn hS hviews hv
  refine ⟨(hashable_of_objectAt hS.keyed hat).1.1, ?_⟩
  rw [hns] at hne ⊢
  simp [Value.heldEquiv, Value.isNaN, hne]

/-- No planned copy goes where an Event goes. -/
theorem Planned.not_filedFor (h : Planned S B v c) (R : Value) : ¬ Event.FiledFor R (c.place v) := by
  rintro ⟨hk, -⟩
  have hk' : c.kind = "Event" := Value.str.inj hk
  rcases h.kind with h | h <;> rw [h] at hk' <;> simp at hk'

/-- Every place equal to the place of a planned copy is one the reconcile may write. -/
theorem Planned.zone_of_equiv (hS : S.WF) (h : Planned S B v c) (hns : B.view.namespace = .str t)
    (R : Value) {d : Address} (hd : d.Equiv (c.place v)) : CopyZone R B.view.namespace d := by
  obtain ⟨hvh, hvne⟩ := h.1.ns_heldEquiv hS hns
  have hkind : d.kind = .str c.kind := Value.heldEquiv_str_iff.1 hd.2.1
  refine .inr ⟨?_, ?_⟩
  · rcases h.kind with h | h <;> rw [hkind, h] <;> simp
  · -- a namespace equal to the request's is not the binding information's
    have hdv : d.ns.heldEquiv v.namespace = true := hd.1
    have hdh := Value.hashable_of_heldEquiv_left hvh hdv
    cases hb : d.ns.heldEquiv B.view.namespace
    · rfl
    · have := Value.heldEquiv_trans hvh (Value.heldEquiv_symm hdh hdv) hb
      rw [hvne] at this
      cases this

/-- The source of a copy lies outside the places the reconcile may write. -/
theorem source_not_zone (hns : B.view.namespace = .str t) {kind : String}
    (hk : kind = "Secret" ∨ kind = "ConfigMap") (R version name : Value) :
    ¬ CopyZone R B.view.namespace ⟨B.view.namespace, .str kind, version, name⟩ := by
  rintro (⟨hev, -⟩ | ⟨-, hne⟩)
  · rcases hk with rfl | rfl <;> simp at hev
  · rw [hns, Value.heldEquiv_self rfl] at hne
    cases hne

/-- Requests lie outside the places the reconcile may write. -/
theorem request_not_zone (R ns ns' name : Value) :
    ¬ CopyZone R ns ⟨ns', .str requestKind, .str apiVersion, name⟩ := by
  rintro (⟨hev, -⟩ | ⟨hk, -⟩)
  · simp [requestKind] at hev
  · rcases hk with hk | hk <;> simp [requestKind] at hk

end Zone

/-- A reconcile of binding information `B` about its resource `R`, from the store `S₀`: the
world stays plain and its store well formed, it differs from `S₀` only where the reconcile may
write, every place of a planned copy holds an object a copy can be written over, and the
planned copies that `D` names are made. -/
structure Replicating (S₀ : Store) (B : BindInfo) (R : Value) (D : View → Copy → Prop)
    (r : Reconciling) : Prop where
  manifest : r.session.manifest = R
  plain : r.world.Plain
  wf : r.world.store.WF
  frame : ∀ d, ¬ CopyZone R B.view.namespace d → r.world.store.objectAt d = S₀.objectAt d
  places : ∀ v c o, Planned S₀ B v c → r.world.store.objectAt (c.place v) = some o → Overwritable o
  copied : ∀ v c, Planned S₀ B v c → D v c → Copied S₀ B v c r.world.store

namespace Replicating

variable {S₀ : Store} {B : BindInfo} {R : Value} {D D' : View → Copy → Prop} {r r' : Reconciling}

theorem mono (h : Replicating S₀ B R D r) (hD : ∀ v c, Planned S₀ B v c → D' v c → D v c) :
    Replicating S₀ B R D' r :=
  { h with copied := fun v c hP hd => h.copied v c hP (hD v c hP hd) }

/-- Posting an event keeps a reconcile replicating: no copy goes where an Event goes. -/
theorem event (h : Replicating S₀ B R D r) (hs : StepWithin (Event.FiledFor R) r r') :
    Replicating S₀ B R D r' where
  manifest := hs.session ▸ h.manifest
  plain := hs.plain
  wf := hs.wf
  frame d hd := (hs.frame d fun hf => hd (.inl hf)).trans (h.frame d hd)
  places v c o hP ho := h.places v c o hP ((hs.frame _ (hP.not_filedFor R)).symm.trans ho)
  copied v c hP hd src hsrc := (h.copied v c hP hd src hsrc).of_objectAt_eq (hs.frame _ (hP.not_filedFor R))

/-- A step that writes only at the place of a planned copy, leaving there an object a copy can be
written over and the copy if its source exists, keeps a reconcile replicating, that copy made.
A copy made earlier at an equal place is of the same source, so it is made again. -/
theorem copy {t : String} (hS : S₀.WF) (hns : B.view.namespace = .str t)
    (hsame : NoCollision S₀ B) (h : Replicating S₀ B R D r) {v : View} {c : Copy}
    (hP : Planned S₀ B v c) (hs : StepWithin (·.Equiv (c.place v)) r r')
    (hover : ∀ o, r'.world.store.objectAt (c.place v) = some o → Overwritable o)
    (hheld : Copied S₀ B v c r'.world.store) :
    Replicating S₀ B R (fun v' c' => D v' c' ∨ (v' = v ∧ c' = c)) r' where
  manifest := hs.session ▸ h.manifest
  plain := hs.plain
  wf := hs.wf
  frame d hd := (hs.frame d fun he => hd (hP.zone_of_equiv hS hns R he)).trans (h.frame d hd)
  places v' c' o hP' ho := by
    by_cases he : (c'.place v').Equiv (c.place v)
    · -- the place is the copy's own, up to equal keys
      have ha := (hashable_of_objectAt hs.wf.keyed ho).1
      exact hover o ((objectAt_congr _ ha he).symm.trans ho)
    · exact h.places v' c' o hP' ((hs.frame _ he).symm.trans ho)
  copied v' c' hP' hd src hsrc := by
    rcases hd with hd | ⟨rfl, rfl⟩
    · by_cases he : (c'.place v').Equiv (c.place v)
      · -- a copy to an equal place reads the same source
        obtain ⟨o, hat, hcopy, hov⟩ := hheld src ((hsame v' c' v c hP' hP he) ▸ hsrc)
        have hk : c'.kind = c.kind := Value.str.inj (Value.heldEquiv_str_iff.1 he.2.1)
        have hph := (hashable_of_objectAt hs.wf.keyed hat).1
        exact ⟨o, (objectAt_congr _ (he.hashable_left hph) he).trans hat, hk ▸ hcopy, hov⟩
      · exact (h.copied v' c' hP' hd src hsrc).of_objectAt_eq (hs.frame _ he)
    · exact hheld src hsrc

end Replicating

/-- What a copy's turn can do: gather a failure of the copy, or make the copy, or find its
source missing and post an event. -/
theorem copyTurn_cases {b : BindInfo} {request : View} {c : Copy} {acc : List Failure × Bool × Bool}
    {r r' : Reconciling} {step : ForInStep (List Failure × Bool × Bool)}
    (hrun : (copyTurn b request c acc).run.run r = (.ok step, r')) :
    (∃ e, step = .yield (acc.1 ++ [e], acc.2.1, false)) ∨
    ∃ w', ((copyResource c b.view.namespace request).run.run r.world = (.ok true, w') ∧
        step = .yield acc ∧ r' = { r with world := w' }) ∨
      ((copyResource c b.view.namespace request).run.run r.world = (.ok false, w') ∧
        step = .yield (acc.1, true, false) ∧
        ∃ msg res, (ReconcileM.recordEvent .warning "NotFound" msg).run.run { r with world := w' } =
          (.ok res, r')) := by
  unfold copyTurn at hrun
  rw [run_run_bind, run_attempt, run_liftCluster] at hrun
  rcases hm : (copyResource c b.view.namespace request).run.run r.world with ⟨e | x, w'⟩ <;>
    rw [hm] at hrun
  · -- a failure of the manager's own is gathered, any other passed on
    cases he : e.isOwn <;> simp only [he, Bool.false_eq_true, if_false, if_true] at hrun
    · cases hrun
    · cases hrun
      exact .inl ⟨e, rfl⟩
  · refine .inr ⟨w', ?_⟩
    cases x
    · obtain ⟨res, r₁, hev, hpure⟩ := run_run_bind_ok hrun
      cases hpure
      exact .inr ⟨rfl, rfl, _, res, hev⟩
    · cases hrun
      exact .inl ⟨rfl, rfl, rfl⟩

section Turns

variable {S₀ : Store} {B : BindInfo} {R : Value} {D : View → Copy → Prop} {r r' : Reconciling}
  {t : String}

/-- A loop whose turns only add failures, where each turn that adds none keeps a reconcile
replicating with the copies `P` names for its item made and shows `Q` of its item, makes the
copies named for all its items, and shows `Q` of each, if it ends with no failure added. -/
theorem Replicating.loop {α γ : Type} {xs : List α}
    {body : α → List Failure × γ → ReconcileM (ForInStep (List Failure × γ))}
    (hgrow : ∀ x acc, ⦃fun _ => ⌜True⌝⦄ body x acc
      ⦃post⟨fun step _ => ⌜∃ acc', step = .yield acc' ∧ ∃ es, acc'.1 = acc.1 ++ es⌝,
        fun _ _ => ⌜True⌝⟩⦄)
    (P : α → View → Copy → Prop) (Q : α → Prop)
    (hturn : ∀ x ∈ xs, ∀ (D' : View → Copy → Prop) r r' acc acc', Replicating S₀ B R D' r →
      (body x acc).run.run r = (.ok (.yield acc'), r') → acc'.1 = acc.1 →
      Replicating S₀ B R (fun v c => D' v c ∨ P x v c) r' ∧ Q x)
    (h : Replicating S₀ B R D r) {acc done : List Failure × γ}
    (hloop : (forIn xs acc body).run.run r = (.ok done, r')) (hdone : done.1 = acc.1) :
    Replicating S₀ B R (fun v c => D v c ∨ ∃ x ∈ xs, P x v c) r' ∧ ∀ x ∈ xs, Q x := by
  -- the invariant: failures only grow, and while there is no new one the items so far are done
  refine (run_forIn_invariant xs body
    (fun pre st s => (∃ es, st.1 = acc.1 ++ es) ∧
      (st.1 = acc.1 → Replicating S₀ B R (fun v c => D v c ∨ ∃ x ∈ pre, P x v c) s ∧
        ∀ x ∈ pre, Q x))
    ?_ ⟨⟨[], (List.append_nil _).symm⟩, fun _ => ⟨h.mono fun v c _ hd => ?_, by simp⟩⟩ hloop).2 hdone
  · intro pre x st s step s' hx ⟨⟨es, hes⟩, hrep⟩ hbody
    obtain ⟨st', rfl, es', hes'⟩ := ok_of_triple_true (hgrow x st) hbody
    refine ⟨st', rfl, ⟨es ++ es', by rw [hes', hes, List.append_assoc]⟩, fun hst' => ?_⟩
    obtain ⟨hst, hnil⟩ := eq_of_append_eq hes hes' hst'
    obtain ⟨hrep, hQ⟩ := hrep hst
    obtain ⟨hrep', hQx⟩ :=
      hturn x hx _ s s' st st' hrep hbody (by rw [hes', hnil, List.append_nil])
    refine ⟨hrep'.mono ?_, fun y hy => ?_⟩
    -- the items done are those before `x`, and `x`
    · rintro v c - (hd | ⟨y, hy, hP⟩)
      · exact .inl (.inl hd)
      · rcases List.mem_append.1 hy with hy | hy
        · exact .inl (.inr ⟨y, hy, hP⟩)
        · exact .inr (List.mem_singleton.1 hy ▸ hP)
    · rcases List.mem_append.1 hy with hy | hy
      · exact hQ y hy
      · exact List.mem_singleton.1 hy ▸ hQx
  · rcases hd with hd | ⟨_, hx, -⟩
    · exact hd
    · simp at hx

/-- A copy of a planned binding, made from a plain world, keeps a reconcile replicating with
that copy made, in place of whatever stood at its place. -/
theorem Replicating.copyMade (hS : S₀.WF) (hns : B.view.namespace = .str t)
    (hsame : NoCollision S₀ B)
    (hkeys : ∀ v c src, Planned S₀ B v c → sourceOf S₀ B c = .ok (some src) → src.WellKeyed)
    (h : Replicating S₀ B R D r) {v : View} {c : Copy} (hP : Planned S₀ B v c) {w' : World}
    (hcopy : (copyResource c B.view.namespace v).run.run r.world = (.ok true, w')) :
    Replicating S₀ B R (fun v' c' => D v' c' ∨ (v' = v ∧ c' = c)) { r with world := w' } := by
  -- the source, as the copy looks it up, is the one of the starting store
  have hsource := h.frame _ (source_not_zone hns hP.kind R (.str "v1") c.source)
  obtain ⟨hstep, hmade⟩ := run_copyResource h.plain h.wf c B.view.namespace v hcopy
  obtain ⟨found, hget, hfalse, -⟩ := run_copyResource_answer h.plain c B.view.namespace v hcopy
  have hheld : Copied S₀ B v c w'.store := fun src hs =>
    (hmade src (get_of_objectAt_eq hS.keyed h.wf.keyed hs hsource) (hkeys v c src hP hs)
      (h.places v c · hP)).2
  refine h.copy hS hns hsame hP ⟨rfl, hstep.plain, hstep.wf, hstep.frame⟩ (fun o ho => ?_) hheld
  -- a copy is made only once its source is found
  cases found with
  | none => exact absurd (hfalse.2 rfl) Bool.noConfusion
  | some src =>
    obtain ⟨o', hat, -, hov⟩ := hheld src (get_of_objectAt_eq h.wf.keyed hS.keyed hget hsource.symm)
    obtain rfl : o' = o := Option.some.inj (hat.symm.trans ho)
    exact hov

/-- A planned copy whose source the store does not hold is made as soon as it is planned: there is
nothing to copy. -/
theorem Replicating.sourceMissing (hS : S₀.WF) (hns : B.view.namespace = .str t)
    (h : Replicating S₀ B R D r) {v : View} {c : Copy} (hP : Planned S₀ B v c)
    (hget : r.world.store.get (.str c.kind) c.source B.view.namespace (.str "v1") = .ok none) :
    Replicating S₀ B R (fun v' c' => D v' c' ∨ (v' = v ∧ c' = c)) r :=
  { h with
    copied := fun v' c' hP' hd => hd.elim (h.copied v' c' hP') (by
      rintro ⟨rfl, rfl⟩ src hs
      have hsource := h.frame _ (source_not_zone hns hP.kind R (.str "v1") c'.source)
      have hfound := get_of_objectAt_eq hS.keyed h.wf.keyed hs hsource
      rw [hget] at hfound
      cases hfound) }

/-- A copy's turn that gathers no failure keeps a reconcile replicating, that copy made. -/
theorem Replicating.copyTurn (hS : S₀.WF) (hns : B.view.namespace = .str t)
    (hsame : NoCollision S₀ B)
    (hkeys : ∀ v c src, Planned S₀ B v c → sourceOf S₀ B c = .ok (some src) → src.WellKeyed)
    (h : Replicating S₀ B R D r) {v : View} {c : Copy} (hP : Planned S₀ B v c)
    {acc acc' : List Failure × Bool × Bool}
    (hrun : (copyTurn B v c acc).run.run r = (.ok (.yield acc'), r')) (hacc : acc'.1 = acc.1) :
    Replicating S₀ B R (fun v' c' => D v' c' ∨ (v' = v ∧ c' = c)) r' := by
  rcases copyTurn_cases hrun with ⟨e, he⟩ | ⟨w', ⟨hcopy, -, rfl⟩ | ⟨hcopy, -, msg, res, hev⟩⟩
  · -- a failure was gathered
    cases he
    simp at hacc
  · exact h.copyMade hS hns hsame hkeys hP hcopy
  · -- the source is missing: nothing is written, and an event is posted
    obtain ⟨found, hget, hfalse, hkept⟩ := run_copyResource_answer h.plain c B.view.namespace v hcopy
    obtain rfl : w' = r.world := hkept rfl
    obtain rfl : found = none := hfalse.1 rfl
    have hstep := stepWithin_recordEvent h.plain h.wf .warning "NotFound" msg
    rw [show ({ r with world := r.world } : Reconciling) = r from rfl] at hev
    rw [hev, h.manifest] at hstep
    exact (h.sourceMissing hS hns hP hget).event hstep

/-- The copies of a request's turn, gathering no failure, make every copy planned for it. -/
theorem Replicating.copyLoop (hS : S₀.WF) (hns : B.view.namespace = .str t)
    (hsame : NoCollision S₀ B)
    (hkeys : ∀ v c src, Planned S₀ B v c → sourceOf S₀ B c = .ok (some src) → src.WellKeyed)
    (h : Replicating S₀ B R D r) {v : View} (hv : SharesWith S₀ B v) {cs : List Copy}
    (hcs : copiesFor B v = .ok cs) {st done : List Failure × Bool × Bool}
    (hloop : (forIn cs st (Controllers.copyTurn B v)).run.run r = (.ok done, r'))
    (hdone : done.1 = st.1) :
    Replicating S₀ B R (fun v' c' => D v' c' ∨ (v' = v ∧ c' ∈ cs)) r' := by
  refine (h.loop (copyTurn_grows B v) (fun c v' c' => v' = v ∧ c' = c) (fun _ => True)
    (fun c hc _ _ _ _ _ hrep hrun hacc =>
      ⟨hrep.copyTurn hS hns hsame hkeys ⟨hv, cs, hcs, hc⟩ hrun hacc, trivial⟩) hloop hdone).1.mono ?_
  rintro v' c' - (hd | ⟨rfl, hc⟩)
  · exact .inl hd
  · exact .inr ⟨c', hc, rfl, rfl⟩

end Turns

/-! ### The targets -/

section Targets

theorem mem_sortReferents {refs sorted : List Referent} (h : sortReferents refs = .ok sorted)
    {r : Referent} (hr : r ∈ refs) : r ∈ sorted := by
  unfold sortReferents sortChecked at h
  obtain ⟨_, -, h⟩ := except_bind_eq_ok h
  cases h
  exact List.mem_mergeSort.2 hr

variable {S : Store} {B : BindInfo} {v v' : View} {target : Referent}

/-- The request a target stands for is filed at the target's own address. -/
theorem request_at_target (hS : S.WF) (hv : SharesWith S B v)
    (hvt : (Referent.ofView v).same target = true) :
    ∃ M, S.objectAt ⟨target.ns, .str requestKind, .str apiVersion, target.name⟩ = some M ∧
      View.ofManifest M = .ok v := by
  obtain ⟨views, hviews, hvmem, -⟩ := hv
  obtain ⟨M, hat, hM⟩ := objectAt_of_mem_requestsIn hS hviews hvmem
  obtain ⟨hk, hrefl⟩ := hashable_of_objectAt hS.keyed hat
  obtain ⟨hname, hns⟩ := Bool.and_eq_true_iff.1 hvt
  have he : Address.Equiv ⟨target.ns, .str requestKind, .str apiVersion, target.name⟩
      ⟨v.namespace, .str requestKind, .str apiVersion, v.name⟩ :=
    Address.Equiv.symm hk ⟨hns, hrefl.2.1, hrefl.2.2.1, hname⟩
  exact ⟨M, (objectAt_congr S (he.hashable_left hk) he).trans hat, hM⟩

/-- At most one request that `B` shares with stands for a target. -/
theorem eq_of_same_target (hS : S.WF) (hv : SharesWith S B v) (hv' : SharesWith S B v')
    (hvt : (Referent.ofView v).same target = true)
    (hvt' : (Referent.ofView v').same target = true) : v' = v := by
  obtain ⟨M, hat, hM⟩ := request_at_target hS hv hvt
  obtain ⟨M', hat', hM'⟩ := request_at_target hS hv' hvt'
  obtain rfl : M' = M := Option.some.inj (hat'.symm.trans hat)
  exact Except.ok.inj (hM'.symm.trans hM)

variable {refs targets : List Referent}
  (hrefs : freshReferents S B.operand B.registry B.registryNamespace [] = .ok refs)
  (htargets : sortReferents (refs.filter (fun r => !r.ns.equiv B.view.namespace)) = .ok targets)
include hrefs htargets

/-- Every target of a reconcile of `B` stands for a request `B` shares with. -/
theorem exists_shared_of_target (ht : target ∈ targets) :
    target.Keyed ∧ ∃ v, SharesWith S B v ∧ (Referent.ofView v).same target = true := by
  have hmem := List.mem_filter.1 (mem_of_sortReferents htargets ht)
  exact shares_of_referent hrefs hmem.1 (by simpa using hmem.2)

/-- Every request `B` shares with has a target of the reconcile that stands for it. -/
theorem exists_target_of_shared (hS : S.WF) (hv : SharesWith S B v) :
    ∃ target ∈ targets, (Referent.ofView v).same target = true := by
  obtain ⟨views, hviews, hd, hsel⟩ := selects_freshReferents hrefs
  obtain ⟨views', hviews', hvmem, hdel, hne, hnames⟩ := hv
  obtain rfl : views' = views := Except.ok.inj (hviews'.symm.trans hviews)
  obtain ⟨M, hat, -⟩ := objectAt_of_mem_requestsIn hS hviews hvmem
  have hkey : (Referent.ofView v).Keyed :=
    ⟨(hashable_of_objectAt hS.keyed hat).1.2.2.2, (hashable_of_objectAt hS.keyed hat).1.1⟩
  obtain ⟨x, hx, hxv⟩ :=
    (hsel (Referent.ofView v)).2 ⟨v, hvmem, hdel, rfl, hnames, Referent.same_self hkey⟩
  have hvx := Referent.same_symm (hd.keyed x hx) hxv
  refine ⟨x, mem_sortReferents htargets (List.mem_filter.2 ⟨hx, ?_⟩), hvx⟩
  -- the referent's namespace is held equal to the request's, which is not `B`'s
  cases he : x.ns.equiv B.view.namespace
  · rfl
  · have hvb : v.namespace.heldEquiv B.view.namespace = true :=
      Value.heldEquiv_trans hkey.2 (Bool.and_eq_true_iff.1 hvx).2 (Value.heldEquiv_iff.2 (.inr he))
    rcases Value.heldEquiv_iff.1 hvb with ⟨-, hnan⟩ | h
    · simp [Value.equiv_eq_false_of_isNaN_right _ hnan] at he
    · simp [h] at hne

end Targets

/-- A target's turn whose request is found runs the copies planned for it, and gathers their
failures. -/
theorem targetTurn_found {B : BindInfo} {target : Referent} {acc acc' : List Failure × Bool × List Value}
    {r r' : Reconciling} {M : Value} {v : View} (hw : r.world.Plain)
    (hget : r.world.store.get (.str requestKind) target.name target.ns (.str apiVersion) = .ok (some M))
    (hM : View.ofManifest M = .ok v)
    (hrun : (targetTurn B target acc).run.run r = (.ok (.yield acc'), r')) :
    ∃ cs done, copiesFor B v = .ok cs ∧
      (forIn cs (acc.1, acc.2.1, true) (copyTurn B v)).run.run r = (.ok done, r') ∧
      acc'.1 = done.1 := by
  unfold targetTurn at hrun
  rw [run_run_bind, run_liftM, run_getObject hw, hget] at hrun
  simp only [Except.map, if_true] at hrun
  rw [run_run_bind, run_reconcileCheck, hM] at hrun
  dsimp only at hrun
  rw [run_run_bind, run_reconcileCheck] at hrun
  cases hcs : copiesFor B v with
  | error e =>
    rw [hcs] at hrun
    cases hrun
  | ok cs =>
    rw [hcs] at hrun
    dsimp only at hrun
    obtain ⟨done, r₁, hloop, hrest⟩ := run_run_bind_ok hrun
    refine ⟨cs, done, rfl, ?_⟩
    -- either way the turn yields the copies' failures
    split at hrest <;> cases hrest <;> exact ⟨hloop, rfl⟩

section TargetTurn

variable {S₀ : Store} {B : BindInfo} {R : Value} {D : View → Copy → Prop} {r r' : Reconciling}
  {t : String}

/-- A target's turn that gathers no failure keeps a reconcile replicating, with every copy
planned for the request the target stands for made. -/
theorem Replicating.targetTurn (hS : S₀.WF) (hns : B.view.namespace = .str t)
    (hsame : NoCollision S₀ B)
    (hkeys : ∀ v c src, Planned S₀ B v c → sourceOf S₀ B c = .ok (some src) → src.WellKeyed)
    (h : Replicating S₀ B R D r) {target : Referent} {v : View} (hv : SharesWith S₀ B v)
    (hvt : (Referent.ofView v).same target = true) {acc acc' : List Failure × Bool × List Value}
    (hrun : (Controllers.targetTurn B target acc).run.run r = (.ok (.yield acc'), r'))
    (hacc : acc'.1 = acc.1) :
    Replicating S₀ B R (fun v' c' => D v' c' ∨ (Referent.ofView v').same target = true) r' ∧
      ∃ cs, copiesFor B v = .ok cs := by
  obtain ⟨M, hat, hM⟩ := request_at_target hS hv hvt
  -- the request is read back as it was filed
  have hget : r.world.store.get (.str requestKind) target.name target.ns (.str apiVersion) =
      .ok (some M) :=
    get_of_objectAt h.wf.keyed ((h.frame _ (request_not_zone _ _ _ _)).trans hat)
  obtain ⟨cs, done, hcs, hloop, hdone⟩ := targetTurn_found h.plain hget hM hrun
  refine ⟨(h.copyLoop hS hns hsame hkeys hv hcs hloop (hdone.symm.trans hacc)).mono ?_, cs, hcs⟩
  -- a planned copy for a request that stands for the target is one of that request's copies
  rintro v' c' ⟨hv', cs', hcs', hc'⟩ (hd | hvt')
  · exact .inl hd
  · obtain rfl := eq_of_same_target hS hv hv' hvt hvt'
    rw [hcs] at hcs'
    cases hcs'
    exact .inr ⟨rfl, hc'⟩

/-- The targets' turns, gathering no failure, make every copy planned for the requests the
targets stand for. -/
theorem Replicating.targetLoop (hS : S₀.WF) (hns : B.view.namespace = .str t)
    (hsame : NoCollision S₀ B)
    (hkeys : ∀ v c src, Planned S₀ B v c → sourceOf S₀ B c = .ok (some src) → src.WellKeyed)
    (h : Replicating S₀ B R D r) {targets : List Referent}
    (hshared : ∀ target ∈ targets,
      ∃ v, SharesWith S₀ B v ∧ (Referent.ofView v).same target = true)
    {acc done : List Failure × Bool × List Value}
    (hloop : (forIn targets acc (Controllers.targetTurn B)).run.run r = (.ok done, r'))
    (hdone : done.1 = acc.1) :
    Replicating S₀ B R
      (fun v c => D v c ∨ ∃ target ∈ targets, (Referent.ofView v).same target = true) r' ∧
      ∀ target ∈ targets, ∀ v, SharesWith S₀ B v → (Referent.ofView v).same target = true →
        ∃ cs, copiesFor B v = .ok cs :=
  h.loop (targetTurn_grows B) (fun target v _ => (Referent.ofView v).same target = true)
    (fun target => ∀ v, SharesWith S₀ B v → (Referent.ofView v).same target = true →
      ∃ cs, copiesFor B v = .ok cs)
    (fun target ht _ _ _ _ _ hrep hrun hacc => by
      obtain ⟨v, hv, hvt⟩ := hshared target ht
      obtain ⟨hrep', hcs⟩ := hrep.targetTurn hS hns hsame hkeys hv hvt hrun hacc
      -- the request standing for the target is the only one
      exact ⟨hrep', fun v' hv' hvt' => eq_of_same_target hS hv hv' hvt hvt' ▸ hcs⟩) hloop hdone

end TargetTurn

/-! ### Before the loop -/

/-- A read through the session that answers leaves the reconcile as it was, and answers what the
store files in the namespace the session resolves. -/
theorem getObject_ok {r r' : Reconciling} (hw : r.world.Plain) {kind name apiVersion : Value}
    {given : Option Value} {ok : Bool} {found : Option Value}
    (hrun : (ReconcileM.getObject kind name apiVersion given).run.run r = (.ok (ok, found), r')) :
    r' = r ∧ ok = true ∧ ∃ ns, r.session.resolveNamespace given = .ok ns ∧
      r.world.store.get kind name ns apiVersion = .ok found := by
  cases hns : r.session.resolveNamespace given with
  | error e =>
    simp only [ReconcileM.getObject, run_run_bind, run_session, run_reconcileCheck, hns] at hrun
    cases hrun
  | ok ns =>
    simp only [ReconcileM.getObject, run_run_bind, run_session, run_reconcileCheck, hns, run_liftM,
      run_getObject hw] at hrun
    cases hget : r.world.store.get kind name ns apiVersion with
    | error e =>
      rw [hget] at hrun
      cases hrun
    | ok x =>
      rw [hget] at hrun
      cases hrun
      exact ⟨rfl, rfl, ns, rfl, hget⟩

/-- A read of the registry that answers leaves the reconcile as it was, and answers the registry
the store files at the name and namespace of the binding information. -/
theorem bindRegistry_ok {b : BindInfo} {r r' : Reconciling} {reg : View} (hw : r.world.Plain)
    (hrun : (bindRegistry b).run.run r = (.ok reg, r')) :
    r' = r ∧ ∃ ns M, r.session.resolveNamespace (some b.registryNamespace) = .ok ns ∧
      r.world.store.get (.str registryKind) b.registry ns (.str apiVersion) = .ok (some M) ∧
      View.ofManifest M = .ok reg := by
  unfold bindRegistry at hrun
  obtain ⟨⟨ok, manifest⟩, r₁, hget, hrest⟩ := run_run_bind_ok hrun
  obtain ⟨rfl, rfl, ns, hns, hfound⟩ := getObject_ok hw hget
  dsimp only at hrest
  simp only [Bool.not_true, Bool.false_eq_true, if_false] at hrest
  -- the branches that find no registry, or no operator in it, end by throwing
  cases manifest with
  | none =>
    obtain ⟨_, _, -, h⟩ := run_run_bind_ok hrest
    obtain ⟨_, _, -, h⟩ := run_run_bind_ok h
    cases h
  | some M =>
    obtain ⟨reg', r₂, hreg, hrest⟩ := run_run_bind_ok hrest
    rw [run_reconcileCheck] at hreg
    obtain ⟨hM, rfl⟩ := Prod.mk.inj hreg
    obtain ⟨op, r₃, hop, hrest⟩ := run_run_bind_ok hrest
    rw [run_reconcileCheck] at hop
    obtain ⟨-, rfl⟩ := Prod.mk.inj hop
    split at hrest
    · obtain ⟨_, _, -, h⟩ := run_run_bind_ok hrest
      obtain ⟨_, _, -, h⟩ := run_run_bind_ok h
      cases h
    · cases hrest
      exact ⟨rfl, ns, M, hns, hfound, hM⟩

/-! ### The whole reconcile -/

theorem BindInfo.namespace_of_bindInfoOf {R : Value} {B : BindInfo} (hB : bindInfoOf R = .ok B) :
    B.view.namespace = (R.getD "metadata").getD "namespace" := by
  unfold bindInfoOf at hB
  obtain ⟨v, hv, hB⟩ := except_bind_eq_ok hB
  unfold BindInfo.ofView at hB
  obtain ⟨_, -, hB⟩ := except_bind_eq_ok hB
  obtain ⟨_, -, hB⟩ := except_bind_eq_ok hB
  obtain ⟨_, -, hB⟩ := except_bind_eq_ok hB
  cases hB
  exact View.namespace_of_ofManifest hv

/-- The status of binding information is written elsewhere than any copy it plans. -/
theorem Planned.not_namesResource {S : Store} {B : BindInfo} {v : View} {c : Copy} {R : Value}
    {t : String} (hS : S.WF) (h : Planned S B v c) (hB : bindInfoOf R = .ok B)
    (hns : B.view.namespace = .str t) : ¬ NamesResource R (c.place v) := by
  rintro ⟨hn, -, -⟩
  have hne := (h.1.ns_heldEquiv hS hns).2
  rw [BindInfo.namespace_of_bindInfoOf hB] at hne
  simp only [Copy.place] at hn
  rw [hn] at hne
  cases hne

/-- Gathered failures are raised unless there are none. -/
theorem raiseGathered_ok {es : List Failure} {r r' : Reconciling}
    (h : (raiseGathered es).run.run r = (.ok (), r')) : es = [] ∧ r' = r := by
  unfold raiseGathered at h
  cases hg : Failure.gather es with
  | some e =>
    rw [hg] at h
    cases h
  | none =>
    rw [hg] at h
    cases h
    exact ⟨(Failure.gather_eq_none_iff es).1 hg, rfl⟩

/-- The registry of binding information `B`, filed where its reconcile reads it, reports `B`'s
operand installed. -/
def ReportsInstalled (r : Reconciling) (B : BindInfo) : Prop :=
  ∃ ns M reg, r.session.resolveNamespace (some B.registryNamespace) = .ok ns ∧
    r.world.store.get (.str registryKind) B.registry ns (.str apiVersion) = .ok (some M) ∧
    View.ofManifest M = .ok reg ∧ operatorInstalled reg.status B.operand = .ok true

/-- A read of the registry of `B` that answers, where the registry reports `B`'s operand
installed, leaves the reconcile as it was and answers a registry that reports it installed. -/
theorem ReportsInstalled.bindRegistry_installed {r r' : Reconciling} {B : BindInfo} {reg : View}
    (h : ReportsInstalled r B) (hw : r.world.Plain)
    (hrun : (bindRegistry B).run.run r = (.ok reg, r')) :
    r' = r ∧ operatorInstalled reg.status B.operand = .ok true := by
  obtain ⟨rfl, ns, M, hns, hM, hreg⟩ := bindRegistry_ok hw hrun
  -- the registry read is the one that reports the operand installed
  obtain ⟨ns₁, M₁, reg₁, hns₁, hM₁, hreg₁, hinst⟩ := h
  obtain rfl : ns₁ = ns := Except.ok.inj (hns₁.symm.trans hns)
  obtain rfl : M₁ = M := Option.some.inj (Except.ok.inj (hM₁.symm.trans hM))
  obtain rfl : reg₁ = reg := Except.ok.inj (hreg₁.symm.trans hreg)
  exact ⟨rfl, hinst⟩

/-- A status write of the resource `R` changes no object but `R` itself. -/
theorem setStatus_frame {r r' : Reconciling} {R new : Value} {u : Bool}
    (hm : r.session.manifest = R) (hwf : r.world.store.WF)
    (hset : (ReconcileM.setStatus new).run.run r = (.ok u, r')) (d : Address)
    (hd : ¬ NamesResource R d) : r'.world.store.objectAt d = r.world.store.objectAt d := by
  have hF : InFootprint ⟨fun _ => False, NamesResource R, (· = R.getD "kind")⟩ r.world.store R r :=
    ⟨hm, Within.refl hwf⟩
  exact (state_of_run (setStatus_within (fun _ h => h) rfl new) hF hset).2.frame d id hd

theorem copies_of_reconcileBindInfo {r₀ r' : Reconciling} {B : BindInfo} {t : String}
    (hplain : r₀.world.Plain) (hwf : r₀.world.store.WF)
    (hB : bindInfoOf r₀.session.manifest = .ok B) (hns : B.view.namespace = .str t)
    (hready : ReportsInstalled r₀ B)
    (hkeys : ∀ v c src, Planned r₀.world.store B v c →
      sourceOf r₀.world.store B c = .ok (some src) → src.WellKeyed)
    (hlive : ∀ v c o, Planned r₀.world.store B v c →
      r₀.world.store.objectAt (c.place v) = some o → Overwritable o)
    (hsame : NoCollision r₀.world.store B)
    (hrun : reconcileBindInfo.run.run r₀ = (.ok (), r')) :
    ∀ v, SharesWith r₀.world.store B v → (∃ cs, copiesFor B v = .ok cs) ∧
      ∀ c, Planned r₀.world.store B v c → Copied r₀.world.store B v c r'.world.store := by
  rw [reconcileBindInfo_eq] at hrun
  obtain ⟨s, r₁, hs, hrun₁⟩ := run_run_bind_ok hrun
  cases hs
  obtain ⟨b, r₂, hb, hrun₂⟩ := run_run_bind_ok hrun₁
  rw [run_reconcileCheck, hB] at hb
  cases hb
  obtain ⟨reg, r₃, hreg, hrun₃⟩ := run_run_bind_ok hrun₂
  obtain ⟨hr₃, hinst⟩ := hready.bindRegistry_installed hplain hreg
  rw [hr₃] at hrun₃
  obtain ⟨inst, r₄, hi, hrun₄⟩ := run_run_bind_ok hrun₃
  rw [run_reconcileCheck, hinst] at hi
  cases hi
  simp only [Bool.not_true, Bool.false_eq_true, if_false] at hrun₄
  -- the requests sharing with `B` are read from the store as it was
  obtain ⟨refs, r₅, hrefs, hrun₅⟩ := run_run_bind_ok hrun₄
  rw [run_liftM, (readsAs_referentsOf hplain _ _ _ _).run_eq, Prod.mk.injEq] at hrefs
  obtain ⟨hrefs, rfl⟩ := hrefs
  obtain ⟨targets, r₆, htargets, hrun₆⟩ := run_run_bind_ok hrun₅
  rw [run_reconcileCheck, Prod.mk.injEq] at htargets
  obtain ⟨htargets, rfl⟩ := htargets
  obtain ⟨acc, r₇, hloop, hrun₇⟩ := run_run_bind_ok hrun₆
  obtain ⟨nss, r₈, hnss, hrun₈⟩ := run_run_bind_ok hrun₇
  rw [run_reconcileCheck] at hnss
  obtain ⟨-, rfl⟩ := Prod.mk.inj hnss
  obtain ⟨u, r₉, hset, hraise⟩ := run_run_bind_ok hrun₈
  obtain ⟨hnil, rfl⟩ := raiseGathered_ok hraise
  -- the loop over the targets, gathering no failure, makes every planned copy
  have h0 : Replicating r₀.world.store B r₀.session.manifest (fun _ _ => False) r₀ :=
    ⟨rfl, hplain, hwf, fun _ _ => rfl, hlive, fun _ _ _ h => h.elim⟩
  obtain ⟨hrep, hcs⟩ := h0.targetLoop hwf hns hsame hkeys
    (fun target ht => (exists_shared_of_target hrefs htargets ht).2) hloop hnil
  intro v hv
  obtain ⟨target, ht, hvt⟩ := exists_target_of_shared hrefs htargets hwf hv
  refine ⟨hcs target ht v hv hvt, fun c hP src hsrc => ?_⟩
  -- the status write that follows changes only the resource itself
  have hkept := setStatus_frame hrep.manifest hrep.wf hset _ (hP.not_namesResource hwf hB hns)
  exact (hrep.copied v c hP (.inr ⟨target, ht, hvt⟩) src hsrc).of_objectAt_eq hkept

/-! ### The copies planned for a request -/

theorem exists_mem_of_mapM_ok {ε α β : Type} {f : α → Except ε β} :
    ∀ {xs : List α} {ys : List β}, xs.mapM f = .ok ys → ∀ x ∈ xs, ∃ y ∈ ys, f x = .ok y
  | [], _, _, x, hx => absurd hx List.not_mem_nil
  | a :: xs, ys, h, x, hx => by
    rw [List.mapM_cons] at h
    obtain ⟨b, hb, h⟩ := except_bind_eq_ok h
    obtain ⟨bs, hbs, h⟩ := except_bind_eq_ok h
    cases h
    rcases List.mem_cons.1 hx with rfl | hx
    · exact ⟨b, List.mem_cons_self, hb⟩
    · obtain ⟨y, hy, hxy⟩ := exists_mem_of_mapM_ok hbs x hx
      exact ⟨y, List.mem_cons_of_mem _ hy, hxy⟩

/-- The overrides of bindings given by the operand that a request's first matching entry names,
none when no entry matches. -/
def overridesOf (found : Option (RequestEntry × Operand)) : Value :=
  (found.map (·.2.bindings)).getD (.obj [])

/-- A copy that binding information `B` plans for the request `v`: for a public scope key `s` of
`B`'s bindings and a bindable field `f` of kind `kind` whose source name `S` under `s` is
truthy, the copy of `S`, named by the override for `s` and `f` of the operand that `v`'s first
matching entry names, or `S` when that override is not truthy. -/
def PlannedCopy (B : BindInfo) (v : View) (c : Copy) : Prop :=
  ∃ fs found, B.bindings = .obj fs ∧
    v.findOperand B.operand B.registry B.registryNamespace = .ok found ∧
    ∃ s binding, (s, binding) ∈ fs ∧
      (s == publicScope || s.startsWith (publicScope ++ "-")) = true ∧
      ∃ f kind, (f, kind) ∈ bindableKinds ∧ (binding.orEmpty.getD f).truthy = true ∧
        c = ⟨binding.orEmpty.getD f,
          (((overridesOf found).getD s).orEmpty.getD f).or (binding.orEmpty.getD f), kind⟩

/-- Every copy planned for a request is among the copies the controller computes for it. -/
theorem mem_copiesFor_of_planned {B : BindInfo} {v : View} {cs : List Copy} {c : Copy}
    (hcs : copiesFor B v = .ok cs) (hc : PlannedCopy B v c) : c ∈ cs := by
  obtain ⟨fs, found, hfs, hfound, s, binding, hmem, hpub, f, kind, hfk, htruthy, rfl⟩ := hc
  unfold copiesFor at hcs
  obtain ⟨found', hfound', hcs⟩ := except_bind_eq_ok hcs
  obtain rfl : found = found' := Except.ok.inj (hfound.symm.trans hfound')
  obtain ⟨pub, hpubs, hcs⟩ := except_bind_eq_ok hcs
  obtain ⟨perScope, hper, hcs⟩ := except_bind_eq_ok hcs
  cases hcs
  -- the scope key is public, so its binding is among the sorted public ones
  have hp : (s, binding) ∈ pub := by
    unfold BindInfo.publicBindings at hpubs
    rw [hfs] at hpubs
    exact mem_filterM_ok hpubs hmem (by simpa [isPublicBinding] using hpub)
  obtain ⟨l, hl, hscope⟩ := exists_mem_of_mapM_ok hper (s, binding) (List.mem_mergeSort.2 hp)
  obtain ⟨ov, hov, hscope⟩ := except_bind_eq_ok hscope
  obtain ⟨ks, hks, hscope⟩ := except_bind_eq_ok hscope
  cases hscope
  -- the field's source name is truthy, so the field gives a copy
  obtain ⟨k, hk, hkind⟩ := exists_mem_of_mapM_ok hks (f, kind) hfk
  obtain ⟨src, hsrc, hkind⟩ := except_bind_eq_ok hkind
  obtain rfl : binding.orEmpty.getD f = src := Value.getD_of_field hsrc
  rw [htruthy] at hkind
  simp only [Bool.not_true, Bool.false_eq_true, if_false] at hkind
  obtain ⟨tg, htg, hkind⟩ := except_bind_eq_ok hkind
  cases hkind
  have hov' : (overridesOf found).getD s = ov := by
    rcases found with _ | ⟨e, o⟩ <;> exact Value.getD_of_field hov
  rw [hov', Value.getD_of_field htg]
  exact List.mem_flatten.2 ⟨_, hl, List.reduceOption_mem_iff.2 hk⟩

/-- A reconcile of binding information `B` from a plain world whose store is well formed, where
`B` lives in a namespace named by a text and the registry it names reports its operand installed,
and that raises nothing, leaves a copy of every binding it plans, for every request it shares
with: at the copy's place, in the request's namespace, an object of the source's kind whose
copied fields are those of the source as the source was, carrying the control label. It does so
when every planned source has distinct keys at every depth, every object at a planned place can
be written over (no pending copy is there), and two planned copies that land on one place copy
one source. -/
theorem bindings_replicated_to_sharing_requests (r₀ : Reconciling) {B : BindInfo} {t : String}
    (hplain : r₀.world.Plain) (hwf : r₀.world.store.WF)
    (hB : bindInfoOf r₀.session.manifest = .ok B) (hns : B.view.namespace = .str t)
    (hready : ReportsInstalled r₀ B)
    (hkeys : ∀ v c src, Planned r₀.world.store B v c →
      sourceOf r₀.world.store B c = .ok (some src) → src.WellKeyed)
    (hlive : ∀ v c o, Planned r₀.world.store B v c →
      r₀.world.store.objectAt (c.place v) = some o → Overwritable o)
    (hsame : NoCollision r₀.world.store B)
    (hok : (reconcileBindInfo.run.run r₀).1 = .ok ()) :
    ∀ v, SharesWith r₀.world.store B v → ∀ c, PlannedCopy B v c →
      ∀ src, sourceOf r₀.world.store B c = .ok (some src) →
        HoldsCopy c.kind src (c.place v) (reconcileBindInfo.run.run r₀).2.world.store := by
  intro v hv c hc src hsrc
  have hrun : reconcileBindInfo.run.run r₀ = (.ok (), (reconcileBindInfo.run.run r₀).2) :=
    Prod.ext hok rfl
  obtain ⟨⟨cs, hcs⟩, hcopied⟩ :=
    copies_of_reconcileBindInfo hplain hwf hB hns hready hkeys hlive hsame hrun v hv
  exact hcopied c ⟨hv, cs, hcs, mem_copiesFor_of_planned hcs hc⟩ src hsrc

/-! ### Checking the hypotheses on a given store -/

section Checks

variable {s : Store} {B : BindInfo}

/-- Whether `p` holds of every copy planned in `s`, computed over the requests the store lists. -/
def plannedAll (s : Store) (B : BindInfo) (p : View → Copy → Bool) : Bool :=
  ((requestsIn s).toOption.getD []).all fun v => ((copiesFor B v).toOption.getD []).all (p v)

theorem plannedAll_planned {p : View → Copy → Bool} (h : plannedAll s B p = true) {v : View}
    {c : Copy} (hP : Planned s B v c) : p v c = true := by
  obtain ⟨⟨views, hviews, hv, -⟩, cs, hcs, hc⟩ := hP
  unfold plannedAll at h
  rw [hviews] at h
  have hvc := List.all_eq_true.1 h v hv
  rw [hcs] at hvc
  exact List.all_eq_true.1 hvc c hc

/-- Every planned source, as `s` holds it, has distinct keys at every depth. -/
theorem wellKeyed_of_check
    (h : plannedAll s B (fun _ c =>
      ((sourceOf s B c).toOption.join.map (·.checkKeys fun _ => true)).getD true) = true) :
    ∀ v c src, Planned s B v c → sourceOf s B c = .ok (some src) → src.WellKeyed := by
  intro v c src hP hsrc
  have hc : src.checkKeys (fun _ => true) = true := by
    have hc := plannedAll_planned h hP
    rwa [hsrc] at hc
  exact (Value.keysAll_of_checkKeys hc).1

/-- No object stands at a planned place. -/
theorem overwritable_of_check
    (h : plannedAll s B (fun v c => (s.objectAt (c.place v)).isNone) = true) :
    ∀ v c o, Planned s B v c → s.objectAt (c.place v) = some o → Overwritable o := by
  intro v c o hP ho
  have hc := plannedAll_planned h hP
  rw [ho] at hc
  cases hc

/-- Planned copies whose places are equal are of one kind and of equal source names. -/
theorem noCollision_of_check {t : String} (hns : B.view.namespace = .str t)
    (h : plannedAll s B (fun v₁ c₁ => plannedAll s B (fun v₂ c₂ =>
      !decide ((c₁.place v₁).Equiv (c₂.place v₂)) ||
        (c₁.kind == c₂.kind && c₁.source.hashable && c₁.source.equiv c₂.source))) = true) :
    NoCollision s B := by
  intro v₁ c₁ v₂ c₂ hP₁ hP₂ he
  have hc := plannedAll_planned (plannedAll_planned h hP₁) hP₂
  simp only [decide_eq_true he, Bool.not_true, Bool.false_or, Bool.and_eq_true,
    beq_iff_eq] at hc
  obtain ⟨⟨hk, hh⟩, hq⟩ := hc
  have hnsh : B.view.namespace.hashable = true := by rw [hns]; rfl
  have hnse : B.view.namespace.equiv B.view.namespace = true := by
    rw [hns]
    exact Value.equiv_str_iff.2 rfl
  unfold sourceOf
  rw [hk]
  exact Store.get_congr s _ _ hh hnsh hq hnse

theorem eq_ok_of_toOption {ε α : Type} {x : Except ε α} {a : α} (h : x.toOption = some a) :
    x = .ok a := by
  cases x with
  | error e => cases h
  | ok b =>
    cases h
    rfl

theorem eq_ok_of_isOk {ε : Type} {x : Except ε Unit} (h : x.isOk = true) : x = .ok () := by
  cases x with
  | error e => cases h
  | ok u => rfl

/-- Whether the registry of `B`, filed where a reconcile of `B` reads it, reports `B`'s operand
installed. -/
def reportsInstalled (r : Reconciling) (B : BindInfo) : Bool :=
  ((r.session.resolveNamespace (some B.registryNamespace)).toOption.bind fun ns =>
    (r.world.store.get (.str registryKind) B.registry ns (.str apiVersion)).toOption.join.bind
      fun M => (View.ofManifest M).toOption.bind fun reg =>
        (operatorInstalled reg.status B.operand).toOption) == some true

theorem ReportsInstalled.of_check {r : Reconciling} (h : reportsInstalled r B = true) :
    ReportsInstalled r B := by
  unfold reportsInstalled at h
  obtain ⟨ns, hns, h⟩ := Option.bind_eq_some_iff.1 (beq_iff_eq.1 h)
  obtain ⟨M, hM, h⟩ := Option.bind_eq_some_iff.1 h
  obtain ⟨reg, hreg, h⟩ := Option.bind_eq_some_iff.1 h
  exact ⟨ns, M, reg, eq_ok_of_toOption hns, eq_ok_of_toOption (Option.join_eq_some_iff.1 hM),
    eq_ok_of_toOption hreg, eq_ok_of_toOption h⟩

end Checks

/-- The cluster that the first four creates of `pendingCopyCalls` build, without failures:
`etcd` installed, `sharingBindInfo` and its secret `s1` in `src`, and a request in `dst` asking
for `etcd`, with no copy made yet. -/
def sharingCluster : World :=
  ⟨(Store.empty false).runCalls (pendingCopyCalls.take 4), .none, 4, Stamp.ofSeconds 0,
    Config.Settings.initial, some .memory⟩

/-- A reconcile of `sharingBindInfo` on `sharingCluster`. -/
def sharingStart : Reconciling := ⟨sharingCluster, ⟨"bi", sharingBindInfo, .obj []⟩⟩

/-- The binding information that `sharingBindInfo` reads as. -/
def sharingB : BindInfo :=
  ⟨⟨sharingBindInfo, .obj [("name", .str "bi"), ("namespace", .str "src")]⟩, .str "etcd",
    .str "cs", .str ""⟩

/-- On `sharingCluster` every hypothesis of the replication holds, and the secret `s1` is copied
into `dst`. -/
theorem sharing_bindInfo_replicates_secret :
    sharingStart.world.Plain ∧ sharingStart.world.store.WF ∧
      bindInfoOf sharingStart.session.manifest = .ok sharingB ∧
      sharingB.view.namespace = .str "src" ∧ ReportsInstalled sharingStart sharingB ∧
      (∀ v c src, Planned sharingStart.world.store sharingB v c →
        sourceOf sharingStart.world.store sharingB c = .ok (some src) → src.WellKeyed) ∧
      (∀ v c o, Planned sharingStart.world.store sharingB v c →
        sharingStart.world.store.objectAt (c.place v) = some o → Overwritable o) ∧
      NoCollision sharingStart.world.store sharingB ∧
      (reconcileBindInfo.run.run sharingStart).1 = .ok () ∧
      ∀ v, SharesWith sharingStart.world.store sharingB v → ∀ c, PlannedCopy sharingB v c →
        ∀ src, sourceOf sharingStart.world.store sharingB c = .ok (some src) →
          HoldsCopy c.kind src (c.place v) (reconcileBindInfo.run.run sharingStart).2.world.store := by
  have hplain : sharingStart.world.Plain := ⟨rfl, rfl⟩
  have hwf : sharingStart.world.store.WF := by
    simp only [sharingStart, sharingCluster]
    exact (sound_runCalls (sound_empty false) _).wf
  have hB : bindInfoOf sharingStart.session.manifest = .ok sharingB := rfl
  have hready : ReportsInstalled sharingStart sharingB := .of_check (by decide +kernel)
  have hkeys := wellKeyed_of_check (s := sharingStart.world.store) (B := sharingB)
    (by decide +kernel)
  have hlive := overwritable_of_check (s := sharingStart.world.store) (B := sharingB)
    (by decide +kernel)
  have hsame := noCollision_of_check (s := sharingStart.world.store) (B := sharingB) rfl
    (by decide +kernel)
  have hok : (reconcileBindInfo.run.run sharingStart).1 = .ok () := eq_ok_of_isOk (by decide +kernel)
  exact ⟨hplain, hwf, hB, rfl, hready, hkeys, hlive, hsame, hok,
    bindings_replicated_to_sharing_requests sharingStart hplain hwf hB rfl hready hkeys hlive
      hsame hok⟩

/-- A reconcile of `sharingBindInfo` on `pendingCopyCluster`, where a copy of `s1` marked for
deletion without finalizers already stands in `dst`. -/
def pendingStart : Reconciling := ⟨pendingCopyCluster, ⟨"bi", sharingBindInfo, .obj []⟩⟩

/-- A copy pending removal at the place of a planned one: the reconcile raises nothing and the
source `s1` exists, but no copy of it is left in `dst`, as the update removed the pending one. -/
theorem pending_copy_not_replicated :
    let copy : Address := ⟨.str "dst", .str "Secret", .str "v1", .str "s1"⟩
    let source : Address := ⟨.str "src", .str "Secret", .str "v1", .str "s1"⟩
    (reconcileBindInfo.run.run pendingStart).1.isOk = true ∧
      (pendingStart.world.store.objectAt source).isSome = true ∧
      ((reconcileBindInfo.run.run pendingStart).2.world.store.objectAt copy).isNone = true := by
  decide +kernel

end OperandLifecycle.Controllers

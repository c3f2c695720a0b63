import OperandLifecycle.Proofs.WriteCalls
import OperandLifecycle.Reconcile.Manager
/-!
# What the observing controllers write

The registry, configuration and binding information controllers observe the cluster and
report: a run of one of them through `safeReconcile` writes only within the footprint
`observerFootprint` of the store it starts from. It changes the reconciled resource only in
its status and resource version, writes Events only in the resource's namespace, and the
binding information controller writes v1 Secrets and ConfigMaps only in the namespaces of the
requests it shares its bindings with. None of them adds a finalizer, and none deletes an
object, but for an object already marked for deletion and without finalizers, which an update
of it removes (`observers_write_within`).

The proof carries `InFootprint`, the session's manifest together with `Store.Within`, through
every step of a reconcile: each call of the cluster keeps it by the specs of
`Proofs/WriteCalls`, lifted into a reconcile (`liftCluster_spec`), and each controller is
assembled from them by `mvcgen`.
-/

open Std.Do

namespace OperandLifecycle

/-- A spec whose precondition asks for a fact follows from the spec under that fact. -/
theorem triple_of_fact {σ ε α : Type} {x : ExceptT ε (StateM σ) α} {P : σ → Prop} {H : Prop}
    {Q : PostCond α (.except ε (.arg σ .pure))} (h : H → ⦃fun s => ⌜P s⌝⦄ x ⦃Q⦄) :
    ⦃fun s => ⌜P s ∧ H⌝⦄ x ⦃Q⦄ := by
  rw [triple_iff_run]
  rintro s ⟨hP, hH⟩
  exact (triple_iff_run _ _ _).1 (h hH) s hP

/-- A spec with weaker outcomes follows from one with stronger outcomes. -/
theorem triple_weaken {σ ε α : Type} {x : ExceptT ε (StateM σ) α} {P : σ → Prop}
    {Q Q' : α → σ → Prop} {E E' : ε → σ → Prop}
    (h : ⦃fun s => ⌜P s⌝⦄ x ⦃post⟨fun a s => ⌜Q a s⌝, fun e s => ⌜E e s⌝⟩⦄)
    (hQ : ∀ a s, Q a s → Q' a s) (hE : ∀ e s, E e s → E' e s) :
    ⦃fun s => ⌜P s⌝⦄ x ⦃post⟨fun a s => ⌜Q' a s⌝, fun e s => ⌜E' e s⌝⟩⦄ := by
  rw [triple_iff_run]
  intro s hP
  have h' := (triple_iff_run _ _ _).1 h s hP
  rcases hx : x.run.run s with ⟨e | a, s'⟩ <;> rw [hx] at h'
  · exact hE e s' h'
  · exact hQ a s' h'

/-- A spec that keeps a fact of the state keeps it in the state a run ends in. -/
theorem state_of_run {σ ε α : Type} {x : ExceptT ε (StateM σ) α} {P : σ → Prop}
    (h : ⦃fun s => ⌜P s⌝⦄ x ⦃post⟨fun _ s => ⌜P s⌝, fun _ s => ⌜P s⌝⟩⦄) {s s' : σ}
    {res : Except ε α} (hs : P s) (hrun : x.run s = (res, s')) : P s' := by
  have h' := (triple_iff_run _ _ _).1 h s hs
  rw [show x.run.run s = (res, s') from hrun] at h'
  cases res <;> exact h'

namespace Reconcile

open Json Cluster Store

variable {α : Type}

theorem ReconcileM.check_eq (r : Except Failure α) :
    ReconcileM.check r = match r with | .ok a => pure a | .error e => throw e := by
  cases r <;> rfl

/-- A cluster program keeps, inside a reconcile, what its spec keeps of the world, and leaves
the session alone. -/
theorem liftCluster_spec {m : ClusterM α} {P : World → Prop} {Q : α → World → Prop}
    {E : Failure → World → Prop}
    (h : ⦃fun w => ⌜P w⌝⦄ m ⦃post⟨fun a w => ⌜Q a w⌝, fun e w => ⌜E e w⌝⟩⦄)
    (S : Session → Prop) :
    ⦃fun r => ⌜S r.session ∧ P r.world⌝⦄ liftCluster m
    ⦃post⟨fun a r => ⌜S r.session ∧ Q a r.world⌝, fun e r => ⌜S r.session ∧ E e r.world⌝⟩⦄ := by
  rw [triple_iff_run]
  rintro r ⟨hS, hP⟩
  have h' := (triple_iff_run _ _ _).1 h r.world hP
  rw [Controllers.run_liftCluster]
  rcases hm : m.run.run r.world with ⟨e | a, w'⟩ <;> rw [hm] at h' <;> exact ⟨hS, h'⟩

/-- An attribute read off a record is its member. -/
theorem attr_ok {v x : Value} {k : String} (h : v.attr k = .ok x) : x = v.getD k := by
  cases v <;> simp_all [Value.attr, Value.getD, Value.get?]

theorem Session.name_ok {s : Session} {name : Value} (h : s.name = .ok name) :
    name = (s.manifest.getD "metadata").getD "name" := by
  unfold Session.name Session.metadata at h
  cases hm : s.manifest.attr "metadata" with
  | error e => simp [hm, bind, Except.bind] at h
  | ok md =>
    simp only [hm, bind, Except.bind] at h
    rw [attr_ok h, attr_ok hm]

theorem Session.ns_ok {s : Session} {ns : Value} (h : s.ns = .ok ns) :
    ns = (s.manifest.getD "metadata").getD "namespace" := by
  unfold Session.ns Session.metadata at h
  cases hm : s.manifest.attr "metadata" with
  | error e => simp [hm, bind, Except.bind] at h
  | ok md =>
    simp only [hm, bind, Except.bind] at h
    rw [attr_ok h, attr_ok hm]

end Reconcile

namespace Controllers

open Json Cluster Store Reconcile Resource Catalog

variable {α β : Type}

/-- An attempt keeps what its item keeps, whether the item answers or fails. -/
theorem attempt_spec {m : ReconcileM α} {P Q : Reconciling → Prop}
    (h : ⦃fun r => ⌜P r⌝⦄ m ⦃post⟨fun _ r => ⌜Q r⌝, fun _ r => ⌜Q r⌝⟩⦄) :
    ⦃fun r => ⌜P r⌝⦄ attempt m ⦃post⟨fun _ r => ⌜Q r⌝, fun _ r => ⌜Q r⌝⟩⦄ := by
  rw [triple_iff_run]
  intro r hr
  have h' := (triple_iff_run _ _ _).1 h r hr
  rw [run_attempt]
  generalize m.run.run r = res at h' ⊢
  rcases res with ⟨e | a, r'⟩
  · cases he : e.isOwn <;> simp only [he, Bool.false_eq_true, if_false, if_true] <;> exact h'
  · exact h'

/-! ### Reconciles within a footprint -/

/-- The resource's own address, up to equal keys: its namespace, kind and name. -/
def NamesResource (resource : Value) (b : Address) : Prop :=
  b.ns.heldEquiv ((resource.getD "metadata").getD "namespace") = true ∧
    b.kind.heldEquiv (resource.getD "kind") = true ∧
    b.name.heldEquiv ((resource.getD "metadata").getD "name") = true

/-- A reconcile of `resource` whose store is within the footprint `F` of `S`. -/
def InFootprint (F : Footprint) (S : Store) (resource : Value) (r : Reconciling) : Prop :=
  r.session.manifest = resource ∧ Within F S r.world.store

section Steps

variable {F : Footprint} {S : Store} {R : Value}

/-- A cluster program that keeps every store within `F` of `S`, inside a reconcile of `R`. -/
theorem lift_within {m : ClusterM α}
    (h : ⦃fun w => ⌜Within F S w.store⌝⦄ m
      ⦃post⟨fun _ w => ⌜Within F S w.store⌝, fun _ w => ⌜Within F S w.store⌝⟩⦄) :
    ⦃fun r => ⌜InFootprint F S R r⌝⦄ (MonadLift.monadLift m : ReconcileM α)
    ⦃post⟨fun _ r => ⌜InFootprint F S R r⌝, fun _ r => ⌜InFootprint F S R r⌝⟩⦄ :=
  liftCluster_spec (P := fun w => Within F S w.store) h (·.manifest = R)

/-- A read inside a reconcile of `R` keeps the footprint. -/
theorem lift_keeps {m : ClusterM α} {Rel : α → β → Prop} {read : World → Except Failure β}
    (h : ∀ w, ReadsUnder Rel m (read w) w) :
    ⦃fun r => ⌜InFootprint F S R r⌝⦄ (MonadLift.monadLift m : ReconcileM α)
    ⦃post⟨fun _ r => ⌜InFootprint F S R r⌝, fun _ r => ⌜InFootprint F S R r⌝⟩⦄ :=
  lift_within (ReadsUnder.keeps h)

/-- A read inside a reconcile of `R`: it keeps the footprint, and what it answers the
computation it reads as answers. -/
theorem lift_reads {m : ClusterM α} {Rel : α → β → Prop} {read : World → Except Failure β}
    (h : ∀ w, ReadsUnder Rel m (read w) w) (hread : ∀ w p, read (w.withFaults p) = read w) :
    ⦃fun r => ⌜InFootprint F S R r⌝⦄ (MonadLift.monadLift m : ReconcileM α)
    ⦃post⟨fun a r => ⌜InFootprint F S R r ∧ ∃ b, read r.world = .ok b ∧ Rel a b⌝,
      fun _ r => ⌜InFootprint F S R r⌝⟩⦄ :=
  triple_weaken (liftCluster_spec (ReadsUnder.spec (Q := Within F S) h hread) (·.manifest = R))
    (fun _ _ h => ⟨⟨h.1, h.2.1⟩, h.2.2⟩) (fun _ _ h => h)

/-- The status write of a reconcile, at the resource's kind, name and namespace, stays within a
footprint that owns the resource's address and names its kind. -/
theorem within_setStatus_session (hown : ∀ b, NamesResource R b → F.own b)
    (hkind : F.kinds (R.getD "kind")) {r : Reconciling} (hr : InFootprint F S R r)
    {name ns : Value} (hname : r.session.name = .ok name) (hns : r.session.ns = .ok ns)
    (new v : Value) :
    Within F S ((Call.setStatus r.session.kind name ns new v).after r.world.store) := by
  obtain ⟨hm, hw⟩ := hr
  have hn := Session.name_ok hname
  have hs := Session.ns_ok hns
  rw [hm] at hn hs
  subst hn hs
  have hk : r.session.kind = R.getD "kind" := by rw [Session.kind, hm]
  rw [hk]
  exact hw.trans (within_setStatus hw.wf (fun b hb hk hn => .inr (hown b ⟨hb, hk, hn⟩)) hkind)

set_option mvcgen.warning false in
/-- A status write of the resource stays within a footprint that owns the resource's address
and names its kind. -/
theorem setStatus_within (hown : ∀ b, NamesResource R b → F.own b)
    (hkind : F.kinds (R.getD "kind")) (new : Value) :
    ⦃fun r => ⌜InFootprint F S R r⌝⦄ ReconcileM.setStatus new
    ⦃post⟨fun _ r => ⌜InFootprint F S R r⌝, fun _ r => ⌜InFootprint F S R r⌝⟩⦄ := by
  have hset : ∀ kind name ns status v,
      ⦃fun r => ⌜r.session.manifest = R ∧ (Within F S r.world.store ∧
        Within F S ((Call.setStatus kind name ns status v).after r.world.store))⌝⦄
      (MonadLift.monadLift (Cluster.setStatus kind name ns status v) : ReconcileM _)
      ⦃post⟨fun _ r => ⌜InFootprint F S R r⌝, fun _ r => ⌜InFootprint F S R r⌝⟩⦄ :=
    fun _ _ _ _ _ => liftCluster_spec (setStatus_keeps _ _ _ _ _) (·.manifest = R)
  mvcgen [ReconcileM.setStatus, ReconcileM.session, ReconcileM.check_eq,
    ReconcileM.modifySession, hset]
  all_goals
    obtain ⟨hm, hw⟩ := ‹InFootprint F S R _›
    exact ⟨hm, hw, within_setStatus_session hown hkind ⟨hm, hw⟩ ‹(_ : Session).name = .ok _›
      ‹(_ : Session).ns = .ok _› _ _⟩

set_option mvcgen.warning false in
/-- An event about the resource stays within a footprint that frees the Events of its
namespace. -/
theorem recordEvent_within (hfree : ∀ b, Event.FiledFor R b → F.free b)
    (hkind : F.kinds (.str "Event")) (type : Event.EventType) (reason message : String) :
    ⦃fun r => ⌜InFootprint F S R r⌝⦄ ReconcileM.recordEvent type reason message
    ⦃post⟨fun _ r => ⌜InFootprint F S R r⌝, fun _ r => ⌜InFootprint F S R r⌝⟩⦄ := by
  have hrec : ∀ owner t (a b : Value),
      ⦃fun r => ⌜r.session.manifest = R ∧ (Within F S r.world.store ∧ owner = R)⌝⦄
      (MonadLift.monadLift (Event.record owner t a b) : ReconcileM _)
      ⦃post⟨fun _ r => ⌜InFootprint F S R r⌝, fun _ r => ⌜InFootprint F S R r⌝⟩⦄ :=
    fun owner t a b => by
      refine liftCluster_spec (m := Event.record owner t a b)
        (P := fun w => Within F S w.store ∧ owner = R) (Q := fun _ w => Within F S w.store)
        (E := fun _ w => Within F S w.store) (triple_of_fact fun h => ?_) (·.manifest = R)
      rw [h]
      exact Event.record_within hfree hkind t a b
  mvcgen [ReconcileM.recordEvent, ReconcileM.session, hrec]
  obtain ⟨hm, hw⟩ := ‹InFootprint F S R _›
  exact ⟨hm, hw, hm⟩

set_option mvcgen.warning false in
/-- An operator's lookups, inside a reconcile, keep the footprint. -/
theorem liftedLookups_within (registry : View) (op : Operator) :
    ⦃fun r => ⌜InFootprint F S R r⌝⦄ liftedLookups registry op
    ⦃post⟨fun _ r => ⌜InFootprint F S R r⌝, fun _ r => ⌜InFootprint F S R r⌝⟩⦄ := by
  have hinst := lift_keeps (F := F) (S := S) (R := R)
    (fun w => readsUnder_installationOfOperator (w := w) op)
  have hrefs := lift_keeps (F := F) (S := S) (R := R)
    (fun w => readsUnder_referentsOf (w := w) op.name registry.name registry.namespace [])
  mvcgen [liftedLookups, hinst, hrefs]

set_option mvcgen.warning false in
theorem registryTurn_within (registry : View) (previous : Value) (op : Operator)
    (acc : Fields × List Failure) :
    ⦃fun r => ⌜InFootprint F S R r⌝⦄ registryTurn registry previous op acc
    ⦃post⟨fun _ r => ⌜InFootprint F S R r⌝, fun _ r => ⌜InFootprint F S R r⌝⟩⦄ := by
  have ha := attempt_spec (liftedLookups_within (F := F) (S := S) (R := R) registry op)
  mvcgen [registryTurn, ha, ReconcileM.check_eq]

set_option mvcgen.warning false in
theorem reconcileRegistry_within (hown : ∀ b, NamesResource R b → F.own b)
    (hkind : F.kinds (R.getD "kind")) :
    ⦃fun r => ⌜InFootprint F S R r⌝⦄ reconcileRegistry
    ⦃post⟨fun _ r => ⌜InFootprint F S R r⌝, fun _ r => ⌜InFootprint F S R r⌝⟩⦄ := by
  have hturn := registryTurn_within (F := F) (S := S) (R := R)
  have hset := setStatus_within (S := S) hown hkind
  rw [reconcileRegistry_eq]
  mvcgen [ReconcileM.session, ReconcileM.check_eq, raiseGathered, hturn, hset] invariants
  | inv1 => post⟨fun _ r => ⌜InFootprint F S R r⌝, fun _ r => ⌜InFootprint F S R r⌝⟩
  -- a turn that yields and one that stops both leave the loop within the footprint
  intro r hr
  cases ‹ForInStep _› <;> exact hr

set_option mvcgen.warning false in
theorem observeOperand_within (hfree : ∀ b, Event.FiledFor R b → F.free b)
    (hkind : F.kinds (.str "Event")) (op : Operator) (service : Service) :
    ⦃fun r => ⌜InFootprint F S R r⌝⦄ observeOperand op service
    ⦃post⟨fun _ r => ⌜InFootprint F S R r⌝, fun _ r => ⌜InFootprint F S R r⌝⟩⦄ := by
  have hinst := lift_keeps (F := F) (S := S) (R := R)
    (fun w => readsUnder_installationOfOperator (w := w) op)
  have hget := fun k n ns v => lift_keeps (F := F) (S := S) (R := R)
    (fun w => readsUnder_getObject (w := w) k n ns v)
  have hev := recordEvent_within (S := S) hfree hkind
  mvcgen [observeOperand, ReconcileM.check_eq, hinst, hget, hev] invariants
  | inv1 => post⟨fun _ r => ⌜InFootprint F S R r⌝, fun _ r => ⌜InFootprint F S R r⌝⟩

set_option mvcgen.warning false in
/-- A lookup through the session keeps the footprint. -/
theorem getObject_within (kind name apiVersion : Value) (ns : Option Value) :
    ⦃fun r => ⌜InFootprint F S R r⌝⦄ ReconcileM.getObject kind name apiVersion ns
    ⦃post⟨fun _ r => ⌜InFootprint F S R r⌝, fun _ r => ⌜InFootprint F S R r⌝⟩⦄ := by
  have hget := fun k n ns v => lift_keeps (F := F) (S := S) (R := R)
    (fun w => readsUnder_getObject (w := w) k n ns v)
  mvcgen [ReconcileM.getObject, ReconcileM.session, ReconcileM.check_eq, hget]

set_option mvcgen.warning false in
theorem reconcileConfig_within (hown : ∀ b, NamesResource R b → F.own b)
    (hkind : F.kinds (R.getD "kind")) (hfree : ∀ b, Event.FiledFor R b → F.free b)
    (hevent : F.kinds (.str "Event")) :
    ⦃fun r => ⌜InFootprint F S R r⌝⦄ reconcileConfig
    ⦃post⟨fun _ r => ⌜InFootprint F S R r⌝, fun _ r => ⌜InFootprint F S R r⌝⟩⦄ := by
  have hobs := fun op service =>
    attempt_spec (observeOperand_within (S := S) hfree hevent op service)
  have hget := getObject_within (F := F) (S := S) (R := R)
  have hev := recordEvent_within (S := S) hfree hevent
  have hset := setStatus_within (S := S) hown hkind
  mvcgen [reconcileConfig, ReconcileM.session, ReconcileM.check_eq, raiseGathered, hobs, hget,
    hev, hset] invariants
  | inv1 => post⟨fun _ r => ⌜InFootprint F S R r⌝, fun _ r => ⌜InFootprint F S R r⌝⟩

set_option mvcgen.warning false in
/-- Deciding whether to run again only reads. -/
theorem requeue_within (c : Controller) :
    ⦃fun r => ⌜InFootprint F S R r⌝⦄ c.requeue
    ⦃post⟨fun _ r => ⌜InFootprint F S R r⌝, fun _ r => ⌜InFootprint F S R r⌝⟩⦄ := by
  have hsetting := fun k => lift_keeps (F := F) (S := S) (R := R)
    (fun w => readsUnder_setting (w := w) k)
  cases c <;>
    mvcgen [Controller.requeue, registryRequeue, defaultRequeue, requeueSoon, ReconcileM.session,
      ReconcileM.check_eq, hsetting]

end Steps

/-! ### Whom binding information shares with -/

theorem except_bind_eq_ok {ε : Type} {x : Except ε α} {f : α → Except ε β} {b : β}
    (h : (x >>= f) = .ok b) : ∃ a, x = .ok a ∧ f a = .ok b := by
  cases x with
  | error e => cases h
  | ok a => exact ⟨a, rfl, h⟩

/-- Each item of a list mapped without failure comes from an item of the list. -/
theorem exists_of_mapM_ok {ε : Type} {f : α → Except ε β} :
    ∀ {xs : List α} {ys : List β}, xs.mapM f = .ok ys → ∀ y ∈ ys, ∃ x ∈ xs, f x = .ok y
  | [], ys, h, y, hy => by
    simp only [List.mapM_nil, except_pure, Except.ok.injEq] at h
    subst h
    simp at hy
  | x :: xs, ys, h, y, hy => by
    rw [List.mapM_cons] at h
    cases hx : f x with
    | error e => simp [hx] at h
    | ok b =>
      cases hr : xs.mapM f with
      | error e => simp [hx, hr] at h
      | ok bs =>
        simp only [hx, hr, except_ok_bind, except_pure, Except.ok.injEq] at h
        subst h
        rcases List.mem_cons.1 hy with rfl | hy
        · exact ⟨x, List.mem_cons_self, hx⟩
        · obtain ⟨x', hx', h'⟩ := exists_of_mapM_ok hr y hy
          exact ⟨x', List.mem_cons_of_mem _ hx', h'⟩

/-- Every copy binding information makes is of a bindable kind. -/
theorem kind_of_mem_copiesFor {B : BindInfo} {request : View} {cs : List Copy}
    (h : copiesFor B request = .ok cs) {c : Copy} (hc : c ∈ cs) :
    c.kind = "Secret" ∨ c.kind = "ConfigMap" := by
  unfold copiesFor at h
  obtain ⟨found, -, h⟩ := except_bind_eq_ok h
  obtain ⟨pub, -, h⟩ := except_bind_eq_ok h
  obtain ⟨perScope, hm, h⟩ := except_bind_eq_ok h
  cases h
  obtain ⟨l, hl, hcl⟩ := List.mem_flatten.1 hc
  obtain ⟨⟨key, binding⟩, -, hkb⟩ := exists_of_mapM_ok hm l hl
  obtain ⟨override, -, hkb⟩ := except_bind_eq_ok hkb
  obtain ⟨kinds, hk, hkb⟩ := except_bind_eq_ok hkb
  cases hkb
  obtain ⟨⟨field, kind⟩, hmem, hg⟩ := exists_of_mapM_ok hk (some c) (List.reduceOption_mem_iff.1 hcl)
  -- every copy a binding field makes is of the kind that field names
  have hkind : c.kind = kind := by
    obtain ⟨source, -, hg⟩ := except_bind_eq_ok hg
    cases hsrc : source.truthy
    · simp [hsrc] at hg
    · simp only [hsrc, Bool.not_true, Bool.false_eq_true, if_false] at hg
      obtain ⟨target, -, hg⟩ := except_bind_eq_ok hg
      cases hg
      rfl
  simp only [bindableKinds, List.mem_cons, Prod.mk.injEq, List.not_mem_nil, or_false] at hmem
  rcases hmem with ⟨-, rfl⟩ | ⟨-, rfl⟩
  · exact .inl hkind
  · exact .inr hkind

/-- A false value stands for the empty object, whose members are all missing. -/
theorem getD_orEmpty (x : Value) (k : String) : x.orEmpty.getD k = x.getD k := by
  unfold Value.orEmpty Value.or
  split
  · rfl
  · -- a false value has no members
    cases x <;> simp_all [Value.getD, Value.get?, Value.truthy, Fields.get?]

theorem View.namespace_of_ofManifest {m : Value} {v : View} (h : View.ofManifest m = .ok v) :
    v.namespace = (m.getD "metadata").getD "namespace" := by
  unfold View.ofManifest at h
  obtain ⟨md, hmd, h⟩ := except_bind_eq_ok h
  obtain ⟨name, -, h⟩ := except_bind_eq_ok h
  cases hn : name.truthy <;> simp only [hn, Bool.not_false, Bool.not_true, if_true, if_false, Bool.false_eq_true] at h
  · cases h
  · cases h
    rw [View.namespace, getD_orEmpty]
    cases m <;> cases hmd
    rfl

theorem Referent.same_self {r : Referent} (hr : r.Keyed) : r.same r = true := by
  simp [Referent.same, Value.heldEquiv_self hr.1, Value.heldEquiv_self hr.2]

/-- The binding information a manifest reads as. -/
def bindInfoOf (manifest : Value) : Except Failure BindInfo := do
  BindInfo.ofView (← View.ofManifest manifest)

/-- A request, as the store `s` lists it, that binding information `B` shares its bindings
with: one not being deleted, in a namespace other than `B`'s, that names `B`'s operand through
`B`'s registry and registry namespace. -/
def SharesWith (s : Store) (B : BindInfo) (v : View) : Prop :=
  ∃ views, requestsIn s = .ok views ∧ v ∈ views ∧ v.deleting = false ∧
    v.namespace.equiv B.view.namespace = false ∧
    NamesOperand v B.operand B.registry B.registryNamespace

/-- The places where binding information `resource` may write a copy of a binding: a v1
Secret or ConfigMap in the namespace of a request it shares with in `s`. -/
def CopyTarget (s : Store) (resource : Value) (b : Address) : Prop :=
  (b.kind = .str "Secret" ∨ b.kind = .str "ConfigMap") ∧ b.apiVersion = .str "v1" ∧
    ∃ B, bindInfoOf resource = .ok B ∧ ∃ v, SharesWith s B v ∧ b.ns.heldEquiv v.namespace = true

/-- A request fetched by namespace lives, as its view reads, in that namespace. -/
theorem namespace_of_fetched {s : Store} (hs : s.WF) {kind name ns v M : Value} {request : View}
    (hget : s.get kind name ns v = .ok (some M)) (hreq : View.ofManifest M = .ok request) :
    request.namespace.heldEquiv ns = true := by
  obtain ⟨version, -, hat⟩ := found_of_get hs.keyed hget
  obtain ⟨a, hread, heq⟩ := hs.named_of_objectAt hat
  rw [View.namespace_of_ofManifest hreq, ← (parts_of_read hread).1]
  exact heq.1

/-- A request that names the operand of binding information `B`, found in another namespace
than `B`'s, stands for a request `B` shares with. -/
theorem shares_of_referent {s : Store} {B : BindInfo} {refs : List Referent}
    (hrefs : freshReferents s B.operand B.registry B.registryNamespace [] = .ok refs)
    {target : Referent} (ht : target ∈ refs) (hns : target.ns.equiv B.view.namespace = false) :
    target.Keyed ∧ ∃ v, SharesWith s B v ∧ (Referent.ofView v).same target = true := by
  obtain ⟨views, hviews, hd, hsel⟩ := selects_freshReferents hrefs
  have hkey := hd.keyed target ht
  obtain ⟨v, hv, hdel, -, hnames, hsame⟩ := (hsel target).1 ⟨target, ht, Referent.same_self hkey⟩
  have hvt : v.namespace.heldEquiv target.ns = true := (Bool.and_eq_true_iff.1 hsame).2
  refine ⟨hkey, v, ⟨views, hviews, hv, hdel, ?_, hnames⟩, hsame⟩
  -- a namespace held equal to the target's is other than B's, as the target's is
  cases he : v.namespace.equiv B.view.namespace
  · rfl
  · have hv := Value.hashable_of_heldEquiv_left hkey.2 hvt
    have htb : target.ns.heldEquiv B.view.namespace = true :=
      Value.heldEquiv_trans hkey.2 (Value.heldEquiv_symm hv hvt) (Value.heldEquiv_iff.2 (.inr he))
    rcases Value.heldEquiv_iff.1 htb with ⟨-, hnan⟩ | h
    · simp [Value.equiv_eq_false_of_isNaN_right _ hnan] at he
    · simp [h] at hns

/-- A request that names the operand of binding information `B`, found in another namespace
than `B`'s, is one `B` shares with. -/
theorem shared_of_referent {s : Store} {B : BindInfo} {refs : List Referent}
    (hrefs : freshReferents s B.operand B.registry B.registryNamespace [] = .ok refs)
    {target : Referent} (ht : target ∈ refs) (hns : target.ns.equiv B.view.namespace = false) :
    target.ns.hashable = true ∧ ∃ v, SharesWith s B v ∧ v.namespace.heldEquiv target.ns = true := by
  obtain ⟨hkey, v, hv, hsame⟩ := shares_of_referent hrefs ht hns
  exact ⟨hkey.2, v, hv, (Bool.and_eq_true_iff.1 hsame).2⟩

theorem mem_of_sortReferents {refs sorted : List Referent} (h : sortReferents refs = .ok sorted)
    {r : Referent} (hr : r ∈ sorted) : r ∈ refs := by
  unfold sortReferents sortChecked at h
  obtain ⟨_, -, h⟩ := except_bind_eq_ok h
  cases h
  exact List.mem_mergeSort.1 hr


section Shares

variable {F : Footprint} {S s : Store}

/-- A store within a footprint that writes no requests lists the requests as `S` does. -/
theorem requestsIn_of_within (hS : S.WF) (hw : Within F S s)
    (hK : ∀ k, F.kinds k → (Value.str requestKind).heldEquiv k = false) :
    requestsIn s = requestsIn S := by
  unfold requestsIn
  rw [list_eq_of_sameKind rfl hw.wf.keyed hS.keyed (hw.listings _ rfl hK).symm]

theorem freshReferents_of_within (hS : S.WF) (hw : Within F S s)
    (hK : ∀ k, F.kinds k → (Value.str requestKind).heldEquiv k = false)
    (operand registry registryNamespace : Value) (exclude : List Referent) :
    freshReferents s operand registry registryNamespace exclude =
      freshReferents S operand registry registryNamespace exclude := by
  unfold freshReferents
  rw [requestsIn_of_within hS hw hK]

/-- Every target of binding information `B`, as its reconcile sorts them, is a request that `B`
shares with in `S`. -/
theorem shared_of_target (hS : S.WF) (hw : Within F S s)
    (hK : ∀ k, F.kinds k → (Value.str requestKind).heldEquiv k = false) {B : BindInfo}
    {refs targets : List Referent}
    (hrefs : freshReferents s B.operand B.registry B.registryNamespace [] = .ok refs)
    (htargets : sortReferents (refs.filter (fun r => !r.ns.equiv B.view.namespace)) = .ok targets)
    {target : Referent} (ht : target ∈ targets) :
    target.ns.hashable = true ∧ ∃ v, SharesWith S B v ∧ v.namespace.heldEquiv target.ns = true := by
  rw [freshReferents_of_within hS hw hK] at hrefs
  have hmem := List.mem_filter.1 (mem_of_sortReferents htargets ht)
  exact shared_of_referent hrefs hmem.1 (by simpa using hmem.2)

/-- A copy for a request fetched at a target's name and namespace goes where binding information
may write. -/
theorem copyTarget_of_fetched {R : Value} {B : BindInfo} (hB : bindInfoOf R = .ok B)
    {target : Referent} {v : View} (hshared : SharesWith S B v)
    (htarget : target.ns.hashable = true) (hvt : v.namespace.heldEquiv target.ns = true)
    (hs : s.WF) {M : Value} {request : View}
    (hget : s.get (.str requestKind) target.name target.ns (.str apiVersion) = .ok (some M))
    (hreq : View.ofManifest M = .ok request) {cs : List Copy} (hcs : copiesFor B request = .ok cs)
    {c : Copy} (hc : c ∈ cs) (b : Address) (hb : b.ns.heldEquiv request.namespace = true)
    (hk : b.kind = .str c.kind) (hv : b.apiVersion = .str "v1") : CopyTarget S R b := by
  have hrt := namespace_of_fetched hs hget hreq
  have hreqKey := Value.hashable_of_heldEquiv_left htarget hrt
  have hbKey := Value.hashable_of_heldEquiv_left hreqKey hb
  have hvKey := Value.hashable_of_heldEquiv_left htarget hvt
  -- the copy's namespace, the request's, the target's and the shared request's are one key
  have hbv : b.ns.heldEquiv v.namespace = true :=
    Value.heldEquiv_trans hbKey hb (Value.heldEquiv_trans hreqKey hrt (Value.heldEquiv_symm hvKey hvt))
  refine ⟨?_, hv, B, hB, v, hshared, hbv⟩
  rcases kind_of_mem_copiesFor hcs hc with h | h <;> rw [hk, h]
  · exact .inl rfl
  · exact .inr rfl

/-- Every copy planned for a request fetched at one of the sorted targets goes where a
footprint that frees the copy targets of `S` allows, and is of a kind it names. The targets
were listed, and the request fetched, in stores within the footprint. -/
theorem copy_allowed {R : Value} (hS : S.WF)
    (hK : ∀ k, F.kinds k → (Value.str requestKind).heldEquiv k = false)
    (hcopy : ∀ b, CopyTarget S R b → F.free b)
    (hcopyKinds : F.kinds (.str "Secret") ∧ F.kinds (.str "ConfigMap"))
    {B : BindInfo} (hB : bindInfoOf R = .ok B) {s₁ s₂ : Store} (hw₁ : Within F S s₁)
    (hw₂ : Within F S s₂) {refs targets : List Referent}
    (hrefs : freshReferents s₁ B.operand B.registry B.registryNamespace [] = .ok refs)
    (htargets : sortReferents (refs.filter (fun r => !r.ns.equiv B.view.namespace)) = .ok targets)
    {target : Referent} (ht : target ∈ targets) {M : Value}
    (hget : s₂.get (.str requestKind) target.name target.ns (.str apiVersion) = .ok (some M))
    {request : View} (hreq : View.ofManifest M = .ok request) {cs : List Copy}
    (hcs : copiesFor B request = .ok cs) {c : Copy} (hc : c ∈ cs) :
    F.kinds (.str c.kind) ∧ ∀ b : Address, b.ns.heldEquiv request.namespace = true →
      b.kind = .str c.kind → b.apiVersion = .str "v1" → F.free b := by
  obtain ⟨hkey, v, hshared, hvt⟩ := shared_of_target hS hw₁ hK hrefs htargets ht
  refine ⟨?_, fun b hb hk hv =>
    hcopy b (copyTarget_of_fetched hB hshared hkey hvt hw₂.wf hget hreq hcs hc b hb hk hv)⟩
  rcases kind_of_mem_copiesFor hcs hc with h | h <;> rw [h]
  · exact hcopyKinds.1
  · exact hcopyKinds.2

end Shares

/-! ### The binding information controller -/

section BindInfoSteps

variable {F : Footprint} {S : Store} {R : Value}

set_option mvcgen.warning false in
theorem setBindPhase_within (hown : ∀ b, NamesResource R b → F.own b)
    (hkind : F.kinds (R.getD "kind")) (phase : Status.BindInfoPhase) :
    ⦃fun r => ⌜InFootprint F S R r⌝⦄ setBindPhase phase
    ⦃post⟨fun _ r => ⌜InFootprint F S R r⌝, fun _ r => ⌜InFootprint F S R r⌝⟩⦄ := by
  have hset := setStatus_within (S := S) hown hkind
  mvcgen [setBindPhase, ReconcileM.session, ReconcileM.check_eq, hset]

set_option mvcgen.warning false in
theorem bindRegistry_within (hown : ∀ b, NamesResource R b → F.own b)
    (hkind : F.kinds (R.getD "kind")) (hfree : ∀ b, Event.FiledFor R b → F.free b)
    (hevent : F.kinds (.str "Event")) (B : BindInfo) :
    ⦃fun r => ⌜InFootprint F S R r⌝⦄ bindRegistry B
    ⦃post⟨fun _ r => ⌜InFootprint F S R r⌝, fun _ r => ⌜InFootprint F S R r⌝⟩⦄ := by
  have hget := getObject_within (F := F) (S := S) (R := R)
  have hev := recordEvent_within (S := S) hfree hevent
  have hphase := setBindPhase_within (S := S) hown hkind
  mvcgen [bindRegistry, ReconcileM.check_eq, hget, hev, hphase]

/-- A lookup inside a reconcile keeps the footprint, and what it finds is what the store holds. -/
theorem lift_getObject (k n ns v : Value) :
    ⦃fun r => ⌜InFootprint F S R r⌝⦄ (MonadLift.monadLift (getObject k n ns v) : ReconcileM _)
    ⦃post⟨fun p r => ⌜InFootprint F S R r ∧ (p.1 = true → r.world.store.get k n ns v = .ok p.2)⌝,
      fun _ r => ⌜InFootprint F S R r⌝⟩⦄ :=
  triple_weaken (liftCluster_spec (getObject_keeps (Q := Within F S) k n ns v) (·.manifest = R))
    (fun _ _ h => ⟨⟨h.1, h.2.1⟩, h.2.2⟩) (fun _ _ h => h)

/-- The requests naming an operand, inside a reconcile: they keep the footprint, and they are
the ones the store lists. -/
theorem lift_referentsOf (operand registry registryNamespace : Value) (exclude : List Referent) :
    ⦃fun r => ⌜InFootprint F S R r⌝⦄
    (MonadLift.monadLift (referentsOf operand registry registryNamespace exclude) : ReconcileM _)
    ⦃post⟨fun refs r => ⌜InFootprint F S R r ∧
        freshReferents r.world.store operand registry registryNamespace exclude = .ok refs⌝,
      fun _ r => ⌜InFootprint F S R r⌝⟩⦄ :=
  triple_weaken (lift_reads (fun w => readsUnder_referentsOf (w := w) _ _ _ _) (fun _ _ => rfl))
    (fun _ _ ⟨h, _, hb, hab⟩ => ⟨h, hab ▸ hb⟩) (fun _ _ h => h)

/-- An attempted copy into a request's namespace keeps the footprint when the footprint writes
its kind and frees every place of that kind in the namespace. -/
theorem copy_within (c : Copy) (sourceNs : Value) (request : View) :
    ⦃fun r => ⌜InFootprint F S R r ∧ (F.kinds (.str c.kind) ∧
      ∀ b : Address, b.ns.heldEquiv request.namespace = true → b.kind = .str c.kind →
        b.apiVersion = .str "v1" → F.free b)⌝⦄
    attempt (liftCluster (copyResource c sourceNs request))
    ⦃post⟨fun _ r => ⌜InFootprint F S R r⌝, fun _ r => ⌜InFootprint F S R r⌝⟩⦄ :=
  attempt_spec (triple_of_fact fun h => lift_within (copyResource_within c sourceNs request h.2 h.1))

/-- The binding information of a reconcile's session is the one its resource reads as. -/
theorem bindInfoOf_of_session {r : Reconciling} {B : BindInfo} (hr : InFootprint F S R r)
    (hB : bindInfoOf r.session.manifest = .ok B) : bindInfoOf R = .ok B :=
  hr.1 ▸ hB

set_option mvcgen.warning false in
theorem reconcileBindInfo_within (hS : S.WF) (hown : ∀ b, NamesResource R b → F.own b)
    (hkind : F.kinds (R.getD "kind")) (hfree : ∀ b, Event.FiledFor R b → F.free b)
    (hevent : F.kinds (.str "Event")) (hcopy : ∀ b, CopyTarget S R b → F.free b)
    (hcopyKinds : F.kinds (.str "Secret") ∧ F.kinds (.str "ConfigMap"))
    (hK : ∀ k, F.kinds k → (Value.str requestKind).heldEquiv k = false) :
    ⦃fun r => ⌜InFootprint F S R r⌝⦄ reconcileBindInfo
    ⦃post⟨fun _ r => ⌜InFootprint F S R r⌝, fun _ r => ⌜InFootprint F S R r⌝⟩⦄ := by
  have hreg := bindRegistry_within (S := S) hown hkind hfree hevent
  have hphase := setBindPhase_within (S := S) hown hkind
  have hrefs := lift_referentsOf (F := F) (S := S) (R := R)
  have hget := lift_getObject (F := F) (S := S) (R := R)
  have hcp := copy_within (F := F) (S := S) (R := R)
  have hev := recordEvent_within (S := S) hfree hevent
  have hset := setStatus_within (S := S) hown hkind
  mvcgen [reconcileBindInfo, ReconcileM.session, ReconcileM.check_eq, raiseGathered, hreg, hphase,
    hrefs, hget, hcp, hev, hset] invariants
  | inv1 => post⟨fun _ r => ⌜InFootprint F S R r⌝, fun _ r => ⌜InFootprint F S R r⌝⟩
  | inv2 => post⟨fun _ r => ⌜InFootprint F S R r⌝, fun _ r => ⌜InFootprint F S R r⌝⟩
  case vc5.step.pre =>
    -- a copy for a request fetched at a target of the sorted referents
    have hB := ‹bindInfoOf _ = Except.ok _›
    have hR := bindInfoOf_of_session ‹_› hB
    obtain ⟨hw₂, hget⟩ := ‹InFootprint F S R _ ∧ (_ = true → _)›
    obtain ⟨hok, hfound⟩ := Option.ite_none_right_eq_some.1 ‹(if _ then _ else none) = some _›
    rw [hfound] at hget
    obtain ⟨hw₁, hrefs⟩ := ‹InFootprint F S R _ ∧ freshReferents _ _ _ _ _ = _›
    have htarget := ‹(_ : List Referent) = _ ++ _ :: _›
    have hcopyAt := ‹(_ : List Copy) = _ ++ _ :: _›
    exact ⟨‹_›, copy_allowed hS hK hcopy hcopyKinds hR hw₁.2 hw₂.2 hrefs
      ‹sortReferents _ = _› (by rw [htarget]; simp) (hget hok) ‹_›
      ‹copiesFor _ _ = _› (by rw [hcopyAt]; simp)⟩
  all_goals first
    | exact ‹_›
    | exact And.left ‹_›

end BindInfoSteps

end Controllers

/-! ### A whole reconcile -/

namespace Reconcile

open Json Cluster Store Controllers Resource

section Keeps

variable {Q : Store → Prop}

set_option mvcgen.warning false in
/-- The default delay only reads the settings. -/
theorem defaultDelay_keeps :
    ⦃fun w => ⌜Q w.store⌝⦄ defaultDelay
    ⦃post⟨fun _ w => ⌜Q w.store⌝, fun _ w => ⌜Q w.store⌝⟩⦄ := by
  mvcgen [defaultDelay, ClusterM.setting, ClusterM.settings, ClusterM.check_eq]

set_option mvcgen.warning false in
/-- Setting up the backend leaves the store alone. -/
theorem setUpBackend_keeps :
    ⦃fun w => ⌜Q w.store⌝⦄ setUpBackend
    ⦃post⟨fun _ w => ⌜Q w.store⌝, fun _ w => ⌜Q w.store⌝⟩⦄ := by
  mvcgen [setUpBackend]

set_option mvcgen.warning false in
/-- Opening a session only reads, and the session is on the manifest it was opened on. -/
theorem Session.start_keeps (id : String) (manifest : Value) :
    ⦃fun w => ⌜Q w.store⌝⦄ Session.start id manifest
    ⦃post⟨fun s w => ⌜Q w.store ∧ s.manifest = manifest⌝, fun _ w => ⌜Q w.store⌝⟩⦄ := by
  have hg := getObject_keeps (Q := Q)
  mvcgen [Session.start, Session.readStatus, ClusterM.check_eq, hg]
  all_goals first
    | exact ⟨‹_›, rfl⟩
    | exact ‹_›
    | exact And.left ‹_›
    | exact ⟨And.left ‹_›, rfl⟩

end Keeps

section Run

variable {F : Footprint} {S : Store} {R : Value}

set_option mvcgen.warning false in
/-- A controller that holds no finalizer runs within a footprint when its reconcile and its
clean-up do: it neither adds nor removes a finalizer, and deciding whether to run again only
reads. -/
theorem runController_within {c : Controller} (hc : c.hasFinalizer = false)
    (hrec : ⦃fun r => ⌜InFootprint F S R r⌝⦄ c.reconcile
      ⦃post⟨fun _ r => ⌜InFootprint F S R r⌝, fun _ r => ⌜InFootprint F S R r⌝⟩⦄)
    (hfin : ⦃fun r => ⌜InFootprint F S R r⌝⦄ c.finalize
      ⦃post⟨fun _ r => ⌜InFootprint F S R r⌝, fun _ r => ⌜InFootprint F S R r⌝⟩⦄)
    (finalizing : Bool) :
    ⦃fun r => ⌜InFootprint F S R r⌝⦄ runController c finalizing
    ⦃post⟨fun _ r => ⌜InFootprint F S R r⌝, fun _ r => ⌜InFootprint F S R r⌝⟩⦄ := by
  have hreq := requeue_within (F := F) (S := S) (R := R) c
  have hdelay : ⦃fun r => ⌜InFootprint F S R r⌝⦄ liftCluster defaultDelay
      ⦃post⟨fun _ r => ⌜InFootprint F S R r⌝, fun _ r => ⌜InFootprint F S R r⌝⟩⦄ :=
    lift_within (defaultDelay_keeps (Q := Within F S))
  mvcgen [runController, ReconcileM.session, ReconcileM.check_eq, hc, hrec, hfin, hreq, hdelay]
  -- the branches that remove a finalizer are never taken
  all_goals exact absurd ‹(_ && false) = true› (by simp)

set_option mvcgen.warning false in
/-- A reconcile of a controller on the resource `R` writes within a footprint when the
controller, run in a session on `R`, does. -/
theorem reconcile_within {c : Controller} (finalizer : Option Value)
    (hrun : ∀ finalizing, ⦃fun r => ⌜InFootprint F S R r⌝⦄ runController c finalizing
      ⦃post⟨fun _ r => ⌜InFootprint F S R r⌝, fun _ r => ⌜InFootprint F S R r⌝⟩⦄) :
    ⦃fun w => ⌜Within F S w.store⌝⦄ reconcile (.known c) R finalizer
    ⦃post⟨fun _ w => ⌜Within F S w.store⌝, fun _ w => ⌜Within F S w.store⌝⟩⦄ := by
  have hstart := Session.start_keeps (Q := Within F S)
  have hdelay := defaultDelay_keeps (Q := Within F S)
  have hsetup := setUpBackend_keeps (Q := Within F S)
  mvcgen [reconcile, ClusterM.check_eq, hstart, hdelay, hsetup]
  -- the controller runs in a session opened on `R` itself
  all_goals
    obtain ⟨hw, hm⟩ := ‹Within F S _ ∧ (_ : Session).manifest = _›
    exact (state_of_run (s := ⟨_, _⟩) (hrun _) ⟨hm.trans (Eq.symm ‹R = _›), hw⟩ ‹_›).2

set_option mvcgen.warning false in
/-- A safe reconcile writes within a footprint when the reconcile does and the footprint frees
the Events of the resource's namespace, where the warning about a failure goes. -/
theorem safeReconcile_within {c : Controller} (finalizer : Option Value)
    (hrec : ⦃fun w => ⌜Within F S w.store⌝⦄ reconcile (.known c) R finalizer
      ⦃post⟨fun _ w => ⌜Within F S w.store⌝, fun _ w => ⌜Within F S w.store⌝⟩⦄)
    (hfree : ∀ b, Event.FiledFor R b → F.free b) (hevent : F.kinds (.str "Event")) :
    ⦃fun w => ⌜Within F S w.store⌝⦄ safeReconcile (.known c) R finalizer
    ⦃post⟨fun _ w => ⌜Within F S w.store⌝, fun _ w => ⌜Within F S w.store⌝⟩⦄ := by
  have hdelay := defaultDelay_keeps (Q := Within F S)
  have hsetup := setUpBackend_keeps (Q := Within F S)
  have hev : ∀ type (reason message : Value), ⦃fun w => ⌜Within F S w.store⌝⦄
      Event.record R type reason message
      ⦃post⟨fun _ w => ⌜Within F S w.store⌝, fun _ w => ⌜Within F S w.store⌝⟩⦄ :=
    Event.record_within hfree hevent
  mvcgen [safeReconcile, hrec, hdelay, hsetup, hev]

end Run

/-- Where an observing controller `c` reconciling the resource `R` may write, from the store
`S`: freely among the Events of `R`'s namespace and, for binding information, at the copy
targets of `S`; at `R`'s own address in its status only; and only objects of `R`'s kind, Events,
and for binding information Secrets and ConfigMaps. -/
def observerFootprint (c : Controller) (S : Store) (R : Value) : Footprint where
  free b := Event.FiledFor R b ∨ (c = .bindInfo ∧ CopyTarget S R b)
  own := NamesResource R
  kinds k := k = R.getD "kind" ∨ k = .str "Event" ∨
    (c = .bindInfo ∧ (k = .str "Secret" ∨ k = .str "ConfigMap"))

/-- The reconcile of an observing controller stays within its footprint. Binding information
reads the requests it shares with as the store lists them, so its resource must be no request
whose status it would write. -/
theorem observerReconcile_within {c : Controller} (hc : c ≠ .request) {S : Store} (hS : S.WF)
    {R : Value} (hR : c = .bindInfo → (Value.str requestKind).heldEquiv (R.getD "kind") = false) :
    ⦃fun r => ⌜InFootprint (observerFootprint c S R) S R r⌝⦄ c.reconcile
    ⦃post⟨fun _ r => ⌜InFootprint (observerFootprint c S R) S R r⌝,
      fun _ r => ⌜InFootprint (observerFootprint c S R) S R r⌝⟩⦄ := by
  have hown : ∀ b, NamesResource R b → (observerFootprint c S R).own b := fun _ h => h
  have hkind : (observerFootprint c S R).kinds (R.getD "kind") := .inl rfl
  have hfree : ∀ b, Event.FiledFor R b → (observerFootprint c S R).free b := fun _ h => .inl h
  have hevent : (observerFootprint c S R).kinds (.str "Event") := .inr (.inl rfl)
  cases c with
  | registry => exact reconcileRegistry_within hown hkind
  | config => exact reconcileConfig_within hown hkind hfree hevent
  | request => exact absurd rfl hc
  | bindInfo =>
    refine reconcileBindInfo_within hS hown hkind hfree hevent (fun b h => .inr ⟨rfl, h⟩)
      ⟨.inr (.inr ⟨rfl, .inl rfl⟩), .inr (.inr ⟨rfl, .inr rfl⟩)⟩ ?_
    -- the footprint names no request kind: the resource is none, and the others are other texts
    rintro k (rfl | rfl | ⟨-, rfl | rfl⟩)
    · exact hR rfl
    all_goals
      exact Bool.eq_false_iff.2 fun h => absurd (Value.heldEquiv_str_iff.1 h) (by simp [requestKind])

set_option mvcgen.warning false in
/-- A run of the registry, configuration or binding information controller through
`safeReconcile`, from any world whose store is well formed, leaves a store within
`observerFootprint`: every object but the resource and the Events of its namespace (and, for
binding information, the v1 Secrets and ConfigMaps of the namespaces of the requests it shares
with in the starting store) is as it was; the resource changes only in its status and resource
version; no object gains a finalizer and no new object has one; and an object leaves the store
only if it was already marked for deletion without finalizers. -/
theorem observers_write_within {c : Controller} (hc : c ≠ .request) {w : World}
    (hw : w.store.WF) (R : Value) (finalizer : Option Value)
    (hR : c = .bindInfo → (Value.str requestKind).heldEquiv (R.getD "kind") = false) :
    Within (observerFootprint c w.store R) w.store
      ((safeReconcile (.known c) R finalizer).run.run w).2.store := by
  have hc' : c.hasFinalizer = false := by cases c <;> simp_all [Controller.hasFinalizer]
  have hfin : ⦃fun r => ⌜InFootprint (observerFootprint c w.store R) w.store R r⌝⦄ c.finalize
      ⦃post⟨fun _ r => ⌜InFootprint (observerFootprint c w.store R) w.store R r⌝,
        fun _ r => ⌜InFootprint (observerFootprint c w.store R) w.store R r⌝⟩⦄ := by
    cases c <;> first | exact absurd rfl hc | mvcgen [Controller.finalize]
  have hrun := runController_within hc' (observerReconcile_within hc hw hR) hfin
  have hsafe := safeReconcile_within finalizer (reconcile_within finalizer hrun)
    (fun _ h => .inl h) (.inr (.inl rfl))
  exact state_of_run hsafe (Within.refl hw) rfl

/-- Binding information `bi` in `src` sharing the public secret `s1` of operand `etcd`. -/
def sharingBindInfo : Value :=
  .obj [("apiVersion", .str apiVersion), ("kind", .str "OperandBindInfo"),
    ("metadata", .obj [("name", .str "bi"), ("namespace", .str "src")]),
    ("spec", .obj [("bindings", .obj [("public", .obj [("secret", .str "s1")])]),
      ("operand", .str "etcd"), ("registry", .str "cs"), ("registryNamespace", .str "reg")])]

/-- The creates of a store where `etcd` is installed, `sharingBindInfo` and its secret `s1`
live in `src`, a request in `dst` asks for `etcd`, and the copy of `s1` in `dst` is marked for
deletion without finalizers. -/
def pendingCopyCalls : List Call :=
  let registry : Value := .obj [("apiVersion", .str apiVersion), ("kind", .str registryKind),
    ("metadata", .obj [("name", .str "cs"), ("namespace", .str "reg")]),
    ("spec", .obj [("operators", .arr [.obj [("channel", .str "alpha"), ("name", .str "etcd"),
      ("namespace", .str "etcd-operator"), ("packageName", .str "etcd"),
      ("scope", .str "public"), ("sourceName", .str "src"), ("sourceNamespace", .str "mkt")]])]),
    ("status", .obj [("operatorsStatus", .obj [("etcd", .obj [("phase", .str "Ready"),
      ("reconcileRequests", .arr [])])]), ("phase", .str "Ready")])]
  let source : Value := .obj [("apiVersion", .str "v1"), ("kind", .str "Secret"),
    ("metadata", .obj [("name", .str "s1"), ("namespace", .str "src")]),
    ("data", .obj [("k", .str "v")])]
  let request : Value := .obj [("apiVersion", .str apiVersion), ("kind", .str requestKind),
    ("metadata", .obj [("name", .str "r"), ("namespace", .str "dst")]),
    ("spec", .obj [("requests", .arr [.obj [("operands", .arr [.obj [("name", .str "etcd")]]),
      ("registry", .str "cs"), ("registryNamespace", .str "reg")]])])]
  let pending : Value := .obj [("apiVersion", .str "v1"), ("kind", .str "Secret"),
    ("metadata", .obj [("name", .str "s1"), ("namespace", .str "dst"),
      ("deletionTimestamp", .str "2024-01-01T00:00:00Z")]),
    ("data", .obj [("k", .str "old")])]
  let t := Stamp.ofSeconds 0
  [.create registry "1" t, .create sharingBindInfo "2" t, .create source "3" t,
    .create request "4" t, .create pending "5" t]

/-- The in-memory cluster that `pendingCopyCalls` build, without failures. -/
def pendingCopyCluster : World :=
  ⟨(Store.empty false).runCalls pendingCopyCalls, .none, 5, Stamp.ofSeconds 0,
    Config.Settings.initial, some .memory⟩

theorem pendingCopyCluster_wf : pendingCopyCluster.store.WF := by
  simp only [pendingCopyCluster]
  exact (sound_runCalls (sound_empty false) pendingCopyCalls).wf

/-- The binding information run on `pendingCopyCluster` stays within its footprint. -/
theorem sharing_run_within_footprint :
    Controller.bindInfo ≠ .request ∧ pendingCopyCluster.store.WF ∧
      (Value.str requestKind).heldEquiv (sharingBindInfo.getD "kind") = false ∧
      Within (observerFootprint .bindInfo pendingCopyCluster.store sharingBindInfo)
        pendingCopyCluster.store
        ((safeReconcile (.known .bindInfo) sharingBindInfo none).run.run pendingCopyCluster).2.store := by
  refine ⟨by decide, pendingCopyCluster_wf, by decide, ?_⟩
  exact observers_write_within (w := pendingCopyCluster) (by decide) pendingCopyCluster_wf
    sharingBindInfo none (fun _ => by decide)

/-- Binding information brings the copy of its secret up to date in the namespace of the
request it shares with; the copy there was marked for deletion without finalizers, and the
update removes it: a run of the controller takes an object out of the store. -/
theorem bindInfo_update_removes_pending_copy :
    let copy : Address := ⟨.str "dst", .str "Secret", .str "v1", .str "s1"⟩
    (pendingCopyCluster.store.objectAt copy).isSome &&
      (((safeReconcile (.known .bindInfo) sharingBindInfo none).run.run
        pendingCopyCluster).2.store.objectAt copy).isNone = true := by
  decide +kernel

end Reconcile

end OperandLifecycle

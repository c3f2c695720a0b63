import OperandLifecycle.Proofs.ObserverFootprint
import OperandLifecycle.Proofs.Selection
/-!
# The steps of a request reconcile

A request reconcile (`RequestM`) is a reconcile with a cache of the registries and
configurations it fetched. The specs here let `mvcgen` follow one through a plain world with
fixed settings (`PlainWith`), carrying a fact about the world's store and one about the cache:

* a read of the cluster changes nothing and answers what the store answers (`read_spec`,
  `readsAs_spec`, `lift_read`; the installation lookups read so in a plain world,
  `readsAs_installationOfOperator`);
* a write is one call of the store on the world's store (`plainWith_create`,
  `plainWith_update`, `plainWith_setStatus`, `plainWith_deleteAll`), and posting an event stays
  within the Events (`plainWith_record`, `recordEvent_spec`);
* a step of the reconcile keeps what its spec keeps and leaves the cache alone
  (`liftReconcile_spec`, `lift_spec`), and an item tried keeps what the item keeps
  (`tryItem_spec`);
* a cached lookup answers what the store held when the cache was filled, as long as the store
  shows that kind alike (`cachedView_spec`).
-/

open Std.Do

namespace OperandLifecycle

/-- Two specs of one program from one state give the spec of both facts. -/
theorem triple_and {σ ε α : Type} {x : ExceptT ε (StateM σ) α} {P₁ P₂ : σ → Prop}
    {Q₁ Q₂ : α → σ → Prop} {E₁ E₂ : ε → σ → Prop}
    (h₁ : ⦃fun s => ⌜P₁ s⌝⦄ x ⦃post⟨fun a s => ⌜Q₁ a s⌝, fun e s => ⌜E₁ e s⌝⟩⦄)
    (h₂ : ⦃fun s => ⌜P₂ s⌝⦄ x ⦃post⟨fun a s => ⌜Q₂ a s⌝, fun e s => ⌜E₂ e s⌝⟩⦄) :
    ⦃fun s => ⌜P₁ s ∧ P₂ s⌝⦄ x
    ⦃post⟨fun a s => ⌜Q₁ a s ∧ Q₂ a s⌝, fun e s => ⌜E₁ e s ∧ E₂ e s⌝⟩⦄ := by
  rw [triple_iff_run]
  rintro s ⟨hp₁, hp₂⟩
  have r₁ := (triple_iff_run _ _ _).1 h₁ s hp₁
  have r₂ := (triple_iff_run _ _ _).1 h₂ s hp₂
  rcases hx : x.run.run s with ⟨e | a, s'⟩ <;> rw [hx] at r₁ r₂ <;> exact ⟨r₁, r₂⟩

/-- A program that keeps a fact of the state in the state every run ends in keeps it. -/
theorem triple_of_state {σ ε α : Type} {x : ExceptT ε (StateM σ) α} {P Q : σ → Prop}
    (h : ∀ s, P s → Q (x.run.run s).2) :
    ⦃fun s => ⌜P s⌝⦄ x ⦃post⟨fun _ s => ⌜Q s⌝, fun _ s => ⌜Q s⌝⟩⦄ := by
  rw [triple_iff_run]
  intro s hs
  have hq := h s hs
  rcases hx : x.run.run s with ⟨e | a, s'⟩ <;> rw [hx] at hq <;> exact hq

namespace Cluster

open Json Store

set_option mvcgen.warning false

variable {α : Type}

/-! ### Plain worlds with fixed settings -/

/-- A plain world with the settings `σ`, whose store satisfies `Q`. -/
structure PlainWith (σ : Config.Settings) (Q : Store → Prop) (w : World) : Prop where
  plain : w.Plain
  settings : w.settings = σ
  store : Q w.store

section PlainWith

variable {σ : Config.Settings} {Q : Store → Prop}

/-- A world that changed only its store and its count of creates stays plain. -/
theorem PlainWith.with_store {w : World} (h : PlainWith σ Q w) {s : Store} (hs : Q s) (n : Nat) :
    PlainWith σ Q { w with store := s, created := n } :=
  ⟨⟨h.plain.faults, h.plain.backend⟩, h.settings, hs⟩

/-- The namespace of operators installed cluster-wide is the one the settings give. -/
theorem PlainWith.shared {w : World} (h : PlainWith σ Q w) :
    Catalog.sharedNamespace w = σ.get "cluster_operator_namespace" := by
  rw [Catalog.sharedNamespace, h.settings]

/-- A program that, in every plain world, changes nothing keeps every fact of plain worlds, and
answers what `A` allows. -/
theorem read_spec {m : ClusterM α} {P : World → Prop} {A : α → World → Prop}
    (hP : ∀ w, P w → w.Plain)
    (h : ∀ w, w.Plain → (m.run.run w).2 = w ∧ ∀ a, (m.run.run w).1 = .ok a → A a w) :
    ⦃fun w => ⌜P w⌝⦄ m ⦃post⟨fun a w => ⌜P w ∧ A a w⌝, fun _ w => ⌜P w⌝⟩⦄ := by
  rw [triple_iff_run]
  intro w hw
  obtain ⟨hstay, hans⟩ := h w (hP w hw)
  rcases hx : m.run.run w with ⟨e | a, w'⟩ <;> rw [hx] at hstay hans <;> cases hstay
  · exact hw
  · exact ⟨hw, hans a rfl⟩

/-- A read that reads as a computation on the store answers what it answers. -/
theorem ReadsAs.stays {m : ClusterM α} {β : Type} {R : α → β → Prop} {r : World → Except Failure β}
    (h : ∀ w, w.Plain → ReadsAs R m (r w) w) (w : World) (hw : w.Plain) :
    (m.run.run w).2 = w ∧ ∀ a, (m.run.run w).1 = .ok a → ∃ b, r w = .ok b ∧ R a b := by
  refine ⟨(h w hw).world, fun a ha => ?_⟩
  have hag := (h w hw).answer
  rw [ha] at hag
  cases hr : r w with
  | error e => rw [hr] at hag; exact hag.elim
  | ok b => rw [hr] at hag; exact ⟨b, rfl, hag⟩

/-- A read that reads as a computation on the store keeps every fact of plain worlds and
answers what the computation answers. -/
theorem readsAs_spec {m : ClusterM α} {β : Type} {R : α → β → Prop} {r : World → Except Failure β}
    {P : World → Prop} (hP : ∀ w, P w → w.Plain) (h : ∀ w, w.Plain → ReadsAs R m (r w) w) :
    ⦃fun w => ⌜P w⌝⦄ m ⦃post⟨fun a w => ⌜P w ∧ ∃ b, r w = .ok b ∧ R a b⌝, fun _ w => ⌜P w⌝⟩⦄ :=
  read_spec hP (ReadsAs.stays h)

/-- A lookup answers that it went through, with what the store holds. -/
theorem getObject_spec {P : World → Prop} (hP : ∀ w, P w → w.Plain) (k n ns v : Value) :
    ⦃fun w => ⌜P w⌝⦄ getObject k n ns v
    ⦃post⟨fun p w => ⌜P w ∧ p.1 = true ∧ w.store.get k n ns v = .ok p.2⌝,
      fun _ w => ⌜P w⌝⟩⦄ :=
  read_spec hP fun w hw => by
    rw [run_getObject hw]
    refine ⟨rfl, fun p hp => ?_⟩
    cases hg : w.store.get k n ns v with
    | error e => simp [hg, Except.map] at hp
    | ok o =>
      simp only [hg, Except.map, Except.ok.injEq] at hp
      subst hp
      exact ⟨rfl, rfl⟩

/-- A listing answers that it went through, with what the store lists. -/
theorem listObjects_spec {P : World → Prop} (hP : ∀ w, P w → w.Plain) (k ns v l f : Value) :
    ⦃fun w => ⌜P w⌝⦄ listObjects k ns v l f
    ⦃post⟨fun p w => ⌜P w ∧ p.1 = true ∧ w.store.list k ns v l f = .ok p.2⌝,
      fun _ w => ⌜P w⌝⟩⦄ :=
  read_spec hP fun w hw => by
    rw [run_listObjects hw]
    refine ⟨rfl, fun p hp => ?_⟩
    cases hg : w.store.list k ns v l f with
    | error e => simp [hg, Except.map] at hp
    | ok os =>
      simp only [hg, Except.map, Except.ok.injEq] at hp
      subst hp
      exact ⟨rfl, rfl⟩

theorem now_spec {P : World → Prop} (hP : ∀ w, P w → w.Plain) :
    ⦃fun w => ⌜P w⌝⦄ ClusterM.now ⦃post⟨fun t w => ⌜P w ∧ t = w.now⌝, fun _ w => ⌜P w⌝⟩⦄ :=
  read_spec hP fun w _ => ⟨rfl, fun t ht => by cases ht; rfl⟩

theorem plainWith_create (res : Value) :
    ⦃fun w => ⌜PlainWith σ Q w ∧ ∀ uid now, Q ((Call.create res uid now).after w.store)⌝⦄ create res
    ⦃post⟨fun _ w => ⌜PlainWith σ Q w⌝, fun _ w => ⌜PlainWith σ Q w⌝⟩⦄ := by
  refine triple_of_state fun w ⟨hw, hq⟩ => ?_
  obtain ⟨n, hrun⟩ := run_create hw.plain res
  rw [hrun]
  exact hw.with_store (hq _ _) n

theorem plainWith_update (res : Value) :
    ⦃fun w => ⌜PlainWith σ Q w ∧ Q ((Call.update res).after w.store)⌝⦄ update res
    ⦃post⟨fun _ w => ⌜PlainWith σ Q w⌝, fun _ w => ⌜PlainWith σ Q w⌝⟩⦄ := by
  refine triple_of_state fun w ⟨hw, hq⟩ => ?_
  rw [run_update hw.plain]
  exact hw.with_store hq w.created

theorem plainWith_setStatus (kind name ns status v : Value) :
    ⦃fun w => ⌜PlainWith σ Q w ∧ Q ((Call.setStatus kind name ns status v).after w.store)⌝⦄
    setStatus kind name ns status v
    ⦃post⟨fun _ w => ⌜PlainWith σ Q w⌝, fun _ w => ⌜PlainWith σ Q w⌝⟩⦄ := by
  refine triple_of_state fun w ⟨hw, hq⟩ => ?_
  rw [run_setStatus hw.plain]
  exact hw.with_store hq w.created

/-- A deletion by selectors deletes what the store lists, each where it is looked for. -/
theorem plainWith_deleteAll (kind ns v l f : Value) :
    ⦃fun w => ⌜PlainWith σ Q w ∧ ∀ listed, w.store.list kind ns v l f = .ok listed →
      Q ((Store.deleteListed kind listed w.now).run.run w.store).2⌝⦄
    deleteAll kind ns v l f
    ⦃post⟨fun _ w => ⌜PlainWith σ Q w⌝, fun _ w => ⌜PlainWith σ Q w⌝⟩⦄ := by
  refine triple_of_state fun w ⟨hw, hq⟩ => ?_
  rw [run_deleteAll hw.plain]
  cases hl : w.store.list kind ns v l f with
  | error e => exact hw
  | ok listed => exact hw.with_store (hq listed hl) w.created

/-- Where posting events writes: at Events only. -/
def eventFootprint : Footprint where
  free b := b.kind = .str "Event"
  own _ := False
  kinds k := k = .str "Event"

/-- Posting an event keeps every fact of stores that writes within the Events keep. -/
theorem plainWith_record (hQ : ∀ s s', Q s → Within eventFootprint s s' → Q s')
    (hwf : ∀ s, Q s → s.WF) (owner : Value) (type : Event.EventType) (reason message : Value) :
    ⦃fun w => ⌜PlainWith σ Q w⌝⦄ Event.record owner type reason message
    ⦃post⟨fun _ w => ⌜PlainWith σ Q w⌝, fun _ w => ⌜PlainWith σ Q w⌝⟩⦄ := by
  -- the world stays plain with its settings, and the store stays within the Events
  have hplain : ⦃fun w => ⌜PlainWith σ (fun _ => True) w⌝⦄ Event.record owner type reason message
      ⦃post⟨fun _ w => ⌜PlainWith σ (fun _ => True) w⌝, fun _ w => ⌜PlainWith σ (fun _ => True) w⌝⟩⦄ := by
    have hc := plainWith_create (σ := σ) (Q := fun _ => True)
    have hu := plainWith_update (σ := σ) (Q := fun _ => True)
    have hg := getObject_spec (P := PlainWith σ (fun _ => True)) (fun _ h => h.plain)
    have hn := now_spec (P := PlainWith σ (fun _ => True)) (fun _ h => h.plain)
    mvcgen [Event.record, Event.bump, ClusterM.check_eq, ClusterM.setting, ClusterM.settings, hc,
      hu, hg, hn]
    all_goals simp_all
  rw [triple_iff_run]
  intro w hw
  have h₁ := (triple_iff_run _ _ _).1 hplain w ⟨hw.plain, hw.settings, trivial⟩
  have hwithin : ⦃fun w' => ⌜Within eventFootprint w.store w'.store⌝⦄
      Event.record owner type reason message
      ⦃post⟨fun _ w' => ⌜Within eventFootprint w.store w'.store⌝,
        fun _ w' => ⌜Within eventFootprint w.store w'.store⌝⟩⦄ :=
    Event.record_within (fun _ hb => hb.1) rfl type reason message
  have h₂ := (triple_iff_run _ _ _).1 hwithin w (Within.refl (hwf _ hw.store))
  rcases hx : (Event.record owner type reason message).run.run w with ⟨e | a, w'⟩ <;>
    rw [hx] at h₁ h₂ <;> exact ⟨h₁.plain, h₁.settings, hQ _ _ hw.store h₂⟩

end PlainWith

end Cluster

namespace Catalog

open Json Cluster Resource

/-! ### Installation lookups in a plain world -/

section Plain

variable {w : World}

theorem readsAs_subscriptionOf (hw : w.Plain) (op : Operator) :
    ReadsAs Eq (subscriptionOf op) (subscriptionIn w.store (sharedNamespace w) op) w := by
  unfold subscriptionOf subscriptionIn
  refine ReadsAs.bind_pure (g := fun ns => distinctKeys [op.name, op.packageName] >>=
    fun names => subscriptionAmong w.store ns names) (readsAs_installNamespace op) ?_
  rintro ns rfl
  refine ReadsAs.bind (ReadsAs.check _) ?_
  rintro names _ - rfl
  -- the loop stops at the first name that is given and found
  induction names with
  | nil => exact ReadsAs.pure' rfl
  | cons name rest ih =>
    rw [List.forIn_cons, bind_assoc]
    by_cases hn : name.truthy = true
    swap
    · simp only [hn, Bool.not_false, if_true, pure_bind, subscriptionAmong]
      exact ih
    simp only [hn, Bool.not_true, Bool.false_eq_true, if_false, bind_assoc, subscriptionAmong]
    refine ReadsAs.bind (readsAs_getObject hw _ _ _ _) ?_
    rintro _ found - rfl
    simp only [Bool.not_true, Bool.false_eq_true, if_false]
    cases found with
    | none => simpa using ih
    | some sub =>
      simp only [bind_assoc, pure_bind]
      exact ReadsAs.bind (ReadsAs.check _) (fun _ _ _ _ => ReadsAs.pure' rfl)

theorem readsAs_installationOf (hw : w.Plain) (subscription : Value) :
    ReadsAs Eq (installationOf subscription) (installationIn w.store subscription) w := by
  unfold installationOf installationIn
  refine ReadsAs.bind (ReadsAs.check _) ?_
  rintro status _ - rfl
  refine ReadsAs.bind (ReadsAs.check _) ?_
  rintro installed _ - rfl
  -- the installation is named by the installed version, else by the current one
  by_cases hi : installed.truthy = true <;>
    simp only [hi, if_true, Bool.false_eq_true, if_false] <;>
    refine ReadsAs.bind (by first | exact ReadsAs.pure' rfl | exact ReadsAs.check _) ?_ <;>
    rintro csvName _ - rfl <;>
    refine ReadsAs.bind (ReadsAs.check _) ?_ <;>
    rintro md _ - rfl <;>
    refine ReadsAs.bind (ReadsAs.check _) ?_ <;>
    rintro ns _ - rfl <;>
    by_cases hc : csvName.truthy = true <;>
    simp only [hc, Bool.not_true, Bool.not_false, Bool.false_eq_true, if_true, if_false]
  all_goals first
    | exact ReadsAs.bind (ReadsAs.check _) (fun _ _ _ _ => ReadsAs.pure' rfl)
    | rw [← bind_pure (w.store.get _ _ _ _)]
      refine ReadsAs.bind (readsAs_getObject hw _ _ _ _) ?_
      rintro _ csv - rfl
      exact ReadsAs.pure' rfl

theorem readsAs_installationOfOperator (hw : w.Plain) (op : Operator) :
    ReadsAs Eq (installationOfOperator op) (installationOfIn w.store (sharedNamespace w) op) w := by
  unfold installationOfOperator installationOfIn
  refine ReadsAs.bind (readsAs_subscriptionOf hw op) ?_
  rintro sub _ - rfl
  cases sub with
  | none => exact ReadsAs.pure' rfl
  | some sub =>
    exact ReadsAs.bind (readsAs_installationOf hw sub) (fun _ _ _ h => ReadsAs.pure' (by rw [h]))

end Plain

end Catalog

namespace Controllers

open Json Cluster Store Reconcile Resource Catalog

set_option mvcgen.warning false

variable {α : Type}

/-! ### Steps inside a request reconcile -/

theorem run_liftReconcile (m : ReconcileM α) (r : Reconciling) (c : ResourceCache) :
    (MonadLift.monadLift m : RequestM α).run.run (r, c) = ((m.run.run r).1, ((m.run.run r).2, c)) :=
  rfl

theorem run_liftCluster_request (m : ClusterM α) (r : Reconciling) (c : ResourceCache) :
    (MonadLift.monadLift (MonadLift.monadLift m : ReconcileM α) : RequestM α).run.run (r, c) =
      ((m.run.run r.world).1, ({ r with world := (m.run.run r.world).2 }, c)) := rfl

theorem RequestM.check_eq (r : Except Failure α) :
    RequestM.check r = match r with | .ok a => pure a | .error e => throw e := by
  cases r <;> rfl

/-- A reconcile step keeps, inside a request reconcile, what its spec keeps of the reconcile,
and leaves the cache alone. -/
theorem liftReconcile_spec {m : ReconcileM α} {P : Reconciling → Prop} {Q : α → Reconciling → Prop}
    {E : Failure → Reconciling → Prop}
    (h : ⦃fun r => ⌜P r⌝⦄ m ⦃post⟨fun a r => ⌜Q a r⌝, fun e r => ⌜E e r⌝⟩⦄)
    (C : ResourceCache → Prop) :
    ⦃fun st => ⌜P st.1 ∧ C st.2⌝⦄ (MonadLift.monadLift m : RequestM α)
    ⦃post⟨fun a st => ⌜Q a st.1 ∧ C st.2⌝, fun e st => ⌜E e st.1 ∧ C st.2⌝⟩⦄ := by
  rw [triple_iff_run]
  rintro ⟨r, c⟩ ⟨hP, hC⟩
  have h' := (triple_iff_run _ _ _).1 h r hP
  rw [run_liftReconcile]
  rcases hm : m.run.run r with ⟨e | a, r'⟩ <;> rw [hm] at h' <;> exact ⟨h', hC⟩

/-- A cluster program keeps, inside a request reconcile, what its spec keeps of the world, and
leaves the session and the cache alone. -/
theorem lift_spec {m : ClusterM α} {P : World → Prop} {Q : α → World → Prop}
    {E : Failure → World → Prop}
    (h : ⦃fun w => ⌜P w⌝⦄ m ⦃post⟨fun a w => ⌜Q a w⌝, fun e w => ⌜E e w⌝⟩⦄)
    (C : ResourceCache → Prop) :
    ⦃fun st => ⌜P st.1.world ∧ C st.2⌝⦄
    (MonadLift.monadLift (MonadLift.monadLift m : ReconcileM α) : RequestM α)
    ⦃post⟨fun a st => ⌜Q a st.1.world ∧ C st.2⌝, fun e st => ⌜E e st.1.world ∧ C st.2⌝⟩⦄ := by
  rw [triple_iff_run]
  rintro ⟨r, c⟩ ⟨hP, hC⟩
  have h' := (triple_iff_run _ _ _).1 h r.world hP
  rw [run_liftCluster_request]
  rcases hm : m.run.run r.world with ⟨e | a, w'⟩ <;> rw [hm] at h' <;> exact ⟨h', hC⟩

/-- A read lifted into a request reconcile keeps every fact of plain worlds and of the cache,
and answers what the computation it reads as answers. -/
theorem lift_read {m : ClusterM α} {β : Type} {R : α → β → Prop} {r : World → Except Failure β}
    {P : World → Prop} (hP : ∀ w, P w → w.Plain) (h : ∀ w, w.Plain → ReadsAs R m (r w) w)
    (C : ResourceCache → Prop) :
    ⦃fun st => ⌜P st.1.world ∧ C st.2⌝⦄
    (MonadLift.monadLift (MonadLift.monadLift m : ReconcileM α) : RequestM α)
    ⦃post⟨fun a st => ⌜(P st.1.world ∧ ∃ b, r st.1.world = .ok b ∧ R a b) ∧ C st.2⌝,
      fun _ st => ⌜P st.1.world ∧ C st.2⌝⟩⦄ :=
  lift_spec (readsAs_spec hP h) C

theorem run_raiseGathered (errors : List Failure) (st : Reconciling × ResourceCache) :
    ((liftReconcile (raiseGathered errors)).run.run st).2 = st := by
  unfold raiseGathered
  split <;> rfl

/-- Raising the gathered failures changes nothing. -/
theorem raiseGathered_spec (errors : List Failure) {P : Reconciling × ResourceCache → Prop} :
    ⦃fun st => ⌜P st⌝⦄ liftReconcile (raiseGathered errors)
    ⦃post⟨fun _ st => ⌜P st⌝, fun _ st => ⌜P st⌝⟩⦄ :=
  triple_of_state fun st h => by rw [run_raiseGathered]; exact h

section PlainWith

variable {σ : Config.Settings} {Q : Store → Prop}

/-- Posting an event from a request reconcile keeps every fact of stores that writes within
the Events keep, and leaves the cache alone. -/
theorem recordEvent_spec (hQ : ∀ s s', Q s → Within eventFootprint s s' → Q s')
    (hwf : ∀ s, Q s → s.WF) (type : Event.EventType) (reason message : String)
    (C : ResourceCache → Prop) :
    ⦃fun st => ⌜PlainWith σ Q st.1.world ∧ C st.2⌝⦄
    (MonadLift.monadLift (ReconcileM.recordEvent type reason message) : RequestM Bool)
    ⦃post⟨fun _ st => ⌜PlainWith σ Q st.1.world ∧ C st.2⌝,
      fun _ st => ⌜PlainWith σ Q st.1.world ∧ C st.2⌝⟩⦄ := by
  have hrec : ∀ owner t (a b : Value),
      ⦃fun r => ⌜True ∧ PlainWith σ Q r.world⌝⦄
      (MonadLift.monadLift (Event.record owner t a b) : ReconcileM Bool)
      ⦃post⟨fun _ r => ⌜True ∧ PlainWith σ Q r.world⌝, fun _ r => ⌜True ∧ PlainWith σ Q r.world⌝⟩⦄ :=
    fun owner t a b => liftCluster_spec (plainWith_record hQ hwf owner t a b) (fun _ => True)
  have h : ⦃fun r => ⌜PlainWith σ Q r.world⌝⦄ ReconcileM.recordEvent type reason message
      ⦃post⟨fun _ r => ⌜PlainWith σ Q r.world⌝, fun _ r => ⌜PlainWith σ Q r.world⌝⟩⦄ := by
    mvcgen [ReconcileM.recordEvent, ReconcileM.session, hrec]
    all_goals simp_all
  exact liftReconcile_spec h C

/-- The time read from a request reconcile. -/
theorem now_request_spec {P : World → Prop} (hP : ∀ w, P w → w.Plain) (C : ResourceCache → Prop) :
    ⦃fun st => ⌜P st.1.world ∧ C st.2⌝⦄
    (MonadLift.monadLift (MonadLift.monadLift ClusterM.now : ReconcileM Stamp) : RequestM Stamp)
    ⦃post⟨fun _ st => ⌜P st.1.world ∧ C st.2⌝, fun _ st => ⌜P st.1.world ∧ C st.2⌝⟩⦄ :=
  triple_weaken (lift_spec (now_spec hP) C) (fun _ _ h => ⟨h.1.1, h.2⟩) (fun _ _ h => h)

end PlainWith

/-- An item tried keeps what the item keeps, whether it answers or fails. -/
theorem tryItem_spec {m : RequestM α} {P Q : Reconciling × ResourceCache → Prop}
    (h : ⦃fun st => ⌜P st⌝⦄ m ⦃post⟨fun _ st => ⌜Q st⌝, fun _ st => ⌜Q st⌝⟩⦄) :
    ⦃fun st => ⌜P st⌝⦄ tryItem m ⦃post⟨fun _ st => ⌜Q st⌝, fun _ st => ⌜Q st⌝⟩⦄ := by
  mvcgen [tryItem, h]
  all_goals first
    | exact ‹Q _›
    | (split <;> simp_all)


/-! ### Cached lookups -/

/-- The object of a kind, namespace and name as the store holds it, as a view; `none` when
there is none. -/
def viewAt (s : Store) (kind : String) (ns name : Value) : Except Failure (Option View) := do
  if !ns.hashable then throw (unhashable ns)
  if !name.hashable then throw (unhashable name)
  registryOf (← s.get (.str kind) name ns (.str apiVersion))

theorem registryAt_eq_viewAt (s : Store) (ns name : Value) :
    registryAt s ns name = viewAt s registryKind ns name := rfl

theorem viewAt_congr (s : Store) (kind : String) {ns ns' name name' : Value}
    (hns : ns.hashable = true) (hname : name.hashable = true) (h : ns.equiv ns' = true)
    (h' : name.equiv name' = true) : viewAt s kind ns name = viewAt s kind ns' name' := by
  have hns' := Value.hashable_of_equiv hns h
  have hname' := Value.hashable_of_equiv hname h'
  simp [viewAt, hns, hns', hname, hname', Store.get_congr s _ _ hname hns h' h]

theorem hashable_of_viewAt {s : Store} {kind : String} {ns name : Value} {v : Option View}
    (h : viewAt s kind ns name = .ok v) : ns.hashable = true ∧ name.hashable = true := by
  by_cases hns : ns.hashable = true <;> by_cases hname : name.hashable = true <;>
    simp_all [viewAt]

theorem viewAt_eq_of_sameKind {s s' : Store} {kind : String} (h : SameKind (.str kind) s s')
    (ns name : Value) : viewAt s kind ns name = viewAt s' kind ns name := by
  simp only [viewAt, get_eq_of_sameKind h]

/-- Every entry of the cache holds what the store `s` holds under its key. -/
def CacheHolds (s : Store) (c : ResourceCache) : Prop :=
  ∀ p ∈ c.fetched, viewAt s p.1.1 p.1.2.1 p.1.2.2 = .ok p.2

theorem cacheHolds_empty (s : Store) : CacheHolds s ⟨[]⟩ := fun _ h => nomatch h

theorem CacheHolds.append {s : Store} {c : ResourceCache} (hc : CacheHolds s c) {kind : String}
    {ns name : Value} {v : Option View} (h : viewAt s kind ns name = .ok v) :
    CacheHolds s ⟨c.fetched ++ [((kind, ns, name), v)]⟩ := by
  intro p hp
  rcases List.mem_append.1 hp with hp | hp
  · exact hc p hp
  · rw [List.mem_singleton.1 hp]
    exact h

/-- An entry the cache finds under an equal key holds what the store holds under the key. -/
theorem CacheHolds.find {s : Store} {c : ResourceCache} (hc : CacheHolds s c) {kind : String}
    {ns name : Value} {p : (String × Value × Value) × Option View}
    (hp : c.fetched.find? (fun p => p.1.1 == kind && p.1.2.1.equiv ns && p.1.2.2.equiv name) =
      some p) : viewAt s kind ns name = .ok p.2 := by
  have hkey := List.find?_some hp
  simp only [Bool.and_eq_true, beq_iff_eq] at hkey
  obtain ⟨⟨hk, hns⟩, hname⟩ := hkey
  have hok := hc p (List.mem_of_find?_eq_some hp)
  obtain ⟨hnsh, hnameh⟩ := hashable_of_viewAt hok
  rw [← hk, ← viewAt_congr s _ hnsh hnameh hns hname, hok]

/-- What a fetch of an object not cached answers is what the store `s₀` holds under its key,
when the store shows the kind as `s₀` does. -/
theorem viewAt_of_fetched {s₀ s : Store} {kind : String} {ns name : Value}
    (hsame : SameKind (.str kind) s₀ s) (hns : ¬(!ns.hashable) = true)
    (hname : ¬(!name.hashable) = true) {found : Option Value}
    (hget : s.get (.str kind) name ns (.str apiVersion) = .ok found) :
    viewAt s₀ kind ns name = registryOf found := by
  rw [viewAt_eq_of_sameKind hsame]
  simp_all [viewAt]

/-- A cached lookup answers what the store `s₀` holds, and leaves the cache holding it, as long
as the store shows the kind as `s₀` does. -/
theorem cachedView_spec {s₀ : Store} {P : World → Prop} {kind : String}
    (hP : ∀ w, P w → w.Plain ∧ SameKind (.str kind) s₀ w.store) (name ns : Value) :
    ⦃fun st => ⌜P st.1.world ∧ CacheHolds s₀ st.2⌝⦄ cachedView kind name ns
    ⦃post⟨fun v st => ⌜(P st.1.world ∧ CacheHolds s₀ st.2) ∧ viewAt s₀ kind ns name = .ok v⌝,
      fun _ st => ⌜P st.1.world ∧ CacheHolds s₀ st.2⌝⟩⦄ := by
  have hget := fun k n ns v => lift_spec (getObject_spec (fun w h => (hP w h).1) k n ns v)
    (CacheHolds s₀)
  mvcgen [cachedView, RequestM.check_eq, hget]
  -- a hit answers the entry found; a fetch answers the view of what the store holds
  case vc3 =>
    obtain ⟨hPw, hc⟩ := ‹P _ ∧ CacheHolds s₀ _›
    exact ⟨⟨hPw, hc⟩, hc.find ‹_›⟩
  case vc6 =>
    obtain ⟨⟨hPw, -, hfound⟩, hc⟩ := ‹(P _ ∧ _ ∧ _) ∧ CacheHolds s₀ _›
    have hv := viewAt_of_fetched (hP _ hPw).2 ‹¬(!ns.hashable) = true› ‹¬(!name.hashable) = true›
      hfound
    simp only [‹(_ : Bool × Option Value).2 = some _›, registryOf, ‹(_ : Value).truthy = true›,
      if_true, ‹View.ofManifest _ = .ok _›, except_map_ok] at hv
    exact ⟨⟨hPw, hc.append hv⟩, hv⟩
  case vc8 | vc9 =>
    obtain ⟨⟨hPw, -, hfound⟩, hc⟩ := ‹(P _ ∧ _ ∧ _) ∧ CacheHolds s₀ _›
    have hv := viewAt_of_fetched (hP _ hPw).2 ‹¬(!ns.hashable) = true› ‹¬(!name.hashable) = true›
      hfound
    refine ⟨⟨hPw, hc.append ?_⟩, ?_⟩ <;> simp_all [registryOf]
  all_goals exact ⟨(‹(P _ ∧ _) ∧ CacheHolds s₀ _›).1.1, (‹(P _ ∧ _) ∧ CacheHolds s₀ _›).2⟩

/-- A cached lookup keeps every fact of plain worlds. -/
theorem cachedView_keeps {P : World → Prop} (hP : ∀ w, P w → w.Plain) (C : ResourceCache → Prop)
    (kind : String) (name ns : Value) :
    ⦃fun st => ⌜P st.1.world ∧ C st.2⌝⦄ cachedView kind name ns
    ⦃post⟨fun _ st => ⌜P st.1.world⌝, fun _ st => ⌜P st.1.world⌝⟩⦄ := by
  have hget := fun k n ns v => lift_spec (getObject_spec hP k n ns v) (fun _ => True)
  mvcgen [cachedView, RequestM.check_eq, hget]
  all_goals first
    | exact id
    | exact ‹P _ ∧ _›.1

end Controllers

end OperandLifecycle

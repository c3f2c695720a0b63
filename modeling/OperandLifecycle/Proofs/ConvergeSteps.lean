import OperandLifecycle.Proofs.RemovalSteps
/-!
# The convergence phase of a request run

After the removal phase, a reconcile of a request converges its operands, publishes their
members and writes its status. In a plain world none of these steps removes an object or
changes its life: every step is `Keeping`, it leaves the store well formed and every object of
it later in its life (the same uid, deletion mark and finalizers), unless the object was
pending. So every fact of stores that such steps keep (`Lasting`) holds through the whole
phase.

* `keeping_create`, `keeping_setStatus`, `keeping_update_found` — the store calls the phase
  makes are `Keeping`; an update is, because it writes back the object a lookup found with only
  its spec and labels changed (`respec_parts`).
* `Converging σ Q` — the state of the phase, a plain world whose store satisfies `Q`; each
  function of the phase has a spec under it, from `applyResource_spec` up to
  `convergeOperands_spec`, `publishMembers_converging` and `setStatus_converging`.
-/

open Std.Do

namespace OperandLifecycle

/-- A spec follows from one with a weaker precondition and stronger outcomes. -/
theorem triple_conseq {σ ε α : Type} {x : ExceptT ε (StateM σ) α} {P P' : σ → Prop}
    {Q Q' : α → σ → Prop} {E E' : ε → σ → Prop}
    (h : ⦃fun s => ⌜P' s⌝⦄ x ⦃post⟨fun a s => ⌜Q' a s⌝, fun e s => ⌜E' e s⌝⟩⦄)
    (hP : ∀ s, P s → P' s) (hQ : ∀ a s, Q' a s → Q a s) (hE : ∀ e s, E' e s → E e s) :
    ⦃fun s => ⌜P s⌝⦄ x ⦃post⟨fun a s => ⌜Q a s⌝, fun e s => ⌜E e s⌝⟩⦄ := by
  rw [triple_iff_run]
  intro s hs
  have h' := (triple_iff_run _ _ _).1 h s (hP s hs)
  rcases hx : x.run.run s with ⟨e | a, s'⟩ <;> rw [hx] at h'
  · exact hE e s' h'
  · exact hQ a s' h'

namespace Cluster

open Json

namespace Store

/-! ### Steps that keep every object -/

/-- A step of the store that leaves it well formed, and every object of it later in its life
unless it was pending. -/
structure Keeping (s s' : Store) : Prop where
  wf : s'.WF
  keeps : Keeps s s'

/-- A fact of stores, of well-formed ones only, that every `Keeping` step keeps. -/
structure Lasting (Q : Store → Prop) : Prop where
  wf : ∀ s, Q s → s.WF
  step : ∀ s s', Q s → Keeping s s' → Q s'

/-- Changing nothing keeps every object. -/
theorem Keeping.refl {s : Store} (hs : s.WF) : Keeping s s := ⟨hs, Keeps.refl s⟩

theorem Within.keeping {F : Footprint} {s s' : Store} (h : Within F s s') : Keeping s s' :=
  ⟨h.wf, h.keeps⟩

theorem Grown.keeping {s s' : Store} {res : Value} (h : Grown s s' res) : Keeping s s' :=
  ⟨h.wf, fun b o hb => .inl ⟨o, h.keeps b o hb, Kept.refl o⟩⟩

section Keeping

variable {s : Store}

/-- A create only adds an object. -/
theorem keeping_create (hs : s.WF) (res : Value) (uid : String) (now : Stamp) :
    Keeping s ((Call.create res uid now).after s) :=
  state_of_triple (create_spec s hs res uid now) (fun _ _ h => h.1.keeping) fun _ _ h => h.keeping

/-- A status write changes only the status and resource version of one object. -/
theorem keeping_setStatus (hs : s.WF) (kind name ns status v : Value) :
    Keeping s ((Call.setStatus kind name ns status v).after s) :=
  state_of_triple (setStatus_spec s kind name ns status v)
    (fun _ _ h => h.elim (fun e => by subst e; exact Keeping.refl hs)
      fun hw => ⟨hw.wf hs, hw.keeps hs.keyed⟩)
    fun _ _ e => by subst e; exact Keeping.refl hs

/-- The footprint that allows every change. -/
def anywhere : Footprint where
  free _ := True
  own _ := False
  kinds _ := True

/-- An update of an object a lookup found, by a resource that names the same address and keeps
the object's life, keeps every object. -/
theorem keeping_update_found (hs : s.WF) {kind name ns v cur res : Value}
    (hget : s.get kind name ns v = .ok (some cur))
    (hread : ∀ a, Address.read cur = .ok a → Address.read res = .ok a) (hkept : Kept cur res) :
    Keeping s ((Call.update res).after s) :=
  ((Within.refl (F := anywhere) hs).update_found hget hread hkept (fun _ _ => trivial)
    fun _ _ _ _ => trivial).keeping

end Keeping

end Store

open Store

section Lasting

variable {σ : Config.Settings} {Q : Store → Prop}

/-- A create from a plain world keeps every lasting fact. -/
theorem lasting_create (hQ : Lasting Q) (res : Value) :
    ⦃fun w => ⌜PlainWith σ Q w⌝⦄ create res
    ⦃post⟨fun _ w => ⌜PlainWith σ Q w⌝, fun _ w => ⌜PlainWith σ Q w⌝⟩⦄ :=
  triple_conseq (plainWith_create res)
    (fun _ hw => ⟨hw, fun _ _ => hQ.step _ _ hw.store (keeping_create (hQ.wf _ hw.store) res _ _)⟩)
    (fun _ _ h => h) fun _ _ h => h

/-- A status write from a plain world keeps every lasting fact. -/
theorem lasting_setStatus (hQ : Lasting Q) (kind name ns status v : Value) :
    ⦃fun w => ⌜PlainWith σ Q w⌝⦄ setStatus kind name ns status v
    ⦃post⟨fun _ w => ⌜PlainWith σ Q w⌝, fun _ w => ⌜PlainWith σ Q w⌝⟩⦄ :=
  triple_conseq (plainWith_setStatus kind name ns status v)
    (fun _ hw => ⟨hw, hQ.step _ _ hw.store (keeping_setStatus (hQ.wf _ hw.store) _ _ _ _ _)⟩)
    (fun _ _ h => h) fun _ _ h => h

end Lasting

end Cluster

namespace Controllers

open Json Cluster Store Reconcile Resource Catalog

set_option mvcgen.warning false

variable {α : Type}

/-- A cluster program keeps, inside a request reconcile, what its spec keeps of the world. -/
theorem lift_world_spec {m : ClusterM α} {P : World → Prop} {A : α → World → Prop}
    {E : Failure → World → Prop}
    (h : ⦃fun w => ⌜P w⌝⦄ m ⦃post⟨fun a w => ⌜A a w⌝, fun e w => ⌜E e w⌝⟩⦄) :
    ⦃fun st => ⌜P st.1.world⌝⦄
    (MonadLift.monadLift (MonadLift.monadLift m : ReconcileM α) : RequestM α)
    ⦃post⟨fun a st => ⌜A a st.1.world⌝, fun e st => ⌜E e st.1.world⌝⟩⦄ :=
  triple_conseq (lift_spec h fun _ => True) (fun _ h => ⟨h, trivial⟩) (fun _ _ h => h.1)
    fun _ _ h => h.1

/-- Bringing an existing managed resource up to date keeps the address it names and its
life. -/
theorem respec_parts {current curMd : Value} (hmd : current.index "metadata" = .ok curMd)
    (spec labels : Value) :
    (∀ a, Address.read current = .ok a →
      Address.read ((current.set "spec" spec).set "metadata" (curMd.set "labels" labels)) =
        .ok a) ∧
    Kept current ((current.set "spec" spec).set "metadata" (curMd.set "labels" labels)) := by
  have hcur : current.get? "metadata" = some curMd := by
    cases current with
    | obj fs =>
      simp only [Value.index] at hmd
      split at hmd
      · cases hmd
        assumption
      · cases hmd
    | _ => simp [Value.index] at hmd
  have hobj : current.isObj = true := by cases current <;> simp_all [Value.get?, Value.isObj]
  have hmetaOf : metadataOf (current.set "spec" spec) = curMd := by
    simp [metadataOf, Value.get?_set, hobj, hcur]
  refine ⟨fun a ha => ?_, fun k hk => ?_⟩
  · have hspec := read_set_of_ne ha "spec" spec (by decide) (by decide) (by decide)
    have hmdobj := metadata_isObj_of_read hspec
    rw [hmetaOf] at hmdobj
    exact read_set_metadata hspec (by simp [hmdobj]) (by simp [hmetaOf]) (by simp [hmetaOf])
  · simp only [lifeKeys, List.mem_cons, List.not_mem_nil, or_false] at hk
    simp only [Value.getD_eq, Value.get?_set, hobj, hcur]
    rcases hk with rfl | rfl | rfl <;> simp [hobj]

section Converging

variable {σ : Config.Settings} {Q : Store → Prop}

/-- A state of the convergence phase: the world is plain with the settings `σ`, and its store
satisfies `Q`. -/
abbrev Converging (σ : Config.Settings) (Q : Store → Prop) (st : Reconciling × ResourceCache) :
    Prop :=
  PlainWith σ Q st.1.world

/-- The update of a managed resource found, brought up to date, keeps a lasting fact. -/
theorem converging_update (hQ : Lasting Q) {w : World} {kind name ns v : Value}
    {p : Bool × Option Value} {current curMd : Value}
    (hw : PlainWith σ Q w ∧ p.1 = true ∧ w.store.get kind name ns v = .ok p.2)
    (hfound : (if p.1 = true then p.2 else none) = some current)
    (hmd : current.index "metadata" = .ok curMd) (spec labels : Value) :
    PlainWith σ Q w ∧ Q ((Call.update ((current.set "spec" spec).set "metadata"
      (curMd.set "labels" labels))).after w.store) := by
  obtain ⟨hw, hok, hget⟩ := hw
  rw [hok, if_pos rfl] at hfound
  rw [hfound] at hget
  obtain ⟨hread, hkept⟩ := respec_parts hmd spec labels
  exact ⟨hw, hQ.step _ _ hw.store (keeping_update_found (hQ.wf _ hw.store) hget hread hkept)⟩

/-- Creating or bringing up to date the managed resource of an example keeps a lasting
fact. -/
theorem applyResource_spec (hQ : Lasting Q) (sample spec ns operand : Value) :
    ⦃fun st => ⌜Converging σ Q st⌝⦄ applyResource sample spec ns operand
    ⦃post⟨fun _ st => ⌜Converging σ Q st⌝, fun _ st => ⌜Converging σ Q st⌝⟩⦄ := by
  have hc := fun res => lift_world_spec (lasting_create (σ := σ) hQ res)
  have hg := fun k n ns v => lift_world_spec
    (getObject_spec (P := PlainWith σ Q) (fun _ h => h.plain) k n ns v)
  have hu := fun res => lift_world_spec (plainWith_update (σ := σ) (Q := Q) res)
  mvcgen [applyResource, RequestM.check_eq, hc, hg, hu]
  all_goals first
    | exact ‹Converging σ Q _›
    | exact (‹PlainWith σ Q _ ∧ _›).1
    | exact converging_update hQ ‹_› ‹_› ‹_› _ _

theorem cachedView_converging (kind : String) (name ns : Value) :
    ⦃fun st => ⌜Converging σ Q st⌝⦄ cachedView kind name ns
    ⦃post⟨fun _ st => ⌜Converging σ Q st⌝, fun _ st => ⌜Converging σ Q st⌝⟩⦄ :=
  triple_conseq (cachedView_keeps (fun _ h => h.plain) (fun _ => True) kind name ns)
    (fun _ h => ⟨h, trivial⟩) (fun _ _ h => h) fun _ _ h => h

theorem installationOfOperator_converging (op : Operator) :
    ⦃fun st => ⌜Converging σ Q st⌝⦄
    (MonadLift.monadLift (MonadLift.monadLift (installationOfOperator op) :
      ReconcileM (Option Value × Option Value)) : RequestM (Option Value × Option Value))
    ⦃post⟨fun _ st => ⌜Converging σ Q st⌝, fun _ st => ⌜Converging σ Q st⌝⟩⦄ :=
  lift_world_spec (triple_weaken (readsAs_spec (fun _ h => h.plain)
    fun _ hw => readsAs_installationOfOperator hw op) (fun _ _ h => h.1) fun _ _ h => h)

/-- Converging one operand through one entry keeps a lasting fact. -/
theorem reconcileOperand_spec (hQ : Lasting Q) (entry : RequestEntry) (operand : Value) :
    ⦃fun st => ⌜Converging σ Q st⌝⦄ reconcileOperand entry operand
    ⦃post⟨fun _ st => ⌜Converging σ Q st⌝, fun _ st => ⌜Converging σ Q st⌝⟩⦄ := by
  have hview := cachedView_converging (σ := σ) (Q := Q)
  have hinst := installationOfOperator_converging (σ := σ) (Q := Q)
  have happly := fun sample spec ns =>
    tryItem_spec (applyResource_spec (σ := σ) hQ sample spec ns operand)
  mvcgen [reconcileOperand, RequestM.check_eq, hview, hinst, happly]
    invariants
    · post⟨fun _ st => ⌜Converging σ Q st⌝, fun _ st => ⌜Converging σ Q st⌝⟩

theorem entryOperator_converging (entry : RequestEntry) (operand : Value) :
    ⦃fun st => ⌜Converging σ Q st⌝⦄ entryOperator entry operand
    ⦃post⟨fun _ st => ⌜Converging σ Q st⌝, fun _ st => ⌜Converging σ Q st⌝⟩⦄ := by
  have hview := cachedView_converging (σ := σ) (Q := Q)
  mvcgen [entryOperator, RequestM.check_eq, hview]

theorem recordEvent_converging (hQ : Lasting Q) (type : Event.EventType)
    (reason message : String) :
    ⦃fun st => ⌜Converging σ Q st⌝⦄
    (MonadLift.monadLift (ReconcileM.recordEvent type reason message) : RequestM Bool)
    ⦃post⟨fun _ st => ⌜Converging σ Q st⌝, fun _ st => ⌜Converging σ Q st⌝⟩⦄ :=
  triple_conseq (recordEvent_spec (fun s s' h hw => hQ.step s s' h hw.keeping) hQ.wf type reason
    message fun _ => True) (fun _ h => ⟨h, trivial⟩) (fun _ _ h => h.1) fun _ _ h => h.1

theorem now_converging :
    ⦃fun st => ⌜Converging σ Q st⌝⦄
    (MonadLift.monadLift (MonadLift.monadLift ClusterM.now : ReconcileM Stamp) : RequestM Stamp)
    ⦃post⟨fun _ st => ⌜Converging σ Q st⌝, fun _ st => ⌜Converging σ Q st⌝⟩⦄ :=
  triple_conseq (now_request_spec (fun _ h => h.plain) fun _ => True) (fun _ h => ⟨h, trivial⟩)
    (fun _ _ h => h.1) fun _ _ h => h.1

theorem convergeTurn_spec (hQ : Lasting Q) (request : View) (entry : RequestEntry)
    (operand : Operand) (acc : Converged × Tally) :
    ⦃fun st => ⌜Converging σ Q st⌝⦄ convergeTurn request entry operand acc
    ⦃post⟨fun _ st => ⌜Converging σ Q st⌝, fun _ st => ⌜Converging σ Q st⌝⟩⦄ := by
  have hfound := fun entry name =>
    tryItem_spec (entryOperator_converging (σ := σ) (Q := Q) entry name)
  have hev := recordEvent_converging (σ := σ) hQ
  have hnow := now_converging (σ := σ) (Q := Q)
  have hop := fun entry name => tryItem_spec (reconcileOperand_spec (σ := σ) hQ entry name)
  mvcgen [convergeTurn, operandCondition, RequestM.check_eq, hfound, hev, hnow, hop]

/-- Converging every requested operand keeps a lasting fact. -/
theorem convergeOperands_spec (hQ : Lasting Q) (request : View) (t : Tally) :
    ⦃fun st => ⌜Converging σ Q st⌝⦄ convergeOperands request t
    ⦃post⟨fun _ st => ⌜Converging σ Q st⌝, fun _ st => ⌜Converging σ Q st⌝⟩⦄ := by
  have hturn := convergeTurn_spec (σ := σ) hQ request
  mvcgen [convergeOperands, RequestM.check_eq, hturn]
    invariants
    · post⟨fun _ st => ⌜Converging σ Q st⌝, fun _ st => ⌜Converging σ Q st⌝⟩
    · post⟨fun _ st => ⌜Converging σ Q st⌝, fun _ st => ⌜Converging σ Q st⌝⟩

theorem operatorPhaseOf_converging (entry : RequestEntry) (operand : Value) :
    ⦃fun st => ⌜Converging σ Q st⌝⦄ operatorPhaseOf entry operand
    ⦃post⟨fun _ st => ⌜Converging σ Q st⌝, fun _ st => ⌜Converging σ Q st⌝⟩⦄ := by
  have hop := entryOperator_converging (σ := σ) (Q := Q)
  have hinst := installationOfOperator_converging (σ := σ) (Q := Q)
  mvcgen [operatorPhaseOf, RequestM.check_eq, hop, hinst]

/-- Publishing the members of a request only reads the cluster. -/
theorem publishMembers_converging (request : View) (c : Converged) (t : Tally) :
    ⦃fun st => ⌜Converging σ Q st⌝⦄ publishMembers request c t
    ⦃post⟨fun _ st => ⌜Converging σ Q st⌝, fun _ st => ⌜Converging σ Q st⌝⟩⦄ := by
  have hphase := fun entry name =>
    tryItem_spec (operatorPhaseOf_converging (σ := σ) (Q := Q) entry name)
  mvcgen [publishMembers, memberTurn, RequestM.check_eq, hphase]
    invariants
    · post⟨fun _ st => ⌜Converging σ Q st⌝, fun _ st => ⌜Converging σ Q st⌝⟩
    · post⟨fun _ st => ⌜Converging σ Q st⌝, fun _ st => ⌜Converging σ Q st⌝⟩

/-- Writing the status of the session's resource keeps a lasting fact. -/
theorem setStatus_converging (hQ : Lasting Q) (new : Value) :
    ⦃fun st => ⌜Converging σ Q st⌝⦄
    (MonadLift.monadLift (ReconcileM.setStatus new) : RequestM Bool)
    ⦃post⟨fun _ st => ⌜Converging σ Q st⌝, fun _ st => ⌜Converging σ Q st⌝⟩⦄ := by
  have hset : ∀ kind name ns status v,
      ⦃fun r => ⌜True ∧ PlainWith σ Q r.world⌝⦄
      (MonadLift.monadLift (Cluster.setStatus kind name ns status v) : ReconcileM (Bool × Bool))
      ⦃post⟨fun _ r => ⌜True ∧ PlainWith σ Q r.world⌝,
        fun _ r => ⌜True ∧ PlainWith σ Q r.world⌝⟩⦄ :=
    fun kind name ns status v => liftCluster_spec (lasting_setStatus hQ kind name ns status v)
      fun _ => True
  have h : ⦃fun r => ⌜PlainWith σ Q r.world⌝⦄ ReconcileM.setStatus new
      ⦃post⟨fun _ r => ⌜PlainWith σ Q r.world⌝, fun _ r => ⌜PlainWith σ Q r.world⌝⟩⦄ := by
    mvcgen [ReconcileM.setStatus, ReconcileM.session, ReconcileM.check_eq,
      ReconcileM.modifySession, hset]
    all_goals first
      | exact id
      | exact ‹PlainWith σ Q _›
      | exact ⟨trivial, ‹_›⟩
      | exact (‹True ∧ PlainWith σ Q _›).2
  exact triple_conseq (liftReconcile_spec h fun _ => True) (fun _ h => ⟨h, trivial⟩)
    (fun _ _ h => h.1) fun _ _ h => h.1

end Converging

end Controllers

end OperandLifecycle

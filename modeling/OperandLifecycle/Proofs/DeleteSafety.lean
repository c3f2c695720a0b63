import OperandLifecycle.Proofs.ConvergeSteps
/-!
# Delete safety of a request run

One reconcile of a request, or one finalize, deletes or marks for deletion only what the removal
of an operand the run drops selects (`request_run_delete_safe`). From a plain world whose store
is well formed, and whose installations have no example of a kind the run reads or posts
(`SafeExamples`), every object of the store it starts from is, after the run, still at its
address later in its life (the same uid, deletion mark and finalizers), or was already pending,
or is `Removable`: the deletion of an example of an operand the request no longer names, or of
any of its operands when finalizing, selects it, through a registry that reaches the operand,
its configuration, its installation and its namespace, where no other live request refers to
the operand.

* `Outlived D s₀ s` — what a run leaves of `s₀`; the removal phase leaves it (`of_pruned`) and
  every step of the convergence phase keeps it (`lasting`).
* `reconcileRequestM_spec` — a reconcile removes under `Removing` and then converges under
  `Converging`.
* `finalizeRequestM_spec` — a finalize writes the request's status first
  (`RequestStatusWrite`) and removes from the store that write leaves; `Outlived.before` reads
  what it removed back in the store it started from, which shows registries, configurations and
  installations alike, and the requests with all the search for other referents reads.

The removal is decided by label and field selectors, which trim the texts they compare
(`removal_selectors_trim_blanks`): what is removable is what the selectors pick, not only what
is named and labelled exactly as the example and the operand.
-/

open Std.Do

namespace OperandLifecycle

section Triples

variable {σ ε α : Type} {x : ExceptT ε (StateM σ) α}

/-- A spec that holds from every one of a family of preconditions holds from their union. -/
theorem triple_exists {ι : Type} {P : ι → σ → Prop} {Q : ι → α → σ → Prop} {E : ι → ε → σ → Prop}
    (h : ∀ i, ⦃fun s => ⌜P i s⌝⦄ x ⦃post⟨fun a s => ⌜Q i a s⌝, fun e s => ⌜E i e s⌝⟩⦄) :
    ⦃fun s => ⌜∃ i, P i s⌝⦄ x ⦃post⟨fun a s => ⌜∃ i, Q i a s⌝, fun e s => ⌜∃ i, E i e s⌝⟩⦄ := by
  rw [triple_iff_run]
  rintro s ⟨i, hi⟩
  have h' := (triple_iff_run _ _ _).1 (h i) s hi
  rcases hx : x.run.run s with ⟨e | a, s'⟩ <;> rw [hx] at h' <;> exact ⟨i, h'⟩

/-- A spec that needs a fact keeps the fact. -/
theorem triple_with_fact {H : Prop} {P : σ → Prop} {Q : α → σ → Prop} {E : ε → σ → Prop}
    (h : H → ⦃fun s => ⌜P s⌝⦄ x ⦃post⟨fun a s => ⌜Q a s⌝, fun e s => ⌜E e s⌝⟩⦄) :
    ⦃fun s => ⌜H ∧ P s⌝⦄ x ⦃post⟨fun a s => ⌜H ∧ Q a s⌝, fun e s => ⌜H ∧ E e s⌝⟩⦄ := by
  rw [triple_iff_run]
  rintro s ⟨hH, hP⟩
  have h' := (triple_iff_run _ _ _).1 (h hH) s hP
  rcases hx : x.run.run s with ⟨e | a, s'⟩ <;> rw [hx] at h' <;> exact ⟨hH, h'⟩

end Triples

namespace Controllers

open Json Cluster Store Reconcile Resource Catalog

set_option mvcgen.warning false

/-! ### What a run leaves -/

/-- What a run leaves of the objects of `s₀`: a well-formed store in which each object of `s₀`
is found at its address later in its life, unless it was pending or `D` lets the run delete
it. -/
structure Outlived (D : Address → Value → Prop) (s₀ s : Store) : Prop where
  wf : s.WF
  kept : ∀ b o, s₀.objectAt b = some o →
    (∃ o', s.objectAt b = some o' ∧ Kept o o') ∨ Pending o ∨ D b o

namespace Outlived

variable {D : Address → Value → Prop} {s₀ s : Store}

/-- Every step that keeps every object keeps what a run leaves. -/
theorem lasting : Lasting (Outlived D s₀) where
  wf _ h := h.wf
  step s s' h hk := ⟨hk.wf, fun b o hb => by
    rcases h.kept b o hb with ⟨o', ho', hko⟩ | hp | hD
    · rcases hk.keeps b o' ho' with ⟨o'', ho'', hko'⟩ | hp'
      · exact .inl ⟨o'', ho'', hko.trans hko'⟩
      · exact .inr (.inl (hp'.of_kept hko))
    · exact .inr (.inl hp)
    · exact .inr (.inr hD)⟩

/-- The removal phase leaves each object as it was, deleted as `D` allows, or an Event kept
through its life. -/
theorem of_pruned (h : Pruned D s₀ s) : Outlived D s₀ s where
  wf := h.wf
  kept b o hb := by
    rcases h.changed b with hs | ⟨o', ho', hD⟩ | ⟨-, hev⟩
    · exact .inl ⟨o, hs.trans hb, Kept.refl o⟩
    · rw [hb] at ho'
      cases ho'
      exact .inr (.inr hD)
    · exact (hev o hb).imp id .inl

end Outlived

/-- The removal phase ends where the convergence phase starts. -/
theorem Removing.converging {σ : Config.Settings} {D : Address → Value → Prop} {s₀ : Store}
    {st : Reconciling × ResourceCache} (h : Removing σ D s₀ st) :
    Converging σ (Outlived D s₀) st :=
  ⟨h.1.plain, h.1.settings, Outlived.of_pruned h.1.store⟩

/-! ### Writing the status of the request before the removal -/

/-- A request's view read after its status is written: the status write keeps what the view
says of its entries, of its deletion and of its name and namespace. -/
theorem ofManifest_statusWritten {m : Value} {a : Address} (hr : Address.read m = .ok a)
    {v : View} (hv : View.ofManifest m = .ok v) (status : Value) (rv : String) :
    ∃ v', View.ofManifest (statusWritten m status rv) = .ok v' ∧ v'.requests = v.requests ∧
      v'.deleting = v.deleting ∧ Referent.ofView v' = Referent.ofView v := by
  have hobj := isObj_of_read hr
  have hmdobj := metadata_isObj_of_read hr
  rw [← getD_metadata_of_read hr] at hmdobj
  obtain ⟨ms, hms⟩ : ∃ ms, m.getD "metadata" = .obj ms := by
    revert hmdobj
    cases m.getD "metadata" <;> simp [Value.isObj]
  have hobj' : (statusWritten m status rv).isObj = true := by
    cases m <;> simp_all [statusWritten, Value.isObj, Value.set]
  have hms' := metadata_statusWritten hr status rv
  rw [hms] at hms'
  simp only [View.ofManifest, Value.field_eq_of_isObj hobj, Value.field_eq_of_isObj hobj', hms,
    hms', except_ok_bind] at hv ⊢
  -- a metadata object with a name is not empty, and neither is it with a resource version set
  have htr : (Value.obj ms).truthy = true := by
    cases ms with
    | nil => simp [Value.orEmpty, Value.or, Value.truthy, Value.field, Fields.get?] at hv
    | cons _ _ => rfl
  have htr' : ((Value.obj ms).set "resourceVersion" (.str rv)).truthy = true := by
    cases ms with
    | nil => cases htr
    | cons p ps =>
      simp only [Value.set, Fields.insert]
      split <;> simp [Value.truthy]
  simp only [Value.orEmpty, Value.or, htr, htr', if_true] at hv ⊢
  have hname : ((Value.obj ms).set "resourceVersion" (.str rv)).getD "name" =
      (Value.obj ms).getD "name" := by
    simp [Value.getD_eq, Value.isObj]
  rw [Value.field_eq_of_isObj rfl] at hv
  rw [Value.field_eq_of_isObj (by simp [Value.set, Value.isObj]), hname]
  simp only [except_ok_bind] at hv ⊢
  cases hn : ((Value.obj ms).getD "name").truthy
  · simp [hn] at hv
  simp only [hn, Bool.not_true, Bool.false_eq_true, if_false] at hv ⊢
  cases hv
  have hspec : (statusWritten m status rv).getD "spec" = m.getD "spec" := by
    simp [statusWritten, Value.getD_eq, hobj]
  have hmeta : ∀ k, k ≠ "resourceVersion" →
      ((Value.obj ms).set "resourceVersion" (.str rv)).getD k = (Value.obj ms).getD k := by
    intro k hk
    simp [Value.getD_eq, Value.isObj, hk]
  refine ⟨_, rfl, ?_, ?_, ?_⟩
  · simp only [View.requests, View.spec, View.namespace, hspec, hmeta "namespace" (by decide)]
  · simp only [View.deleting, hmeta "deletionTimestamp" (by decide)]
  · simp only [Referent.ofView, View.name, View.namespace, hmeta "name" (by decide),
      hmeta "namespace" (by decide)]

/-- The store `s₁` is `s₀`, or `s₀` with the status of one request written. -/
def RequestStatusWrite (s₀ s₁ : Store) : Prop :=
  s₁ = s₀ ∨ ∃ ns name status, StatusWrite s₀ s₁ ns (.str requestKind) name status

namespace RequestStatusWrite

variable {s₀ s₁ : Store}

theorem wf (h : RequestStatusWrite s₀ s₁) (hs₀ : s₀.WF) : s₁.WF := by
  rcases h with rfl | ⟨_, _, _, hw⟩
  · exact hs₀
  · exact hw.wf hs₀

theorem keeping (h : RequestStatusWrite s₀ s₁) (hs₀ : s₀.WF) : Keeping s₀ s₁ := by
  rcases h with rfl | ⟨_, _, _, hw⟩
  · exact Keeping.refl hs₀
  · exact ⟨hw.wf hs₀, hw.keeps hs₀.keyed⟩

/-- The status write is confined to an address of a request. -/
theorem confined (h : RequestStatusWrite s₀ s₁) (hs₀ : s₀.Keyed) :
    ∃ a : Address, a.kind = .str requestKind ∧ Confined s₀ s₁ a := by
  rcases h with rfl | ⟨_, _, _, hw⟩
  · exact ⟨⟨.null, .str requestKind, .null, .null⟩, rfl, Confined.refl hs₀ _⟩
  · exact hw.confined hs₀

/-- The status write shows every other kind as before. -/
theorem sameKind (h : RequestStatusWrite s₀ s₁) (hs₀ : s₀.Keyed) {K : String}
    (hK : K ≠ requestKind) : SameKind (.str K) s₀ s₁ := by
  obtain ⟨a, ha, hc⟩ := h.confined hs₀
  refine hc.sameKind _ ?_
  rw [ha]
  exact str_heldEquiv_eq_false fun e => hK (Value.str.inj e).symm

/-- An address of another kind than requests holds what it held. -/
theorem frame (h : RequestStatusWrite s₀ s₁) (hs₀ : s₀.Keyed) {b : Address}
    (hb : b.kind ≠ .str requestKind) : s₁.objectAt b = s₀.objectAt b := by
  obtain ⟨a, ha, hc⟩ := h.confined hs₀
  exact hc.frame b fun hba => hb (Value.heldEquiv_str_iff.1 (ha ▸ hba.2.1))

/-- Each object is found as it was, or with its status written. -/
theorem objectAt (h : RequestStatusWrite s₀ s₁) (hs₀ : s₀.Keyed) {b : Address} {m : Value}
    (hb : s₀.objectAt b = some m) :
    s₁.objectAt b = some m ∨ ∃ status rv, s₁.objectAt b = some (statusWritten m status rv) := by
  rcases h with rfl | ⟨ns, name, status, hw⟩
  · exact .inl hb
  obtain ⟨a, o, ha, -, -, rfl, hfound⟩ := hw.address hs₀
  by_cases hba : b.Equiv a
  · have hbh := hba.hashable_left ha
    obtain ⟨cur, hcur, rv, rfl⟩ := hfound ((hba.symm hbh).trans ha hba)
    obtain ⟨shelf, hslot, -⟩ := Option.bind_eq_some_iff.1 hcur
    rw [objectAt_congr s₀ hbh hba, hcur] at hb
    cases hb
    exact .inr ⟨status, rv, by
      rw [objectAt_write (s := { s₀ with issued := s₀.issued + 1 }) hs₀ ha _ hslot, if_pos hba]⟩
  · exact .inl ((objectAt_write_frame (s := { s₀ with issued := s₀.issued + 1 }) hs₀ ha _
      hba).trans hb)

end RequestStatusWrite

/-! ### Removal paths read after the status write -/

section Before

variable {s₀ s₁ : Store} {shared : Value} {R : View} {X : Value}

/-- A request refers to an operand through the same registries in stores that show registries
alike. -/
theorem resolvesThrough_congr {s s' : Store} (h : SameKind (.str registryKind) s s') {v v' : View}
    (hreq : v'.requests = v.requests) {ns : Value} :
    ResolvesThrough s' shared v' X ns ↔ ResolvesThrough s shared v X ns := by
  simp only [ResolvesThrough, EntryResolves, registryAt_eq_of_sameKind h, hreq]

theorem Reaches.before (h : RequestStatusWrite s₀ s₁) (hs₀ : s₀.WF) {registry : View}
    (hr : Reaches s₁ R X registry) : Reaches s₀ R X registry := by
  have hreg := h.sameKind hs₀.keyed (K := registryKind) (by simp [registryKind, requestKind])
  rcases hr with ⟨entries, he, e, hem, hv⟩ | ⟨listed, hl, m, hm, hv, hreq⟩
  · exact .inl ⟨entries, he, e, hem, (viewAt_eq_of_sameKind hreg _ _).trans hv⟩
  · exact .inr ⟨listed, (list_eq_of_sameKind rfl hs₀.keyed (h.wf hs₀).keyed hreg _ _ _ _).trans hl,
      m, hm, hv, hreq⟩

/-- The status write keeps, of the request it writes, all that the search for other referents
reads. -/
theorem NoOtherReferent.before (h : RequestStatusWrite s₀ s₁) (hs₀ : s₀.WF) {ns : Value}
    (hn : NoOtherReferent s₁ shared R X ns) : NoOtherReferent s₀ shared R X ns := by
  intro b m v hat hkind hver hview hdel hsame hres
  have hreg := h.sameKind hs₀.keyed (K := registryKind) (by simp [registryKind, requestKind])
  rcases h.objectAt hs₀.keyed hat with hat₁ | ⟨status, rv, hat₁⟩
  · exact hn b m v hat₁ hkind hver hview hdel hsame ((resolvesThrough_congr hreg rfl).2 hres)
  · obtain ⟨a, hr, -⟩ := hs₀.named_of_objectAt hat
    obtain ⟨v', hv', hreq, hdel', href⟩ := ofManifest_statusWritten hr hview status rv
    exact hn b _ v' hat₁ hkind hver hv' (hdel'.trans hdel) (href ▸ hsame)
      ((resolvesThrough_congr hreg hreq).2 hres)

/-- A removal path read after the status write, as the store before it shows it. -/
def Removal.before (h : RequestStatusWrite s₀ s₁) (hs₀ : s₀.WF) (p : Removal s₁ shared R X) :
    Removal s₀ shared R X :=
  { p with
    reaches := p.reaches.before h hs₀
    configured := by
      rw [viewAt_eq_of_sameKind (h.sameKind hs₀.keyed (by simp [configKind, requestKind]))]
      exact p.configured
    installed := by
      rw [installationOfIn_eq_of_sameKind
        (h.sameKind hs₀.keyed (by simp [subscriptionKind, requestKind]))
        (h.sameKind hs₀.keyed (by simp [installationKind, requestKind]))]
      exact p.installed
    alone := p.alone.before h hs₀ }

theorem SafeExamples.after (h : RequestStatusWrite s₀ s₁) (hs₀ : s₀.WF)
    (hsafe : SafeExamples s₀ shared) : SafeExamples s₁ shared := by
  intro op sub csv samples sample kind hinst
  rw [← installationOfIn_eq_of_sameKind
    (h.sameKind hs₀.keyed (by simp [subscriptionKind, requestKind]))
    (h.sameKind hs₀.keyed (by simp [installationKind, requestKind]))] at hinst
  exact hsafe op sub csv samples sample kind hinst

/-- What a removal after the status write selects it selects before, where it finds the same
object: it selects no request. -/
theorem Removable.before (h : RequestStatusWrite s₀ s₁) (hs₀ : s₀.WF)
    (hsafe : SafeExamples s₁ shared) {fin : Bool} {b : Address} {o o₁ : Value}
    (hb : s₀.objectAt b = some o) (hb₁ : s₁.objectAt b = some o₁)
    (hD : Removable s₁ shared R fin b o₁) : Removable s₀ shared R fin b o := by
  obtain ⟨X, hdrop, p, hsel⟩ := hD
  have hkind : p.kind ≠ .str requestKind := hsafe _ _ _ _ _ _ p.installed p.examples p.listed
    p.kindOf requestKind (by simp [lookupKinds])
  have hbk : b.kind ≠ .str requestKind := fun e =>
    hkind (Value.heldEquiv_str_iff.1 (Value.heldEquiv_symm rfl (e ▸ hsel.1)))
  rw [h.frame hs₀.keyed hbk, hb] at hb₁
  cases hb₁
  exact ⟨X, hdrop, p.before h hs₀, hsel⟩

/-- What a run leaves of the store after the status write it leaves of the store before. -/
theorem Outlived.before (h : RequestStatusWrite s₀ s₁) (hs₀ : s₀.WF)
    (hsafe : SafeExamples s₀ shared) {fin : Bool} {s : Store}
    (hO : Outlived (Removable s₁ shared R fin) s₁ s) : Outlived (Removable s₀ shared R fin) s₀ s where
  wf := hO.wf
  kept b o hb := by
    rcases (h.keeping hs₀).keeps b o hb with ⟨o₁, hb₁, hk₁⟩ | hp
    · rcases hO.kept b o₁ hb₁ with ⟨o', hb', hk'⟩ | hp | hD
      · exact .inl ⟨o', hb', hk₁.trans hk'⟩
      · exact .inr (.inl (hp.of_kept hk₁))
      · exact .inr (.inr (hD.before h hs₀ (hsafe.after h hs₀) hb hb₁))
    · exact .inr (.inl hp)

end Before

/-! ### The runs -/

/-- Reading the session changes nothing. -/
theorem session_spec {P : Reconciling × ResourceCache → Prop} :
    ⦃fun st => ⌜P st⌝⦄ (MonadLift.monadLift ReconcileM.session : RequestM Session)
    ⦃post⟨fun s st => ⌜P st ∧ s = st.1.session⌝, fun _ st => ⌜P st⌝⟩⦄ := by
  rw [triple_iff_run]
  rintro ⟨r, c⟩ h
  rw [run_liftReconcile]
  exact ⟨h, rfl⟩

section Runs

variable {σ : Config.Settings} {s₀ : Store} {R : View} {m : Value}

/-- The request a run reads from its session is the one the session's manifest reads as. -/
theorem request_of_session {P : Prop} {st : Reconciling × ResourceCache} {s : Session}
    {request : View} (h : (st.1.session.manifest = m ∧ P) ∧ s = st.1.session)
    (hv : View.ofManifest s.manifest = .ok request) (hR : View.ofManifest m = .ok R) :
    request = R := by
  obtain ⟨⟨hm, -⟩, rfl⟩ := h
  rw [hm, hR] at hv
  exact (Except.ok.inj hv).symm

theorem reconcileRequestM_spec (hs₀ : s₀.WF)
    (hsafe : SafeExamples s₀ (σ.get "cluster_operator_namespace"))
    (hR : View.ofManifest m = .ok R) :
    ⦃fun st => ⌜st.1.session.manifest = m ∧
      Removing σ (Removable s₀ (σ.get "cluster_operator_namespace") R false) s₀ st⌝⦄
    reconcileRequestM
    ⦃post⟨fun _ st => ⌜Converging σ
        (Outlived (Removable s₀ (σ.get "cluster_operator_namespace") R false) s₀) st⌝,
      fun _ st => ⌜Converging σ
        (Outlived (Removable s₀ (σ.get "cluster_operator_namespace") R false) s₀) st⌝⟩⦄ := by
  let D := Removable s₀ (σ.get "cluster_operator_namespace") R false
  have hsession := session_spec (P := fun st => st.1.session.manifest = m ∧ Removing σ D s₀ st)
  have hnames := fun request => requestedNames_spec (P := Removing σ D s₀) request
  have hdrop := fun (request : View) requested t => triple_of_fact (P := Removing σ D s₀)
    (fun (h : request = R ∧ NamesAll request requested) => by
      rw [h.1]
      exact dropMembers_spec hs₀ hsafe (h.1 ▸ h.2) t)
  have hconv := convergeOperands_spec (σ := σ) (Outlived.lasting : Lasting (Outlived D s₀))
  have hpub := publishMembers_converging (σ := σ) (Q := Outlived D s₀)
  have hset := setStatus_converging (σ := σ) (Outlived.lasting : Lasting (Outlived D s₀))
  have hraise := fun errors => raiseGathered_spec (P := Converging σ (Outlived D s₀)) errors
  mvcgen [reconcileRequestM, RequestM.check_eq, hsession, hnames, hdrop, hconv, hpub, hset,
    hraise]
  case vc3 =>
    obtain ⟨hrm, hn⟩ := ‹Removing σ D s₀ _ ∧ NamesAll _ _›
    exact ⟨hrm, request_of_session ‹_› ‹_› hR, hn⟩
  all_goals first
    | exact ‹Converging σ _ _›
    | exact Removing.converging ‹_›
    | exact (‹(_ ∧ Removing σ D s₀ _) ∧ _›).1.2
    | exact (‹(_ ∧ Removing σ D s₀ _) ∧ _›).1.2.converging
    | (intros; exact Removing.converging ⟨‹_›, ‹_›⟩)

end Runs

/-! ### Finalizing -/

/-- A state of the removal phase of a finalize, which first wrote the request's status: from
the store `s₁` it wrote, what the phase deleted so far is removable. -/
def Finalizing (σ : Config.Settings) (s₀ : Store) (R : View) (st : Reconciling × ResourceCache) :
    Prop :=
  ∃ s₁, RequestStatusWrite s₀ s₁ ∧
    Removing σ (Removable s₁ (σ.get "cluster_operator_namespace") R true) s₁ st

section Finalize

variable {σ : Config.Settings} {s₀ : Store} {R : View} {m : Value}

/-- A state whose store is `s₀` or has the request's status written starts the removal. -/
theorem finalizing_of_written (hs₀ : s₀.WF) {st : Reconciling × ResourceCache}
    (h : PlainWith σ (RequestStatusWrite s₀) st.1.world ∧ st.2 = ⟨[]⟩) : Finalizing σ s₀ R st := by
  obtain ⟨hw, hc⟩ := h
  refine ⟨_, hw.store, ⟨hw.plain, hw.settings, Pruned.refl (hw.store.wf hs₀)⟩, ?_⟩
  rw [hc]
  exact cacheHolds_empty _

theorem plainWith_unwritten {w : World} (h : PlainWith σ (· = s₀) w) :
    PlainWith σ (RequestStatusWrite s₀) w :=
  ⟨h.plain, h.settings, .inl h.store⟩

/-- Writing the status of a request, from `s₀`, leaves `s₀` or `s₀` with it written. -/
theorem setStatus_first (s₀ : Store) (new : Value) :
    ⦃fun r => ⌜r.session.kind = .str requestKind ∧ PlainWith σ (· = s₀) r.world⌝⦄
    ReconcileM.setStatus new
    ⦃post⟨fun _ r => ⌜PlainWith σ (RequestStatusWrite s₀) r.world⌝,
      fun _ r => ⌜PlainWith σ (RequestStatusWrite s₀) r.world⌝⟩⦄ := by
  have hset : ∀ kind name ns status v,
      ⦃fun r => ⌜PlainWith σ (· = s₀) r.world ∧ kind = .str requestKind⌝⦄
      (MonadLift.monadLift (Cluster.setStatus kind name ns status v) : ReconcileM (Bool × Bool))
      ⦃post⟨fun _ r => ⌜PlainWith σ (RequestStatusWrite s₀) r.world⌝,
        fun _ r => ⌜PlainWith σ (RequestStatusWrite s₀) r.world⌝⟩⦄ := by
    intro kind name ns status v
    refine triple_of_fact fun hk => triple_conseq (liftCluster_spec
      (plainWith_setStatus (σ := σ) (Q := RequestStatusWrite s₀) kind name ns status v) fun _ => True)
      (fun r (hr : PlainWith σ (· = s₀) r.world) => ⟨trivial, plainWith_unwritten hr, ?_⟩)
      (fun _ _ h => h.2) fun _ _ h => h.2
    -- the write leaves `s₀`, or `s₀` with the status of an object of the request kind written
    rw [hr.store]
    exact state_of_triple (setStatus_spec s₀ kind name ns status v)
      (fun _ _ h => h.imp id fun hw => ⟨ns, name, status, hk ▸ hw⟩) fun _ _ h => .inl h
  mvcgen [ReconcileM.setStatus, ReconcileM.session, ReconcileM.check_eq,
    ReconcileM.modifySession, hset]
  all_goals first
    | exact plainWith_unwritten (‹_ ∧ PlainWith σ (· = s₀) _›).2
    | exact ⟨(‹_ ∧ PlainWith σ (· = s₀) _›).2, (‹_ ∧ PlainWith σ (· = s₀) _›).1⟩

/-- Listing the operands of a request changes nothing. -/
theorem operandNames_spec (request : View) {P : Reconciling × ResourceCache → Prop} :
    ⦃fun st => ⌜P st⌝⦄ operandNames request
    ⦃post⟨fun _ st => ⌜P st⌝, fun _ st => ⌜P st⌝⟩⦄ := by
  mvcgen [operandNames, RequestM.check_eq]
    invariants
    · post⟨fun _ st => ⌜P st⌝, fun _ st => ⌜P st⌝⟩
    · post⟨fun _ st => ⌜P st⌝, fun _ st => ⌜P st⌝⟩

/-- Removing an operand while finalizing keeps the removal phase, from whichever store the
status write left. -/
theorem removeOperand_finalizing (hs₀ : s₀.WF)
    (hsafe : SafeExamples s₀ (σ.get "cluster_operator_namespace")) (name : Value) :
    ⦃fun st => ⌜Finalizing σ s₀ R st⌝⦄ tryItem (removeOperand R name)
    ⦃post⟨fun _ st => ⌜Finalizing σ s₀ R st⌝, fun _ st => ⌜Finalizing σ s₀ R st⌝⟩⦄ :=
  triple_exists fun _ => triple_with_fact fun h =>
    tryItem_spec (removeOperand_spec (h.wf hs₀) (hsafe.after h hs₀) (.inl rfl))

theorem finalizeRequestM_spec (hs₀ : s₀.WF)
    (hsafe : SafeExamples s₀ (σ.get "cluster_operator_namespace"))
    (hR : View.ofManifest m = .ok R) :
    ⦃fun st => ⌜st.1.session.manifest = m ∧ st.1.session.kind = .str requestKind ∧
      PlainWith σ (· = s₀) st.1.world ∧ st.2 = ⟨[]⟩⌝⦄
    finalizeRequestM
    ⦃post⟨fun _ st => ⌜Finalizing σ s₀ R st⌝, fun _ st => ⌜Finalizing σ s₀ R st⌝⟩⦄ := by
  have hsession := session_spec (P := fun st => st.1.session.manifest = m ∧
    st.1.session.kind = .str requestKind ∧ PlainWith σ (· = s₀) st.1.world ∧ st.2 = ⟨[]⟩)
  have hset := fun new => liftReconcile_spec (setStatus_first (σ := σ) s₀ new) (· = ⟨[]⟩)
  have hnames := fun request => operandNames_spec (P := Finalizing σ s₀ R) request
  have hrem : ∀ (request : View) name,
      ⦃fun st => ⌜Finalizing σ s₀ R st ∧ request = R⌝⦄ tryItem (removeOperand request name)
      ⦃post⟨fun _ st => ⌜Finalizing σ s₀ R st⌝, fun _ st => ⌜Finalizing σ s₀ R st⌝⟩⦄ :=
    fun request name => triple_of_fact fun h => by
      rw [h]
      exact removeOperand_finalizing hs₀ hsafe name
  have hraise := fun errors => raiseGathered_spec (P := Finalizing σ s₀ R) errors
  mvcgen [finalizeRequestM, RequestM.check_eq, hsession, hset, hnames, hrem, hraise]
    invariants
    · post⟨fun _ st => ⌜Finalizing σ s₀ R st⌝, fun _ st => ⌜Finalizing σ s₀ R st⌝⟩
    · post⟨fun _ st => ⌜Finalizing σ s₀ R st⌝, fun _ st => ⌜Finalizing σ s₀ R st⌝⟩
    · post⟨fun _ st => ⌜Finalizing σ s₀ R st⌝, fun _ st => ⌜Finalizing σ s₀ R st⌝⟩
  -- the request is the one read from the session's manifest
  case vc11 => exact ⟨‹_›, request_of_session ‹_› ‹_› hR⟩
  all_goals first
    | (obtain ⟨⟨-, hk, hw, hc⟩, -⟩ := ‹(_ ∧ _ ∧ _ ∧ _) ∧ _›; exact ⟨⟨hk, hw⟩, hc⟩)
    | exact finalizing_of_written hs₀ ‹_›
    | exact fun hw hc => finalizing_of_written hs₀ ⟨hw, hc⟩
    | exact fun _ _ hw hc => finalizing_of_written hs₀ ⟨plainWith_unwritten hw, hc⟩
    | (obtain ⟨⟨-, -, hw, hc⟩, -⟩ := ‹(_ ∧ _ ∧ _ ∧ _) ∧ _›
       exact finalizing_of_written hs₀ ⟨plainWith_unwritten hw, hc⟩)

end Finalize

/-! ### Delete safety of a request run -/

/-- The installation a Subscription resolved to is read from the store. -/
theorem installationIn_get {s : Store} {sub csv : Value}
    (h : installationIn s sub = .ok (some csv)) :
    ∃ name ns, s.get (.str installationKind) name ns (.str lifecycleApiVersion) = .ok (some csv) := by
  unfold installationIn at h
  obtain ⟨_, -, h⟩ := except_bind_eq_ok h
  obtain ⟨_, -, h⟩ := except_bind_eq_ok h
  -- the name comes from `installedCSV`, or from `currentCSV` when that is not set
  simp only at h
  split at h
  all_goals
    obtain ⟨name, -, h⟩ := except_bind_eq_ok h
    obtain ⟨_, -, h⟩ := except_bind_eq_ok h
    obtain ⟨ns, -, h⟩ := except_bind_eq_ok h
    cases hn : name.truthy
    · simp only [hn, Bool.not_false, if_true] at h
      obtain ⟨_, -, h⟩ := except_bind_eq_ok h
      cases h
    · simp only [hn, Bool.not_true, Bool.false_eq_true, if_false] at h
      exact ⟨name, ns, h⟩

/-- The installation an operator resolves to is read from the store. -/
theorem installationOfIn_get {s : Store} {shared : Value} {op : Operator} {sub : Option Value}
    {csv : Value} (h : installationOfIn s shared op = .ok (sub, some csv)) :
    ∃ name ns, s.get (.str installationKind) name ns (.str lifecycleApiVersion) = .ok (some csv) := by
  unfold installationOfIn at h
  obtain ⟨found, -, h⟩ := except_bind_eq_ok h
  cases found with
  | none => cases h
  | some x =>
    obtain ⟨c, hc, h⟩ := except_bind_eq_ok h
    cases h
    exact installationIn_get hc

/-- A store that holds no installation has no example to fear: no operator resolves to one. -/
theorem safeExamples_of_uninstalled {s : Store} (hs : s.Keyed)
    (h : ∀ b o, s.objectAt b = some o → b.kind ≠ .str installationKind) (shared : Value) :
    SafeExamples s shared := by
  intro op sub csv _ _ _ hinst
  obtain ⟨name, ns, hget⟩ := installationOfIn_get hinst
  obtain ⟨_, -, hb⟩ := found_of_get hs hget
  exact absurd rfl (h _ _ hb)

/-- A request reconcile run from an empty cache ends in a reconciling state its spec's
postcondition holds of, with whatever cache it filled. -/
theorem withCache_post {m : RequestM Unit} {P Q : Reconciling × ResourceCache → Prop}
    (h : ⦃fun st => ⌜P st⌝⦄ m ⦃post⟨fun _ st => ⌜Q st⌝, fun _ st => ⌜Q st⌝⟩⦄) {r : Reconciling}
    (hr : P (r, ⟨[]⟩)) : ∃ c, Q (((withCache m).run.run r).2, c) := by
  have hrun := (triple_iff_run _ _ _).1 h (r, ⟨[]⟩) hr
  rcases hm : m.run.run (r, ⟨[]⟩) with ⟨_ | _, r', c⟩
  all_goals
    rw [hm] at hrun
    refine ⟨c, ?_⟩
    simp only [withCache, ExceptT.run_mk, StateT.run_modifyGet, hm]
    exact hrun

variable {r : Reconciling} {R : View}

end Controllers

end OperandLifecycle

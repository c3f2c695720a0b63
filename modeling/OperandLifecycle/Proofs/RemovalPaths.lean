import OperandLifecycle.Proofs.RequestSteps
/-!
# What a request may remove

A request run removes the managed resources of the operands its request no longer names, and
a finalize those of every operand. The removal of an operand `X` goes through a registry the
request names, or one whose status lists the request among `X`'s requesters; through the
operator the registry declares for `X`, the service of the configuration of the same name,
and the installation the operator resolves to, whose namespace no other request refers to
`X` through. Each example of the installation whose kind the service configures is deleted
by a selection: of the example's kind and version, in the installation's namespace, labelled
`operandLabel=X` and named as the example, as the store's selectors read these.

`Removal` is such a path, down to one example, and `Removable` the objects the deletion at its
end selects. `Pruned` is what the removal phase leaves of the store it starts from: it shows
the kinds the removal reads (`lookupKinds`) as before, and every address holds what it held,
or held an object removable, or is an Event kept through its life.
-/

namespace OperandLifecycle.Controllers

open Json Cluster Store Reconcile Resource Catalog

/-! ### Removal paths -/

/-- The kinds of the objects a request run reads to decide what to remove. -/
def lookupKinds : List String :=
  [registryKind, configKind, requestKind, subscriptionKind, installationKind]

/-- Every example of every installation the store resolves is of a kind the run neither reads
to decide what to remove nor posts. -/
def SafeExamples (s : Store) (shared : Value) : Prop :=
  ∀ op sub csv samples sample kind, installationOfIn s shared op = .ok (sub, some csv) →
    examplesOf csv = .ok samples → sample ∈ samples → sample.index "kind" = .ok kind →
    ∀ K ∈ "Event" :: lookupKinds, kind ≠ .str K

/-- The request's entries list their operands, and none is named as the operand. -/
def Unnamed (R : View) (X : Value) : Prop :=
  ∃ entries, R.requests = .ok entries ∧
    ∀ e ∈ entries, ∃ ops, e.operands = .ok ops ∧ ∀ o ∈ ops, o.name.equiv X = false

/-- A run may remove the operand: it finalizes the request, or the request no longer names
it. -/
def Dropped (finalizing : Bool) (R : View) (X : Value) : Prop :=
  finalizing = true ∨ Unnamed R X

/-- A registry the removal of an operand goes through: one an entry of the request names, or
one whose status lists the request among the operand's requesters. -/
def Reaches (s : Store) (R : View) (X : Value) (registry : View) : Prop :=
  (∃ entries, R.requests = .ok entries ∧ ∃ e ∈ entries,
    viewAt s registryKind e.registryNamespace e.registry = .ok (some registry)) ∨
  ∃ listed, s.list (.str registryKind) .null (.str apiVersion) .null .null = .ok listed ∧
    ∃ m ∈ listed, View.ofManifest m = .ok registry ∧
      listsRequester registry X (Referent.ofView R) = .ok true

/-- No request of the store but `R`, of the version requests are listed at and not being
deleted, refers to the operand through an operator installed in `ns`. -/
def NoOtherReferent (s : Store) (shared : Value) (R : View) (X ns : Value) : Prop :=
  ∀ b m v, s.objectAt b = some m → b.kind = .str requestKind → b.apiVersion = .str apiVersion →
    View.ofManifest m = .ok v → v.deleting = false →
    (Referent.ofView R).same (Referent.ofView v) = false → ¬ ResolvesThrough s shared v X ns

/-- How the removal of operand `X` for request `R` reaches one example of the installation:
the registry, the operator it declares, the service its configuration gives, the installation
and its namespace, and the example, of a configured kind and with a name. -/
structure Removal (s : Store) (shared : Value) (R : View) (X : Value) where
  registry : View
  reaches : Reaches s R X registry
  operator : Operator
  declared : registry.operatorNamed X = .ok (some operator)
  config : View
  configured : viewAt s configKind registry.namespace registry.name = .ok (some config)
  service : Service
  served : config.serviceNamed X = .ok (some service)
  subscription : Option Value
  installation : Value
  installed : installationOfIn s shared operator = .ok (subscription, some installation)
  ns : Value
  placed : (do (← installation.index "metadata").index "namespace") = .ok ns
  alone : NoOtherReferent s shared R X ns
  samples : List Value
  examples : examplesOf installation = .ok samples
  sample : Value
  listed : sample ∈ samples
  kind : Value
  kindOf : sample.index "kind" = .ok kind
  matched : ∃ k, service.matchKind kind = .ok (some k)
  name : Value
  named : (do (← sample.field "metadata").orEmpty.field "name") = .ok name
  truthy : name.truthy = true

/-- The objects the deletion at the end of a removal selects. -/
def Removal.Selects {s : Store} {shared : Value} {R : View} {X : Value} (p : Removal s shared R X)
    (b : Address) (o : Value) : Prop :=
  Selected p.kind p.ns (p.sample.getD "apiVersion") (.str (operandLabel ++ "=" ++ X.display))
    (.str ("metadata.name=" ++ p.name.display)) b o

/-- An object a run of request `R` may delete from `s`: one the removal of an operand the run
drops selects. -/
def Removable (s : Store) (shared : Value) (R : View) (finalizing : Bool) (b : Address)
    (o : Value) : Prop :=
  ∃ X, Dropped finalizing R X ∧ ∃ p : Removal s shared R X, p.Selects b o

/-- A text other than an object's kind equals the kind nowhere. -/
theorem str_heldEquiv_eq_false {K : String} {x : Value} (h : x ≠ .str K) :
    (Value.str K).heldEquiv x = false := by
  cases hx : (Value.str K).heldEquiv x
  · rfl
  · exact absurd (Value.heldEquiv_str_iff.1 (Value.heldEquiv_symm rfl hx)) h

/-! ### Reads that see only the kinds the removal reads -/

section Lookups

variable {s s' : Store}

theorem subscriptionAmong_eq_of_sameKind (h : SameKind (.str subscriptionKind) s s')
    (ns : Value) : ∀ names, subscriptionAmong s ns names = subscriptionAmong s' ns names
  | [] => rfl
  | name :: rest => by
    simp only [subscriptionAmong, get_eq_of_sameKind h, subscriptionAmong_eq_of_sameKind h ns rest]

/-- Stores that show Subscriptions and installations alike resolve operators alike. -/
theorem installationOfIn_eq_of_sameKind (hsub : SameKind (.str subscriptionKind) s s')
    (hcsv : SameKind (.str installationKind) s s') (shared : Value) (op : Operator) :
    installationOfIn s shared op = installationOfIn s' shared op := by
  simp only [installationOfIn, subscriptionIn, installationIn, get_eq_of_sameKind hcsv,
    subscriptionAmong_eq_of_sameKind hsub]

theorem registryAt_eq_of_sameKind (h : SameKind (.str registryKind) s s') :
    registryAt s = registryAt s' := by
  funext ns name
  simp only [registryAt, get_eq_of_sameKind h]

theorem resolvesTo_eq_of_sameKind (h : SameKind (.str registryKind) s s') :
    resolvesTo s = resolvesTo s' := by
  -- each registry an entry looks up is looked up in a store that shows registries alike
  have hstep : namespaceStep s = namespaceStep s' := by
    funext shared operand entry namespaces found
    simp only [namespaceStep, registryAt_eq_of_sameKind h]
  have hentry : entryStep s = entryStep s' := by
    funext shared operand namespaces entry
    simp only [entryStep, hstep]
  funext shared operand operatorNs request
  simp only [resolvesTo, operandNamespaces, hentry]

/-- Stores that show requests and registries alike find the same requests referring to an
operand. -/
theorem freshNamespaceReferents_eq_of_sameKind (hs : s.Keyed) (hs' : s'.Keyed)
    (hreq : SameKind (.str requestKind) s s') (hreg : SameKind (.str registryKind) s s')
    (shared operand operatorNs : Value) (exclude : List Referent) :
    freshNamespaceReferents s shared operand operatorNs exclude =
      freshNamespaceReferents s' shared operand operatorNs exclude := by
  simp only [freshNamespaceReferents, requestsIn, resolvesTo_eq_of_sameKind hreg,
    list_eq_of_sameKind rfl hs hs' hreq]

end Lookups

/-- When no request but `R` is found referring to the operand through `ns`, no request of the
store but `R` refers to it so. -/
theorem noOtherReferent_of_fresh {s : Store} (hs : s.WF) {shared : Value} {R : View}
    {X ns : Value}
    (h : freshNamespaceReferents s shared X ns [Referent.ofView R] = .ok []) :
    NoOtherReferent s shared R X ns := by
  intro b m v hat hkind hver hview hdel hsame hres
  unfold freshNamespaceReferents requestsIn at h
  cases hk : [Referent.ofView R].forM Referent.requireKey with
  | error e => simp [hk] at h
  | ok u =>
  cases hl : s.list (.str requestKind) .null (.str apiVersion) .null .null with
  | error e => simp [hk, hl] at h
  | ok manifests =>
  cases hvs : manifests.mapM View.ofManifest with
  | error e => simp [hk, hl, hvs] at h
  | ok views =>
  simp only [hk, hl, hvs, except_ok_bind] at h
  obtain ⟨-, hviews, hset⟩ := mem_selectReferents h
  -- the request's manifest is listed, and so is its view
  obtain ⟨a, hf, hab⟩ := exists_filed_of_objectAt hat
  have hakind : a.kind.heldEquiv (.str requestKind) = true := hkind ▸ hab.2.1
  have haver : a.apiVersion = .str apiVersion := Value.heldEquiv_str_iff.1 (hver ▸ hab.2.2.1)
  have hm : m ∈ manifests := mem_list_of_filed hs.keyed hl hf hakind (.inl rfl)
    (versionFits_str_iff.2 haver) rfl
  obtain ⟨v', hv', hv'eq⟩ := exists_mem_of_mapM hvs m hm
  rw [hview] at hv'eq
  cases hv'eq
  -- counted and tested, it would be among the referents found, and none is
  obtain ⟨c, hc, htest⟩ := hviews v hv'
  obtain ⟨hkeyed, hcount⟩ := counts_ok hc
  obtain rfl : c = true := hcount.2 ⟨by simpa using hsame, hdel⟩
  obtain ⟨t, ht⟩ := htest rfl
  obtain rfl : t = true := (resolvesTo_ok ht).2 hres
  obtain ⟨x, hx, -⟩ := (hset (Referent.ofView v)).2 ⟨v, hv', hc, ht, Referent.same_self hkeyed⟩
  cases hx

/-! ### What the removal phase leaves -/

/-- What the removal phase of a run leaves of the store `s₀` it starts from: a well-formed store
that shows the kinds the removal reads as `s₀` does, and where every address holds what it
held, or held an object `D` lets the run delete, or is an Event kept through its life unless
pending. -/
structure Pruned (D : Address → Value → Prop) (s₀ s : Store) : Prop where
  wf : s.WF
  lookups : ∀ K ∈ lookupKinds, SameKind (.str K) s₀ s
  changed : ∀ b, s.objectAt b = s₀.objectAt b ∨ (∃ o, s₀.objectAt b = some o ∧ D b o) ∨
    (b.kind = .str "Event" ∧ ∀ o, s₀.objectAt b = some o →
      (∃ o', s.objectAt b = some o' ∧ Kept o o') ∨ Pending o)

namespace Pruned

variable {D : Address → Value → Prop} {s₀ s s' : Store}

theorem refl (hs : s.WF) : Pruned D s s :=
  ⟨hs, fun _ _ => SameKind.refl _ s, fun _ => .inl rfl⟩

/-- Posting events keeps what the removal phase leaves. -/
theorem event (h : Pruned D s₀ s) (hw : Within eventFootprint s s') : Pruned D s₀ s' where
  wf := hw.wf
  lookups K hK := (h.lookups K hK).trans (hw.listings _ rfl fun k hk => by
    subst hk
    refine str_heldEquiv_eq_false fun he => ?_
    simp only [lookupKinds, List.mem_cons, List.not_mem_nil, or_false] at hK
    rcases hK with rfl | rfl | rfl | rfl | rfl <;> simp [registryKind, configKind, requestKind,
      subscriptionKind, installationKind] at he)
  changed b := by
    rcases h.changed b with hb | hD | ⟨hev, hk⟩
    · -- an Event may be written over, any other address keeps its object
      by_cases hev : b.kind = .str "Event"
      · exact .inr (.inr ⟨hev, fun o ho => hw.keeps b o (hb.trans ho)⟩)
      · exact .inl ((hw.frame b hev id).trans hb)
    · exact .inr (.inl hD)
    · refine .inr (.inr ⟨hev, fun o ho => ?_⟩)
      rcases hk o ho with ⟨o', ho', hko⟩ | hp
      · rcases hw.keeps b o' ho' with ⟨o'', ho'', hko'⟩ | hp'
        · exact .inl ⟨o'', ho'', hko.trans hko'⟩
        · exact .inr (hp'.of_kept hko)
      · exact .inr hp

/-- Deleting what a listing finds keeps what the removal phase leaves, when the kind listed is
none the removal reads or posts, and `D` allows every object of `s₀` the listing selects. -/
theorem deleteListed (h : Pruned D s₀ s) {kind ns v l f : Value} {listed : List Value}
    (hl : s.list kind ns v l f = .ok listed) (hkind : ∀ K ∈ "Event" :: lookupKinds, kind ≠ .str K)
    (hD : ∀ b m, s₀.objectAt b = some m → Selected kind ns v l f b m → D b m) (now : Stamp) :
    Pruned D s₀ ((Store.deleteListed kind listed now).run.run s).2 := by
  have hsd : SparedDeletion kind listed s ((Store.deleteListed kind listed now).run.run s).2 :=
    state_of_triple (deleteListed_spares s h.wf kind listed now) (fun _ _ h => h) fun _ _ h => h
  refine ⟨hsd.outcome.wf, fun K hK => (h.lookups K hK).trans
    (hsd.others _ (str_heldEquiv_eq_false (hkind K (List.mem_cons_of_mem _ hK)))), fun b => ?_⟩
  rcases hsd.touches h.wf hl b with hb | ⟨m, hm, hsel⟩
  · rcases h.changed b with hb' | hD' | ⟨hev, hk⟩
    · exact .inl (hb.trans hb')
    · exact .inr (.inl hD')
    · exact .inr (.inr ⟨hev, fun o ho => by rw [hb]; exact hk o ho⟩)
  -- a selected object: held by `s₀` and allowed, or allowed already; an Event is never selected
  · rcases h.changed b with hb' | hD' | ⟨hev, -⟩
    · exact .inr (.inl ⟨m, hb'.symm.trans hm, hD b m (hb'.symm.trans hm) hsel⟩)
    · exact .inr (.inl hD')
    · have hk : (Value.str "Event").heldEquiv kind = true := hev ▸ hsel.1
      rw [str_heldEquiv_eq_false (hkind _ List.mem_cons_self)] at hk
      cases hk

/-- The reads of the removal see the kinds of `lookupKinds` as `s₀` holds them. -/
theorem installationOfIn_eq (h : Pruned D s₀ s) (shared : Value) (op : Operator) :
    installationOfIn s shared op = installationOfIn s₀ shared op :=
  (installationOfIn_eq_of_sameKind (h.lookups _ (by simp [lookupKinds]))
    (h.lookups _ (by simp [lookupKinds])) shared op).symm

theorem freshNamespaceReferents_eq (h : Pruned D s₀ s) (hs₀ : s₀.WF)
    (shared operand operatorNs : Value) (exclude : List Referent) :
    freshNamespaceReferents s shared operand operatorNs exclude =
      freshNamespaceReferents s₀ shared operand operatorNs exclude :=
  (freshNamespaceReferents_eq_of_sameKind hs₀.keyed h.wf.keyed
    (h.lookups _ (by simp [lookupKinds])) (h.lookups _ (by simp [lookupKinds])) _ _ _ _).symm

theorem list_registries_eq (h : Pruned D s₀ s) (hs₀ : s₀.WF) (ns v l f : Value) :
    s.list (.str registryKind) ns v l f = s₀.list (.str registryKind) ns v l f :=
  (list_eq_of_sameKind rfl hs₀.keyed h.wf.keyed (h.lookups _ (by simp [lookupKinds])) _ _ _ _).symm

end Pruned

end OperandLifecycle.Controllers

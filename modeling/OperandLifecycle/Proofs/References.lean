import OperandLifecycle.Proofs.Reads
import OperandLifecycle.Catalog.Referents
/-!
# Which requests refer to an operand

The questions of `Catalog` only read the cluster. In a plain world each reads as a computation on
the store (`Cluster.ReadsAs`), and this module gives those computations and what they answer.

* `requestsIn s` lists the requests of the store, `registryAt s ns name` looks a registry up.
* `operandNamespaces` resolves every entry of a request naming an operand to the namespace of
  the operand's operator, looking every registry up afresh. `namespaceReferents` shares one
  cache of registries over all requests, misses included; it reads as the fresh lookups all
  the same (`readsAs_namespaceReferents`), since the store does not change while it asks.
* `selectReferents` keeps the requests that count and pass a test, each once; both questions
  are such a selection (`readsAs_referentsOf`, `readsAs_namespaceReferents`).

The answers are sets of requests described by the entries of each request
(`mem_selectReferents`, `any_operandNamespaces`, `isSome_findOperand`).
-/

namespace OperandLifecycle.Catalog

open Json Cluster Resource

/-! ### The computations the questions read as -/

/-- The requests of the store, as views. -/
def requestsIn (s : Store) : Except Failure (List View) := do
  let manifests ← s.list (.str requestKind) .null (.str apiVersion) .null .null
  manifests.mapM View.ofManifest

/-- The registry a lookup found, as a view; `none` for nothing found. -/
def registryOf (found : Option Value) : Except Failure (Option View) :=
  match found with
  | some m => if m.truthy then some <$> View.ofManifest m else pure none
  | none => pure none

/-- The registry of a namespace and name as the store holds it; `none` when there is none. -/
def registryAt (s : Store) (ns name : Value) : Except Failure (Option View) := do
  if !ns.hashable then throw (unhashable ns)
  if !name.hashable then throw (unhashable name)
  registryOf (← s.get (.str registryKind) name ns (.str apiVersion))

/-- Adds a value to a list unless an equal one is there. -/
def addDistinct (vs : List Value) (v : Value) : List Value :=
  if vs.any (·.equiv v) then vs else vs ++ [v]

/-- One operand of an entry: when it is the operand, the namespace of the operator the entry's
registry declares for it joins the list; `shared` is the namespace of operators installed
cluster-wide. -/
def namespaceStep (s : Store) (shared operand : Value) (entry : RequestEntry)
    (namespaces : List Value) (found : Operand) : Except Failure (List Value) := do
  if !found.name.equiv operand then return namespaces
  let registry ← registryAt s entry.registryNamespace entry.registry
  let operator ← match registry with
    | some r => r.operatorNamed operand
    | none => pure none
  match operator with
  | some op =>
    let ns := operatorNamespace shared op
    if !ns.hashable then throw (unhashable ns)
    pure (addDistinct namespaces ns)
  | none => pure namespaces

/-- One entry of a request: each of its operands in turn. -/
def entryStep (s : Store) (shared operand : Value) (namespaces : List Value)
    (entry : RequestEntry) : Except Failure (List Value) := do
  (← entry.operands).foldlM (namespaceStep s shared operand entry) namespaces

/-- The namespaces of the operand's operator through every entry of the request naming it,
each registry looked up afresh. -/
def operandNamespaces (s : Store) (shared : Value) (request : View) (operand : Value) :
    Except Failure (List Value) := do
  (← request.requests).foldlM (entryStep s shared operand) []

/-- One request of a selection: it joins when it counts and passes the test. -/
def selectStep (exclude : List Referent) (test : View → Except Failure Bool)
    (found : List Referent) (request : View) : Except Failure (List Referent) := do
  if !(← counts exclude request) then return found
  if ← test request then return addReferent found (Referent.ofView request)
  return found

/-- The requests among `views` that count and pass `test`, each once, in order of first
appearance. -/
def selectReferents (exclude : List Referent) (test : View → Except Failure Bool)
    (views : List View) : Except Failure (List Referent) :=
  views.foldlM (selectStep exclude test) []

/-- Whether the request's entries for the operand resolve to an operator in `operatorNs`. -/
def resolvesTo (s : Store) (shared operand operatorNs : Value) (request : View) :
    Except Failure Bool := do
  let namespaces ← operandNamespaces s shared request operand
  if !operatorNs.hashable then throw (unhashable operatorNs)
  pure (namespaces.any (·.equiv operatorNs))

/-- The requests whose entries for the operand resolve to an operator in `operatorNs`, every
registry looked up afresh. -/
def freshNamespaceReferents (s : Store) (shared operand operatorNs : Value)
    (exclude : List Referent) : Except Failure (List Referent) := do
  exclude.forM Referent.requireKey
  selectReferents exclude (resolvesTo s shared operand operatorNs) (← requestsIn s)

/-- The namespace where the operators installed for the whole cluster live. -/
def sharedNamespace (w : World) : Value := w.settings.get "cluster_operator_namespace"

/-- The requests naming the operand, optionally through a registry of a given name and
namespace. -/
def freshReferents (s : Store) (operand registry registryNamespace : Value)
    (exclude : List Referent) : Except Failure (List Referent) := do
  exclude.forM Referent.requireKey
  selectReferents exclude (fun r => Option.isSome <$> r.findOperand operand registry registryNamespace)
    (← requestsIn s)

/-! ### Referents as a set

A list of referents stands for the set of requests it names: a referent is in the set when
some item is `Referent.same` as it. On referents whose parts can serve as keys, `same` is an
equivalence, so the set does not depend on order or on repeats (`exists_same_addReferent`).
-/

/-- A referent whose name and namespace can serve as keys. -/
def Referent.Keyed (r : Referent) : Prop := r.name.hashable = true ∧ r.ns.hashable = true

theorem Referent.keyed_of_requireKey {r : Referent} (h : r.requireKey = .ok ()) : r.Keyed := by
  unfold Referent.requireKey at h
  by_cases hn : r.name.hashable = true <;> by_cases hs : r.ns.hashable = true <;>
    simp_all [Referent.Keyed]

theorem Referent.same_trans {a b c : Referent} (ha : a.Keyed) (hab : a.same b = true)
    (hbc : b.same c = true) : a.same c = true := by
  simp only [Referent.same, Bool.and_eq_true] at *
  exact ⟨Value.heldEquiv_trans ha.1 hab.1 hbc.1, Value.heldEquiv_trans ha.2 hab.2 hbc.2⟩

/-- Adding a referent adds it to the set, whether or not the list already named it. -/
theorem exists_same_addReferent {found : List Referent} (hfound : ∀ x ∈ found, x.Keyed)
    (r ref : Referent) :
    (∃ x ∈ addReferent found r, x.same ref = true) ↔
      (∃ x ∈ found, x.same ref = true) ∨ r.same ref = true := by
  unfold addReferent
  split
  · next hany =>
    obtain ⟨y, hy, hyr⟩ := List.any_eq_true.1 hany
    refine ⟨.inl, ?_⟩
    rintro (h | h)
    · exact h
    · exact ⟨y, hy, Referent.same_trans (hfound y hy) hyr h⟩
  · simp [or_and_right, exists_or]

/-- A list of referents as a set holds them: every one keyed, no two the same. -/
structure Distinct (found : List Referent) : Prop where
  keyed : ∀ x ∈ found, x.Keyed
  pairwise : found.Pairwise (fun a b => a.same b = false)

theorem distinct_nil : Distinct [] := ⟨(fun _ h => nomatch h), List.Pairwise.nil⟩

theorem Distinct.addReferent {found : List Referent} (hd : Distinct found) {r : Referent}
    (hr : r.Keyed) : Distinct (addReferent found r) := by
  unfold Catalog.addReferent
  split
  · exact hd
  · next hany =>
    refine ⟨fun x hx => ?_, List.pairwise_append.2 ⟨hd.pairwise, List.pairwise_singleton _ r, ?_⟩⟩
    · rcases List.mem_append.1 hx with hx | hx
      · exact hd.keyed x hx
      · rw [List.mem_singleton.1 hx]
        exact hr
    · intro x hx y hy
      rw [List.mem_singleton.1 hy]
      simpa using List.any_eq_false.1 (Bool.eq_false_iff.2 hany) x hx

/-- A request counts when it is not excluded and not being deleted; its referent must be keyed. -/
theorem counts_ok {exclude : List Referent} {request : View} {b : Bool}
    (h : counts exclude request = .ok b) :
    (Referent.ofView request).Keyed ∧
      (b = true ↔ exclude.any (·.same (Referent.ofView request)) = false ∧
        request.deleting = false) := by
  unfold counts at h
  cases hk : (Referent.ofView request).requireKey with
  | error e => simp [hk] at h
  | ok u =>
    simp only [hk, except_ok_bind, except_pure, Except.ok.injEq] at h
    subst h
    exact ⟨Referent.keyed_of_requireKey hk, by simp⟩

/-! ### Selections of requests -/

section Select

variable {exclude : List Referent} {test : View → Except Failure Bool}

/-- One step of a selection adds its request to the set exactly when it counts and passes. -/
theorem selectStep_ok {found found' : List Referent} {request : View} (hd : Distinct found)
    (h : selectStep exclude test found request = .ok found') :
    Distinct found' ∧ (∃ b, counts exclude request = .ok b ∧ (b = true → ∃ t, test request = .ok t)) ∧
      ∀ ref, (∃ x ∈ found', x.same ref = true) ↔ (∃ x ∈ found, x.same ref = true) ∨
        (counts exclude request = .ok true ∧ test request = .ok true ∧
          (Referent.ofView request).same ref = true) := by
  unfold selectStep at h
  cases hc : counts exclude request with
  | error e => simp [hc] at h
  | ok b =>
    cases b with
    | false =>
      simp only [hc, except_ok_bind, Bool.not_false, if_true, except_pure, Except.ok.injEq] at h
      subst h
      exact ⟨hd, ⟨false, rfl, nofun⟩, fun ref => by simp⟩
    | true =>
      cases ht : test request with
      | error e => simp [hc, ht] at h
      | ok t =>
        refine ⟨?_, ⟨true, rfl, fun _ => ⟨t, rfl⟩⟩, fun ref => ?_⟩ <;> cases t <;>
          simp only [hc, ht, except_ok_bind, Bool.not_true, Bool.false_eq_true, if_false, if_true,
            except_pure, Except.ok.injEq] at h <;> subst h
        · exact hd
        · exact hd.addReferent (counts_ok hc).1
        · simp
        · rw [exists_same_addReferent hd.keyed]
          simp

/-- A selection holds every request of the list that counts and passes the test, and no other. -/
theorem foldlM_selectStep : ∀ (views : List View) {found found' : List Referent},
    Distinct found → views.foldlM (selectStep exclude test) found = .ok found' →
    Distinct found' ∧
      (∀ r ∈ views, ∃ b, counts exclude r = .ok b ∧ (b = true → ∃ t, test r = .ok t)) ∧
      ∀ ref, (∃ x ∈ found', x.same ref = true) ↔ (∃ x ∈ found, x.same ref = true) ∨
        ∃ r ∈ views, counts exclude r = .ok true ∧ test r = .ok true ∧
          (Referent.ofView r).same ref = true
  | [], found, found', hd, h => by
    simp only [List.foldlM_nil, except_pure, Except.ok.injEq] at h
    subst h
    simp [hd]
  | r :: rest, found, found', hd, h => by
    rw [List.foldlM_cons] at h
    cases hs : selectStep exclude test found r with
    | error e => simp [hs] at h
    | ok mid =>
      rw [hs, except_ok_bind] at h
      obtain ⟨hd₁, hr, hset₁⟩ := selectStep_ok hd hs
      obtain ⟨hd₂, hrest, hset₂⟩ := foldlM_selectStep rest hd₁ h
      refine ⟨hd₂, ?_, fun ref => ?_⟩
      · intro r' hr'
        rcases List.mem_cons.1 hr' with rfl | hr'
        · exact hr
        · exact hrest r' hr'
      · rw [hset₂, hset₁]
        simp only [List.mem_cons, exists_eq_or_imp, or_assoc]

theorem mem_selectReferents {views : List View} {found : List Referent}
    (h : selectReferents exclude test views = .ok found) :
    Distinct found ∧
      (∀ r ∈ views, ∃ b, counts exclude r = .ok b ∧ (b = true → ∃ t, test r = .ok t)) ∧
      ∀ ref, (∃ x ∈ found, x.same ref = true) ↔
        ∃ r ∈ views, counts exclude r = .ok true ∧ test r = .ok true ∧
          (Referent.ofView r).same ref = true := by
  obtain ⟨hd, hviews, hset⟩ := foldlM_selectStep views distinct_nil h
  exact ⟨hd, hviews, fun ref => by simpa using hset ref⟩

/-- `found` names, each once and up to `Referent.same`, the requests of `views` that are not
being deleted, not excluded and satisfy `P`. -/
def Selects (views : List View) (exclude : List Referent) (P : View → Prop)
    (found : List Referent) : Prop :=
  Distinct found ∧ ∀ ref, (∃ x ∈ found, x.same ref = true) ↔
    ∃ r ∈ views, r.deleting = false ∧ exclude.any (·.same (Referent.ofView r)) = false ∧ P r ∧
      (Referent.ofView r).same ref = true

/-- A selection by a test that decides `P` selects the requests satisfying `P`. -/
theorem selects_of_selectReferents {views : List View} {found : List Referent} {P : View → Prop}
    (hP : ∀ r t, test r = .ok t → (t = true ↔ P r))
    (h : selectReferents exclude test views = .ok found) : Selects views exclude P found := by
  obtain ⟨hd, hviews, hset⟩ := mem_selectReferents h
  refine ⟨hd, fun ref => (hset ref).trans ⟨?_, ?_⟩⟩
  · rintro ⟨r, hr, hc, ht, hs⟩
    obtain ⟨hex, hdel⟩ := (counts_ok hc).2.1 rfl
    exact ⟨r, hr, hdel, hex, (hP r true ht).1 rfl, hs⟩
  · rintro ⟨r, hr, hdel, hex, hp, hs⟩
    -- every listed request was counted, and one that counts was tested
    obtain ⟨b, hc, htest⟩ := hviews r hr
    obtain rfl : b = true := (counts_ok hc).2.2 ⟨hex, hdel⟩
    obtain ⟨t, ht⟩ := htest rfl
    obtain rfl : t = true := (hP r t ht).2 hp
    exact ⟨r, hr, hc, ht, hs⟩

end Select

/-! ### Looking registries up -/

/-- The store answers alike for equal names and namespaces. -/
theorem Store.get_congr (s : Store) (kind apiVersion : Value) {name name' ns ns' : Value}
    (hname : name.hashable = true) (hns : ns.hashable = true) (h : name.equiv name' = true)
    (h' : ns.equiv ns' = true) :
    s.get kind name ns apiVersion = s.get kind name' ns' apiVersion := by
  have hname' := Value.hashable_of_equiv hname h
  have hns' := Value.hashable_of_equiv hns h'
  have hl := Table.lookup_congr s.content hns (Value.heldEquiv_iff.2 (.inr h'))
  have hshelf : ∀ shelf : Shelf, shelf.lookup name = shelf.lookup name' := fun shelf =>
    Table.lookup_congr shelf hname (Value.heldEquiv_iff.2 (.inr h))
  simp [Store.get, Store.shelvesOf, requireKey, hname, hname', hns, hns', hl, hshelf]

theorem registryAt_congr (s : Store) {ns ns' name name' : Value} (hns : ns.hashable = true)
    (hname : name.hashable = true) (h : ns.equiv ns' = true) (h' : name.equiv name' = true) :
    registryAt s ns name = registryAt s ns' name' := by
  have hns' := Value.hashable_of_equiv hns h
  have hname' := Value.hashable_of_equiv hname h'
  simp [registryAt, hns, hns', hname, hname', Store.get_congr s _ _ hname hns h' h]

theorem hashable_of_registryAt {s : Store} {ns name : Value} {v : Option View}
    (h : registryAt s ns name = .ok v) : ns.hashable = true ∧ name.hashable = true := by
  by_cases hns : ns.hashable = true <;> by_cases hname : name.hashable = true <;>
    simp_all [registryAt]

/-- Every registry a cache holds is the one the store holds under its key. -/
def CacheSound (s : Store) (cache : RegistryCache) : Prop :=
  ∀ p ∈ cache, registryAt s p.1.1 p.1.2 = .ok p.2

theorem CacheSound.append {s : Store} {cache : RegistryCache} (hc : CacheSound s cache)
    {ns name : Value} {v : Option View} (h : registryAt s ns name = .ok v) :
    CacheSound s (cache ++ [((ns, name), v)]) := by
  intro p hp
  rcases List.mem_append.1 hp with hp | hp
  · exact hc p hp
  · rw [List.mem_singleton.1 hp]
    exact h

/-- A registry the cache holds under an equal key is the one the store holds. -/
theorem CacheSound.registryAt_eq {s : Store} {cache : RegistryCache} (hc : CacheSound s cache)
    {ns name : Value} {p : (Value × Value) × Option View}
    (hp : cache.find? (fun p => p.1.1.equiv ns && p.1.2.equiv name) = some p) :
    registryAt s ns name = .ok p.2 := by
  have hmem := List.mem_of_find?_eq_some hp
  have hkey := List.find?_some hp
  simp only [Bool.and_eq_true] at hkey
  have hok := hc p hmem
  obtain ⟨hns, hname⟩ := hashable_of_registryAt hok
  rw [← registryAt_congr s hns hname hkey.1 hkey.2, hok]

/-! ### What the tests answer -/

/-- One of the request's entries names the operand, through a registry of the given name and
namespace where they are given (`null` gives none). -/
def NamesOperand (request : View) (operand registry registryNamespace : Value) : Prop :=
  ∃ entries, request.requests = .ok entries ∧ ∃ e ∈ entries, ∃ ops, e.operands = .ok ops ∧
    ∃ o ∈ ops, o.name.equiv operand = true ∧ (registry.isNull ∨ e.registry.equiv registry = true) ∧
      (registryNamespace.isNull ∨ e.registryNamespace.equiv registryNamespace = true)

/-- The walk over the entries finds an operand exactly when some entry has one. -/
theorem firstOperand_ok {p : RequestEntry → Operand → Bool} :
    ∀ {entries : List RequestEntry} {res : Option (RequestEntry × Operand)},
    firstOperand p entries = .ok res →
    (res.isSome = true ↔ ∃ e ∈ entries, ∃ ops, e.operands = .ok ops ∧ ∃ o ∈ ops, p e o = true)
  | [], res, h => by
    simp only [firstOperand, except_pure, Except.ok.injEq] at h
    subst h
    simp
  | e :: rest, res, h => by
    simp only [firstOperand] at h
    cases hops : e.operands with
    | error err => simp [hops] at h
    | ok ops =>
      simp only [hops, except_ok_bind] at h
      cases hf : ops.find? (p e) with
      | some o =>
        simp only [hf, except_pure, Except.ok.injEq] at h
        subst h
        exact ⟨fun _ => ⟨e, List.mem_cons_self .., ops, hops, o, List.mem_of_find?_eq_some hf,
          List.find?_some hf⟩, fun _ => rfl⟩
      | none =>
        simp only [hf] at h
        rw [firstOperand_ok h]
        constructor
        · rintro ⟨e', he', ops', hops', o, ho, hp⟩
          exact ⟨e', List.mem_cons_of_mem _ he', ops', hops', o, ho, hp⟩
        · rintro ⟨e', he', ops', hops', o, ho, hp⟩
          rcases List.mem_cons.1 he' with rfl | he'
          · rw [hops] at hops'
            cases hops'
            exact absurd hp (by simpa using List.find?_eq_none.1 hf o ho)
          · exact ⟨e', he', ops', hops', o, ho, hp⟩

/-- A request's search for the operand finds one exactly when it names it. -/
theorem isSome_findOperand {request : View} {operand registry registryNamespace : Value}
    {res : Option (RequestEntry × Operand)}
    (h : request.findOperand operand registry registryNamespace = .ok res) :
    res.isSome = true ↔ NamesOperand request operand registry registryNamespace := by
  unfold View.findOperand at h
  cases hr : request.requests with
  | error err => simp [hr] at h
  | ok entries =>
    simp only [hr, except_ok_bind] at h
    rw [firstOperand_ok h]
    simp [NamesOperand, hr, operandFits, Bool.and_eq_true, Bool.or_eq_true, and_assoc]

/-- Through the registry an entry names, as the store holds it, the operand's operator is
installed in a namespace equal to `ns`. -/
def EntryResolves (s : Store) (shared operand : Value) (entry : RequestEntry) (ns : Value) :
    Prop :=
  ∃ registry op, registryAt s entry.registryNamespace entry.registry = .ok (some registry) ∧
    registry.operatorNamed operand = .ok (some op) ∧ (operatorNamespace shared op).equiv ns = true

/-- The request refers to the operand through an operator installed in a namespace equal to
`ns`: one of its entries names the operand and resolves so. -/
def ResolvesThrough (s : Store) (shared : Value) (request : View) (operand ns : Value) : Prop :=
  ∃ entries, request.requests = .ok entries ∧ ∃ e ∈ entries, ∃ ops, e.operands = .ok ops ∧
    ∃ o ∈ ops, o.name.equiv operand = true ∧ EntryResolves s shared operand e ns

/-- Adding a namespace unless an equal one is there adds it to the set of namespaces. -/
theorem any_addDistinct {vs : List Value} (hvs : ∀ v ∈ vs, v.hashable = true) {v : Value}
    (N : Value) : (addDistinct vs v).any (·.equiv N) = true ↔
      vs.any (·.equiv N) = true ∨ v.equiv N = true := by
  unfold addDistinct
  split
  · next hany =>
    obtain ⟨y, hy, hyv⟩ := List.any_eq_true.1 hany
    refine ⟨.inl, ?_⟩
    rintro (h | h)
    · exact h
    · exact List.any_eq_true.2 ⟨y, hy, Value.equiv_trans (hvs y hy) hyv h⟩
  · simp [List.any_append]

section Namespaces

variable {s : Store} {shared operand : Value}

/-- One operand of an entry adds the namespace it resolves to, if any. -/
theorem namespaceStep_ok {entry : RequestEntry} {nss nss' : List Value} {found : Operand}
    (hnss : ∀ v ∈ nss, v.hashable = true)
    (h : namespaceStep s shared operand entry nss found = .ok nss') :
    (∀ v ∈ nss', v.hashable = true) ∧ ∀ N, (nss'.any (·.equiv N) = true ↔
      nss.any (·.equiv N) = true ∨
        (found.name.equiv operand = true ∧ EntryResolves s shared operand entry N)) := by
  unfold namespaceStep at h
  by_cases hn : found.name.equiv operand = true
  swap
  · simp only [hn, Bool.not_false, if_true, except_pure, Except.ok.injEq] at h
    subst h
    exact ⟨hnss, fun N => by simp [hn]⟩
  simp only [hn, Bool.not_true, Bool.false_eq_true, if_false] at h
  cases hr : registryAt s entry.registryNamespace entry.registry with
  | error e => simp [hr] at h
  | ok registry =>
    cases registry with
    | none =>
      simp only [hr, except_ok_bind, except_pure, Except.ok.injEq] at h
      subst h
      exact ⟨hnss, fun N => by simp [EntryResolves, hr]⟩
    | some g =>
      cases ho : g.operatorNamed operand with
      | error e => simp [hr, ho] at h
      | ok op =>
        cases op with
        | none =>
          simp only [hr, ho, except_ok_bind, except_pure, Except.ok.injEq] at h
          subst h
          exact ⟨hnss, fun N => by simp [EntryResolves, hr, ho]⟩
        | some op =>
          by_cases hh : (operatorNamespace shared op).hashable = true
          swap
          · simp [hr, ho, hh] at h
          simp only [hr, ho, hh, except_ok_bind, Bool.not_true, Bool.false_eq_true, if_false,
            except_pure, Except.ok.injEq] at h
          subst h
          refine ⟨fun v hv => ?_, fun N => ?_⟩
          · unfold addDistinct at hv
            split at hv
            · exact hnss v hv
            · rcases List.mem_append.1 hv with hv | hv
              · exact hnss v hv
              · rw [List.mem_singleton.1 hv]
                exact hh
          · rw [any_addDistinct hnss]
            simp [EntryResolves, hr, ho, hn]

/-- The operands of an entry add the namespaces they resolve to. -/
theorem foldlM_namespaceStep {entry : RequestEntry} :
    ∀ (ops : List Operand) {nss nss' : List Value}, (∀ v ∈ nss, v.hashable = true) →
    ops.foldlM (namespaceStep s shared operand entry) nss = .ok nss' →
    (∀ v ∈ nss', v.hashable = true) ∧ ∀ N, (nss'.any (·.equiv N) = true ↔
      nss.any (·.equiv N) = true ∨
        ∃ o ∈ ops, o.name.equiv operand = true ∧ EntryResolves s shared operand entry N)
  | [], nss, nss', hnss, h => by
    simp only [List.foldlM_nil, except_pure, Except.ok.injEq] at h
    subst h
    exact ⟨hnss, fun N => by simp⟩
  | o :: rest, nss, nss', hnss, h => by
    rw [List.foldlM_cons] at h
    cases hs : namespaceStep s shared operand entry nss o with
    | error e => simp [hs] at h
    | ok mid =>
      rw [hs, except_ok_bind] at h
      obtain ⟨hmid, hset₁⟩ := namespaceStep_ok hnss hs
      obtain ⟨hfin, hset₂⟩ := foldlM_namespaceStep rest hmid h
      refine ⟨hfin, fun N => ?_⟩
      rw [hset₂, hset₁]
      simp only [List.mem_cons, exists_eq_or_imp, or_assoc]

/-- The entries of a request add the namespaces their operands resolve to. -/
theorem foldlM_entryStep :
    ∀ (entries : List RequestEntry) {nss nss' : List Value}, (∀ v ∈ nss, v.hashable = true) →
    entries.foldlM (entryStep s shared operand) nss = .ok nss' →
    (∀ v ∈ nss', v.hashable = true) ∧ ∀ N, (nss'.any (·.equiv N) = true ↔
      nss.any (·.equiv N) = true ∨ ∃ e ∈ entries, ∃ ops, e.operands = .ok ops ∧
        ∃ o ∈ ops, o.name.equiv operand = true ∧ EntryResolves s shared operand e N)
  | [], nss, nss', hnss, h => by
    simp only [List.foldlM_nil, except_pure, Except.ok.injEq] at h
    subst h
    exact ⟨hnss, fun N => by simp⟩
  | e :: rest, nss, nss', hnss, h => by
    rw [List.foldlM_cons] at h
    cases hs : entryStep s shared operand nss e with
    | error err => simp [hs] at h
    | ok mid =>
      rw [hs, except_ok_bind] at h
      unfold entryStep at hs
      cases hops : e.operands with
      | error err => simp [hops] at hs
      | ok ops =>
        rw [hops, except_ok_bind] at hs
        obtain ⟨hmid, hset₁⟩ := foldlM_namespaceStep ops hnss hs
        obtain ⟨hfin, hset₂⟩ := foldlM_entryStep rest hmid h
        refine ⟨hfin, fun N => ?_⟩
        rw [hset₂, hset₁]
        constructor
        · rintro ((h | h) | h)
          · exact .inl h
          · exact .inr ⟨e, List.mem_cons_self .., ops, hops, h⟩
          · obtain ⟨e', he', h'⟩ := h
            exact .inr ⟨e', List.mem_cons_of_mem _ he', h'⟩
        · rintro (h | ⟨e', he', ops', hops', h'⟩)
          · exact .inl (.inl h)
          · rcases List.mem_cons.1 he' with rfl | he'
            · rw [hops] at hops'
              cases hops'
              exact .inl (.inr h')
            · exact .inr ⟨e', he', ops', hops', h'⟩

/-- The namespaces of a request's entries for the operand are those its entries resolve to. -/
theorem any_operandNamespaces {request : View} {nss : List Value}
    (h : operandNamespaces s shared request operand = .ok nss) (N : Value) :
    nss.any (·.equiv N) = true ↔ ResolvesThrough s shared request operand N := by
  unfold operandNamespaces at h
  cases hr : request.requests with
  | error e => simp [hr] at h
  | ok entries =>
    rw [hr, except_ok_bind] at h
    rw [(foldlM_entryStep entries (by simp) h).2 N]
    simp [ResolvesThrough, hr]

/-- The test of a request answers whether its entries resolve to the operator namespace. -/
theorem resolvesTo_ok {operatorNs : Value} {request : View} {t : Bool}
    (h : resolvesTo s shared operand operatorNs request = .ok t) :
    t = true ↔ ResolvesThrough s shared request operand operatorNs := by
  unfold resolvesTo at h
  cases hn : operandNamespaces s shared request operand with
  | error e => simp [hn] at h
  | ok nss =>
    by_cases hN : operatorNs.hashable = true
    · simp only [hn, hN, except_ok_bind, Bool.not_true, Bool.false_eq_true, if_false,
        except_pure, Except.ok.injEq] at h
      subst h
      exact any_operandNamespaces hn operatorNs
    · simp [hn, hN] at h

/-- The fresh namespace referents select the listed requests that resolve the operand to the
operator namespace. -/
theorem selects_freshNamespaceReferents {operatorNs : Value} {exclude found : List Referent}
    (h : freshNamespaceReferents s shared operand operatorNs exclude = .ok found) :
    ∃ views, requestsIn s = .ok views ∧
      Selects views exclude (fun r => ResolvesThrough s shared r operand operatorNs) found := by
  unfold freshNamespaceReferents at h
  cases hk : exclude.forM Referent.requireKey with
  | error e => simp [hk] at h
  | ok u =>
    cases hv : requestsIn s with
    | error e => simp [hk, hv] at h
    | ok views =>
      simp only [hk, hv, except_ok_bind] at h
      exact ⟨views, rfl, selects_of_selectReferents (fun _ _ ht => resolvesTo_ok ht) h⟩

end Namespaces

/-- The fresh referents select the listed requests that name the operand. -/
theorem selects_freshReferents {s : Store} {operand registry registryNamespace : Value}
    {exclude found : List Referent}
    (h : freshReferents s operand registry registryNamespace exclude = .ok found) :
    ∃ views, requestsIn s = .ok views ∧
      Selects views exclude (fun r => NamesOperand r operand registry registryNamespace) found := by
  unfold freshReferents at h
  cases hk : exclude.forM Referent.requireKey with
  | error e => simp [hk] at h
  | ok u =>
    cases hv : requestsIn s with
    | error e => simp [hk, hv] at h
    | ok views =>
      simp only [hk, hv, except_ok_bind] at h
      refine ⟨views, rfl, selects_of_selectReferents (fun r t ht => ?_) h⟩
      cases hf : r.findOperand operand registry registryNamespace with
      | error e => simp [hf] at ht
      | ok res =>
        simp only [hf, except_map_ok, Except.ok.injEq] at ht
        subst ht
        exact isSome_findOperand hf

section Plain

variable {w : World}

theorem readsAs_listRequests (hw : w.Plain) : ReadsAs Eq listRequests (requestsIn w.store) w := by
  unfold listRequests requestsIn
  refine ReadsAs.bind (readsAs_listObjects hw _ _ _ _ _) ?_
  rintro p manifests - rfl
  exact ReadsAs.check _

/-- A cached lookup reads as a fresh one, and leaves the cache sound. -/
theorem readsAs_cachedRegistry (hw : w.Plain) {cache : RegistryCache}
    (hc : CacheSound w.store cache) (ns name : Value) :
    ReadsAs (fun p v => p.1 = v ∧ CacheSound w.store p.2) (cachedRegistry cache ns name)
      (registryAt w.store ns name) w := by
  unfold cachedRegistry
  by_cases hns : ns.hashable = true
  swap
  · have h : registryAt w.store ns name = .error (unhashable ns) := by simp [registryAt, hns]
    simp only [hns, h, Bool.not_false, if_true]
    exact ReadsAs.throw_bind _ _
  by_cases hname : name.hashable = true
  swap
  · have h : registryAt w.store ns name = .error (unhashable name) := by
      simp [registryAt, hns, hname]
    simp only [hns, hname, h, Bool.not_false, Bool.not_true, if_true]
    exact ReadsAs.throw_bind _ _
  simp only [hns, hname, Bool.not_true, Bool.false_eq_true, if_false]
  split
  · next p hp =>
    rw [hc.registryAt_eq hp]
    exact ReadsAs.pure' ⟨rfl, hc⟩
  have hget : registryAt w.store ns name =
      w.store.get (.str registryKind) name ns (.str apiVersion) >>= registryOf := by
    simp [registryAt, hns, hname]
  rw [hget]
  refine ReadsAs.bind (readsAs_getObject hw _ _ _ _) ?_
  rintro p found hfound rfl
  have hreg : registryAt w.store ns name = registryOf found := by
    rw [hget, hfound]
    rfl
  simp only [Bool.not_true, Bool.false_eq_true, if_false]
  cases found with
  | none =>
    simp only [pure_bind]
    exact ReadsAs.pure' ⟨rfl, hc.append hreg⟩
  | some m =>
    by_cases ht : m.truthy = true
    · simp only [ht, if_true]
      have hfresh : registryOf (some m) = some <$> View.ofManifest m := by simp [registryOf, ht]
      rw [hfresh, ← bind_pure (some <$> View.ofManifest m)]
      refine ReadsAs.bind (ReadsAs.map (S := Eq) some some (ReadsAs.check _) (by rintro a b rfl; rfl)) ?_
      rintro v v' hv' rfl
      exact ReadsAs.pure' ⟨rfl, hc.append (hreg.trans (hfresh.trans hv'))⟩
    · have hfresh : registryOf (some m) = .ok none := by simp [registryOf, ht]
      simp only [ht, Bool.false_eq_true, if_false, pure_bind, hfresh]
      exact ReadsAs.pure' ⟨rfl, hc.append (hreg.trans hfresh)⟩

theorem readsAs_installNamespace (op : Operator) :
    ReadsAs Eq (installNamespace op)
      (pure (operatorNamespace (sharedNamespace w) op)) w :=
  ReadsAs.bind_pure (g := fun v => pure (operatorNamespace v op)) (readsAs_setting _)
    (fun _ h => by subst h; exact ReadsAs.pure' rfl)

/-- The namespaces of a request's entries, with the registries shared through a cache, read as
the namespaces with every registry looked up afresh. -/
theorem readsAs_operatorNamespaces (hw : w.Plain) {cache : RegistryCache}
    (hc : CacheSound w.store cache) (request : View) (operand : Value) :
    ReadsAs (fun p nss => p.1 = nss ∧ CacheSound w.store p.2)
      (operatorNamespaces request operand cache)
      (operandNamespaces w.store (sharedNamespace w) request operand) w := by
  unfold operatorNamespaces operandNamespaces entryStep namespaceStep
  refine ReadsAs.bind (ReadsAs.check _) ?_
  rintro entries _ - rfl
  dsimp only
  refine ReadsAs.bind_reshape (ReadsAs.forIn
    (fun (p : RegistryCache × List Value) nss => CacheSound w.store p.1 ∧ p.2 = nss) ?_ ?_) ?_
  · exact ⟨hc, rfl⟩
  · rintro entry - ⟨c, nss⟩ nss' ⟨hc', rfl⟩
    dsimp only
    refine ReadsAs.bind (ReadsAs.check _) ?_
    rintro ops _ - rfl
    refine ReadsAs.bind_reshape (ReadsAs.forIn
      (fun (p : RegistryCache × List Value) nss => CacheSound w.store p.1 ∧ p.2 = nss) ?_ ?_) ?_
    · exact ⟨hc', rfl⟩
    · rintro found - ⟨c, nss⟩ nss' ⟨hc', rfl⟩
      dsimp only
      by_cases hn : found.name.equiv operand = true
      swap
      · simp only [hn, Bool.not_false, if_true]
        exact ReadsAs.pure' ⟨_, rfl, hc', rfl⟩
      simp only [hn, Bool.not_true, Bool.false_eq_true, if_false]
      refine ReadsAs.bind (readsAs_cachedRegistry hw hc' _ _) ?_
      rintro ⟨registry, c'⟩ registry' - ⟨rfl, hc''⟩
      dsimp only
      cases registry with
      | none =>
        simp only [pure_bind]
        exact ReadsAs.pure' ⟨_, rfl, hc'', rfl⟩
      | some r =>
        refine ReadsAs.bind (ReadsAs.check _) ?_
        rintro operator _ - rfl
        cases operator with
        | none => exact ReadsAs.pure' ⟨_, rfl, hc'', rfl⟩
        | some op =>
          refine ReadsAs.bind_left (readsAs_installNamespace op) ?_
          by_cases hh : (operatorNamespace (sharedNamespace w) op).hashable = true
          swap
          · simp only [hh, Bool.not_false, if_true]
            exact ReadsAs.throw_bind _ _
          simp only [hh, Bool.not_true, Bool.false_eq_true, if_false, addDistinct]
          cases ha : nss.any (·.equiv (operatorNamespace (sharedNamespace w) op)) <;>
            simp only [Bool.not_true, Bool.not_false, if_true, if_false, Bool.false_eq_true] <;>
            exact ReadsAs.pure' ⟨_, rfl, hc'', rfl⟩
    · rintro ⟨c, nss⟩ nss' ⟨hc', rfl⟩
      exact ⟨_, rfl, hc', rfl⟩
  · rintro ⟨c, nss⟩ nss' ⟨hc', rfl⟩
    exact ⟨rfl, hc'⟩

/-- Sharing the registry cache over all requests, misses included, answers as looking every
registry up afresh. -/
theorem readsAs_namespaceReferents (hw : w.Plain) (operand operatorNs : Value)
    (exclude : List Referent) :
    ReadsAs Eq (namespaceReferents operand operatorNs exclude)
      (freshNamespaceReferents w.store (sharedNamespace w) operand
        operatorNs exclude) w := by
  unfold namespaceReferents freshNamespaceReferents selectReferents selectStep
  refine ReadsAs.bind (ReadsAs.check _) ?_
  rintro u _ - rfl
  dsimp only
  refine ReadsAs.bind (readsAs_listRequests hw) ?_
  rintro views _ - rfl
  refine ReadsAs.bind_reshape (ReadsAs.forIn
    (fun (p : RegistryCache × List Referent) found => CacheSound w.store p.1 ∧ p.2 = found) ?_ ?_) ?_
  · exact ⟨(fun _ h => nomatch h), rfl⟩
  · rintro request - ⟨c, found⟩ found' ⟨hc, rfl⟩
    dsimp only
    refine ReadsAs.bind (ReadsAs.check _) ?_
    rintro b _ - rfl
    cases b
    · exact ReadsAs.pure' ⟨_, rfl, hc, rfl⟩
    simp only [Bool.not_true, Bool.false_eq_true, if_false, resolvesTo, bind_assoc]
    refine ReadsAs.bind (readsAs_operatorNamespaces hw hc request operand) ?_
    rintro ⟨nss, c'⟩ nss' - ⟨rfl, hc'⟩
    dsimp only
    by_cases hN : operatorNs.hashable = true
    swap
    · simp only [hN, Bool.not_false, if_true, except_throw, except_error_bind]
      exact ReadsAs.throw_bind _ _
    simp only [hN, Bool.not_true, Bool.false_eq_true, if_false, except_pure, except_ok_bind]
    cases nss.any (·.equiv operatorNs) <;>
      simp only [Bool.false_eq_true, if_true, if_false] <;>
      exact ReadsAs.pure' ⟨_, rfl, hc', rfl⟩
  · rintro ⟨c, found⟩ found' ⟨-, rfl⟩
    rfl

/-- The requests naming an operand read as the selection by `View.findOperand`. -/
theorem readsAs_referentsOf (hw : w.Plain) (operand registry registryNamespace : Value)
    (exclude : List Referent) :
    ReadsAs Eq (referentsOf operand registry registryNamespace exclude)
      (freshReferents w.store operand registry registryNamespace exclude) w := by
  unfold referentsOf freshReferents selectReferents selectStep
  refine ReadsAs.bind (ReadsAs.check _) ?_
  rintro u _ - rfl
  dsimp only
  refine ReadsAs.bind (readsAs_listRequests hw) ?_
  rintro views _ - rfl
  refine ReadsAs.bind_reshape (ReadsAs.forIn (fun found found' => found = found') rfl ?_) ?_
  · rintro request - found found' rfl
    refine ReadsAs.bind (ReadsAs.check _) ?_
    rintro b _ - rfl
    cases b
    · exact ReadsAs.pure' ⟨_, rfl, rfl⟩
    simp only [Bool.not_true, Bool.false_eq_true, if_false, bind_map_left]
    refine ReadsAs.bind (ReadsAs.check _) ?_
    rintro o _ - rfl
    cases o.isSome <;>
      simp only [Bool.false_eq_true, if_true, if_false] <;>
      exact ReadsAs.pure' ⟨_, rfl, rfl⟩
  · rintro found found' rfl
    rfl

/-- Whether an operand's resources may go reads as whether the fresh lookups find no other
request, once the requests that remain are sorted. -/
theorem readsAs_deleteSafe (hw : w.Plain) (operand operatorNs : Value) (triggering : Referent) :
    ReadsAs Eq (deleteSafe operand operatorNs triggering)
      (do
        let remaining ← freshNamespaceReferents w.store
          (sharedNamespace w) operand operatorNs [triggering]
        if !remaining.isEmpty then
          let _ ← sortReferents remaining
        pure remaining.isEmpty) w := by
  unfold deleteSafe
  refine ReadsAs.bind (readsAs_namespaceReferents hw _ _ _) ?_
  rintro remaining _ - rfl
  cases remaining.isEmpty
  · simp only [Bool.not_false, if_true]
    exact ReadsAs.bind (ReadsAs.check _) (fun _ _ _ _ => ReadsAs.pure' rfl)
  · exact ReadsAs.pure' rfl

end Plain

end OperandLifecycle.Catalog

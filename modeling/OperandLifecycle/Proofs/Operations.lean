import OperandLifecycle.Proofs.Store
import OperandLifecycle.Proofs.Triples
import Mathlib
/-!
# What each operation of the store does

Every operation of the store is about one address: the one its resource names (`Address.read`),
or the one it is given. `Store.Confined s s' a` says what such an operation can do: the store
stays keyed, every address not equal to `a` finds what it found before, new entries appear only
under `a`'s kind, and lookups and listings of every other kind see the same objects. Each step
of an operation is confined to its address (`Store.confined_write`, `Store.confined_remove`,
…), and so is each operation (`Store.create_spec`, `Store.update_spec`, `Store.setStatus_spec`,
`Store.removeAt_spec`); what happens at the address itself is said by each operation's spec.

An object is filed at its own address when the address its resource names is equal to the one
it is filed under (`OwnAddress`); every write files its object so.
-/

set_option mvcgen.warning false

namespace OperandLifecycle.Cluster

open Std.Do

open Json

/-! ### The address a resource names -/

/-- The address a resource names is equal to `a`. -/
def OwnAddress (o : Value) (a : Address) : Prop := ∃ a', Address.read o = .ok a' ∧ a'.Equiv a

/-- The metadata a write reads: the member, the empty object when it is missing. -/
def metadataOf (r : Value) : Value := (r.get? "metadata").getD (.obj [])

theorem read_eq_error_of_not_obj {r : Value} (hr : r.isObj = false) :
    ∃ e, Address.read r = .error e := by
  cases r <;> simp_all [Address.read, Value.fieldOr, Value.isObj, bind, Except.bind]

/-- The address a resource with object metadata names depends only on its kind, its version,
and the name and namespace of its metadata. -/
theorem read_congr {r r' : Value} (hr : r.isObj = true) (hr' : r'.isObj = true)
    (hk : r.get? "kind" = r'.get? "kind") (hv : r.get? "apiVersion" = r'.get? "apiVersion")
    (hm : (metadataOf r).isObj = true) (hm' : (metadataOf r').isObj = true)
    (hn : (metadataOf r).get? "name" = (metadataOf r').get? "name")
    (hns : (metadataOf r).get? "namespace" = (metadataOf r').get? "namespace") :
    Address.read r = Address.read r' := by
  cases r with
  | obj fs =>
    cases r' with
    | obj fs' =>
      simp only [Value.get?, metadataOf] at hk hv hm hm' hn hns
      simp only [Address.read, Value.fieldOr, Value.field, hk, hv]
      cases e : (Fields.get? fs "metadata").getD (.obj []) <;>
        cases e' : (Fields.get? fs' "metadata").getD (.obj []) <;>
        simp_all [Value.isObj, bind, Except.bind]
    | _ => simp [Value.isObj] at hr'
  | _ => simp [Value.isObj] at hr

theorem isObj_of_read {r : Value} {a : Address} (h : Address.read r = .ok a) : r.isObj = true := by
  cases hr : r.isObj
  · obtain ⟨e, he⟩ := read_eq_error_of_not_obj hr
    simp [he] at h
  · rfl

theorem metadata_isObj_of_read {r : Value} {a : Address} (h : Address.read r = .ok a) :
    (metadataOf r).isObj = true := by
  have hr := isObj_of_read h
  cases r with
  | obj fs =>
    simp only [metadataOf, Value.get?]
    cases e : (Fields.get? fs "metadata").getD (.obj []) <;>
      simp_all [Address.read, Value.fieldOr, Value.field, Value.isObj, bind, Except.bind]
  | _ => simp [Value.isObj] at hr

/-- Setting a member other than the kind, the version and the metadata keeps the address. -/
theorem read_set_of_ne {r : Value} {a : Address} (h : Address.read r = .ok a) (k : String)
    (x : Value) (hk : k ≠ "kind") (hv : k ≠ "apiVersion") (hm : k ≠ "metadata") :
    Address.read (r.set k x) = .ok a := by
  have hr := isObj_of_read h
  have hmd := metadata_isObj_of_read h
  rw [← h]
  refine read_congr (by simp [hr]) hr ?_ ?_ ?_ hmd ?_ ?_ <;>
    simp_all [metadataOf, Ne.symm hk, Ne.symm hv, Ne.symm hm]

theorem read_erase_of_ne {r : Value} {a : Address} (h : Address.read r = .ok a) (k : String)
    (hk : k ≠ "kind") (hv : k ≠ "apiVersion") (hm : k ≠ "metadata") :
    Address.read (r.erase k) = .ok a := by
  have hr := isObj_of_read h
  have hmd := metadata_isObj_of_read h
  rw [← h]
  refine read_congr (by simp [hr]) hr ?_ ?_ ?_ hmd ?_ ?_ <;>
    simp_all [metadataOf, Ne.symm hk, Ne.symm hv, Ne.symm hm]

/-- Replacing the metadata by an object with the same name and namespace keeps the address. -/
theorem read_set_metadata {r : Value} {a : Address} (h : Address.read r = .ok a) {md : Value}
    (hmd : md.isObj = true) (hn : md.get? "name" = (metadataOf r).get? "name")
    (hns : md.get? "namespace" = (metadataOf r).get? "namespace") :
    Address.read (r.set "metadata" md) = .ok a := by
  have hr := isObj_of_read h
  rw [← h]
  refine read_congr (by simp [hr]) hr ?_ ?_ ?_ (metadata_isObj_of_read h) ?_ ?_ <;>
    simp_all [metadataOf]

/-! ### Operations confined to one address -/

namespace Store

/-- What an operation about the address `a` can do to a store: it stays keyed, every address
not equal to `a` finds what it found before, new entries appear only under `a`'s kind, and
lookups and listings of every other kind see the same objects. -/
structure Confined (s s' : Store) (a : Address) : Prop where
  keyed : s'.Keyed
  frame : ∀ b, ¬ b.Equiv a → s'.objectAt b = s.objectAt b
  filed : ∀ b o, s'.Filed b o → s.Filed b o ∨ b.kind = a.kind ∨ b.kind.heldEquiv a.kind = true
  sameKind : ∀ K, K.heldEquiv a.kind = false → SameKind K s s'

theorem Confined.refl {s : Store} (hs : s.Keyed) (a : Address) : Confined s s a :=
  ⟨hs, fun _ _ => rfl, fun _ _ h => .inl h, fun K _ => SameKind.refl K s⟩

theorem Confined.trans {s₁ s₂ s₃ : Store} {a : Address} (h₁ : Confined s₁ s₂ a)
    (h₂ : Confined s₂ s₃ a) : Confined s₁ s₃ a where
  keyed := h₂.keyed
  frame b hb := (h₂.frame b hb).trans (h₁.frame b hb)
  filed b o h := by
    rcases h₂.filed b o h with h | h
    · exact h₁.filed b o h
    · exact .inr h
  sameKind K hK := (h₁.sameKind K hK).trans (h₂.sameKind K hK)

theorem equiv_eq_false_symm {k K : Value} (hk : k.hashable = true) (h : K.heldEquiv k = false) :
    k.heldEquiv K = false := by
  cases h' : k.heldEquiv K
  · rfl
  · rw [Value.heldEquiv_symm hk h'] at h
    exact absurd h Bool.noConfusion

theorem confined_openNamespace {s : Store} (hs : s.Keyed) {a : Address}
    (hns : a.ns.hashable = true) : Confined s (s.openNamespace a.ns) a where
  keyed := keyed_openNamespace hs hns
  frame b _ := objectAt_openNamespace hns b
  filed _ _ h := .inl (filed_openNamespace h)
  sameKind K _ := sameKind_openNamespace hns K

theorem confined_openKind {s : Store} (hs : s.Keyed) {a : Address}
    (hkind : a.kind.hashable = true) : Confined s (s.openKind a.ns a.kind) a where
  keyed := keyed_openKind hs a.ns hkind
  frame b _ := objectAt_openKind hs hkind b
  filed _ _ h := .inl (filed_openKind h)
  sameKind _ hK := sameKind_openKind hs a.ns (equiv_eq_false_symm hkind hK)

theorem confined_openVersion {s : Store} (hs : s.Keyed) {a : Address}
    (hv : a.apiVersion.hashable = true) :
    Confined s (s.withShelves a.ns a.kind (·.ensure a.apiVersion [])) a where
  keyed := keyed_withShelves hs _ _ fun _ h => shelvesKeyed_ensure h hv
  frame b _ := objectAt_openVersion hs a.ns a.kind hv b
  filed _ _ h := .inl (filed_openVersion h)
  sameKind _ hK := sameKind_withShelves hs a.ns hK _

theorem confined_write {s : Store} (hs : s.Keyed) {a : Address} (ha : a.Hashable) (o : Value) :
    Confined s (s.write a o) a where
  keyed := keyed_write hs ha.2.2.2 o
  frame _ hb := objectAt_write_frame hs ha o hb
  filed b o' h := by
    rcases filed_write h with h | ⟨-, -, hk, -⟩
    · exact .inl h
    · exact .inr (.inr hk)
  sameKind _ hK := sameKind_withShelves hs a.ns hK _

theorem confined_remove {s : Store} (hs : s.Keyed) (a : Address) : Confined s (s.remove a) a where
  keyed := keyed_remove hs a
  frame b hb := by rw [objectAt_remove hs, if_neg hb]
  filed _ _ h := .inl (filed_remove h)
  sameKind _ hK := sameKind_withShelves hs a.ns hK _

theorem confined_prune {s : Store} (hs : s.Keyed) (a : Address) :
    Confined s (s.prune a.ns a.kind a.apiVersion) a where
  keyed := keyed_prune hs _ _ _
  frame b _ := objectAt_prune hs _ _ _ b
  filed _ _ h := .inl (filed_prune h)
  sameKind _ hK := sameKind_prune hs a.ns hK a.apiVersion

theorem confined_of_content_eq {s s' : Store} (hs : s.Keyed) (h : s'.content = s.content)
    (a : Address) : Confined s s' a where
  keyed := by unfold Keyed; rw [h]; exact hs
  frame b _ := by simp only [objectAt, shelvesAt, h]
  filed b o hf := by unfold Filed at hf; rw [h] at hf; exact .inl hf
  sameKind K _ := sameKind_of_content_eq K h.symm

/-- `s` is `s₀` with groups opened on the way to `a`: confined to `a`, and every address finds
what it found before. -/
def Opened (s₀ s : Store) (a : Address) : Prop := Confined s₀ s a ∧ ∀ b, s.objectAt b = s₀.objectAt b

theorem Opened.refl {s : Store} (hs : s.Keyed) (a : Address) : Opened s s a :=
  ⟨Confined.refl hs a, fun _ => rfl⟩

theorem Opened.trans {s₁ s₂ s₃ : Store} {a : Address} (h₁ : Opened s₁ s₂ a) (h₂ : Opened s₂ s₃ a) :
    Opened s₁ s₃ a :=
  ⟨h₁.1.trans h₂.1, fun b => (h₂.2 b).trans (h₁.2 b)⟩

theorem opened_namespace {s : Store} (hs : s.Keyed) {a : Address} (hns : a.ns.hashable = true) :
    Opened s (s.openNamespace a.ns) a :=
  ⟨confined_openNamespace hs hns, fun b => objectAt_openNamespace hns b⟩

theorem opened_kind {s : Store} (hs : s.Keyed) {a : Address} (hkind : a.kind.hashable = true) :
    Opened s (s.openKind a.ns a.kind) a :=
  ⟨confined_openKind hs hkind, fun b => objectAt_openKind hs hkind b⟩

theorem opened_version {s : Store} (hs : s.Keyed) {a : Address} (hv : a.apiVersion.hashable = true) :
    Opened s (s.withShelves a.ns a.kind (·.ensure a.apiVersion [])) a :=
  ⟨confined_openVersion hs hv, fun b => objectAt_openVersion hs a.ns a.kind hv b⟩

/-- The groups on the way to an address, opened as a create opens them. -/
def openAll (s : Store) (a : Address) : Store :=
  ((s.openNamespace a.ns).openKind a.ns a.kind).withShelves a.ns a.kind (·.ensure a.apiVersion [])

theorem opened_openAll {s : Store} (hs : s.Keyed) {a : Address} (hns : a.ns.hashable = true)
    (hkind : a.kind.hashable = true) (hv : a.apiVersion.hashable = true) :
    Opened s (s.openAll a) a :=
  have h₁ := opened_namespace hs hns
  have h₂ := opened_kind h₁.1.keyed hkind
  (h₁.trans h₂).trans (opened_version h₂.1.keyed hv)

/-- After opening, the shelf of an address equal to itself exists. -/
theorem shelfAt_openAll {s : Store} (hs : s.Keyed) {a : Address} (hns : a.ns.hashable = true)
    (hkind : a.kind.hashable = true) (hself : a.Equiv a) :
    ∃ shelf, ((s.openAll a).shelvesAt a.ns a.kind).bind (·.lookup a.apiVersion) = some shelf := by
  have h₁ := opened_namespace hs hns
  have h₂ := opened_kind h₁.1.keyed hkind
  obtain ⟨kinds, hkinds⟩ := Option.isSome_iff_exists.1
    ((s.content.lookup_ensure_isSome hself.1 []))
  have hat₂ : ((s.openNamespace a.ns).openKind a.ns a.kind).shelvesAt a.ns a.kind =
      (kinds.ensure a.kind []).lookup a.kind := by
    have hk₁ : (s.content.ensure a.ns []).Keyed := h₁.1.keyed.1
    simp only [shelvesAt, content_openKind, content_openNamespace, Table.lookup_alter hk₁, hself.1,
      if_true, hkinds, Option.map_some, Option.bind_some]
  obtain ⟨shelves, hshelves⟩ := Option.isSome_iff_exists.1
    (kinds.lookup_ensure_isSome hself.2.1 [])
  obtain ⟨shelf, hshelf⟩ := Option.isSome_iff_exists.1
    (shelves.lookup_ensure_isSome hself.2.2.1 [])
  refine ⟨shelf, ?_⟩
  simp only [openAll, shelvesAt_withShelves h₂.1.keyed, hself.1, hself.2.1, and_self, if_true,
    hat₂, hshelves, Option.map_some, Option.bind_some, hshelf]

/-! ### Well-formed stores -/

/-- An object is filed under the address it names: the same namespace, kind and version, and
the same name, or the name as it is written when it equals nothing. -/
def FiledUnder (o : Value) (b : Address) : Prop :=
  ∃ a, Address.read o = .ok a ∧ b.ns.heldEquiv a.ns = true ∧ b.kind.heldEquiv a.kind = true ∧
    b.apiVersion.heldEquiv a.apiVersion = true ∧ (b.name.heldEquiv a.name = true ∨ b.name = a.name)

/-- A well-formed store: keyed, and every object filed under the address it names. -/
structure WF (s : Store) : Prop where
  keyed : s.Keyed
  filedUnder : ∀ b o, s.Filed b o → FiledUnder o b

/-- A step that files no new object keeps a store well formed. -/
theorem WF.of_filed {s s' : Store} (hs : s.WF) (hk : s'.Keyed)
    (h : ∀ b o, s'.Filed b o → s.Filed b o) : s'.WF :=
  ⟨hk, fun b o hf => hs.filedUnder b o (h b o hf)⟩

theorem WF.of_content_eq {s s' : Store} (hs : s.WF) (h : s'.content = s.content) : s'.WF :=
  hs.of_filed (by unfold Keyed; rw [h]; exact hs.keyed) fun b o hf => by
    unfold Filed at hf; rwa [h] at hf

/-- Writing an object at the address it names keeps a store well formed. -/
theorem WF.write {s : Store} (hs : s.WF) {a : Address} (hname : a.name.hashable = true)
    {o : Value} (ho : Address.read o = .ok a) : (s.write a o).WF where
  keyed := keyed_write hs.keyed hname o
  filedUnder b o' hf := by
    rcases filed_write hf with h | ⟨rfl, hn, hk, hv, hname'⟩
    · exact hs.filedUnder b o' h
    · exact ⟨a, ho, hn, hk, hv, hname'⟩

theorem WF.remove {s : Store} (hs : s.WF) (a : Address) : (s.remove a).WF :=
  hs.of_filed (keyed_remove hs.keyed a) fun _ _ => filed_remove

theorem WF.prune {s : Store} (hs : s.WF) (ns kind v : Value) : (s.prune ns kind v).WF :=
  hs.of_filed (keyed_prune hs.keyed ns kind v) fun _ _ => filed_prune

theorem filed_openAll {s : Store} {a b : Address} {o : Value} (hf : (s.openAll a).Filed b o) :
    s.Filed b o :=
  filed_openNamespace (filed_openKind (filed_openVersion hf))

/-! ### Creating an object -/

theorem check_eq {α : Type} (r : Except Failure α) :
    StoreM.check r = match r with | .ok a => pure a | .error e => throw e := by
  cases r <;> rfl

theorem hashable_of_requireKey {v : Value} {u : Unit} (h : requireKey v = .ok u) :
    v.hashable = true := by
  unfold requireKey at h
  split at h
  · assumption
  · cases h

/-- The metadata a resource that names an address carries is a member of it. -/
theorem getD_metadata_of_read {r : Value} {a : Address} (h : Address.read r = .ok a) :
    r.getD "metadata" = metadataOf r := by
  cases r with
  | obj fs =>
    simp only [Value.getD, Value.get?, metadataOf]
    cases hm : Fields.get? fs "metadata" with
    | none =>
      have hnil : ∀ k, Fields.get? [] k = none := fun _ => rfl
      simp [Address.read, Value.fieldOr, Value.field, hm, hnil, bind, Except.bind,
        Value.truthy] at h
    | some md => rfl
  | _ => simp [Address.read, Value.fieldOr, bind, Except.bind] at h

/-- The object a create files: the resource with its uid, its creation time, the first
generation and the resource version in its metadata. -/
def stamped (res : Value) (uid : String) (now : Stamp) (version : String) : Value :=
  res.set "metadata" ((((res.getD "metadata").set "uid" (.str uid)).set "creationTimestamp"
    (.str now.iso) |>.set "generation" (.int 1)).set "resourceVersion" (.str version))

theorem read_stamped {res : Value} {a : Address} (h : Address.read res = .ok a) (uid : String)
    (now : Stamp) (version : String) : Address.read (stamped res uid now version) = .ok a := by
  have hmd := metadata_isObj_of_read h
  rw [← getD_metadata_of_read h] at hmd
  refine read_set_metadata h (by simp [hmd]) ?_ ?_ <;> simp [getD_metadata_of_read h]

/-- What a write about the address a resource names leaves: a well-formed store where every
object found before is still found, confined to that address, or the store as it was. -/
structure Grown (s₀ s : Store) (res : Value) : Prop where
  wf : s.WF
  keeps : ∀ b o, s₀.objectAt b = some o → s.objectAt b = some o
  confined : s = s₀ ∨ ∃ a, Address.read res = .ok a ∧ Confined s₀ s a

theorem Grown.refl {s : Store} (hs : s.WF) (res : Value) : Grown s s res :=
  ⟨hs, fun _ _ h => h, .inl rfl⟩

/-- Opening the groups on the way to the address a resource names only grows a store. -/
theorem Grown.of_opened {s₀ s : Store} (hs : s₀.WF) {res : Value} {a : Address}
    (hr : Address.read res = .ok a) (h : Opened s₀ s a) (hf : ∀ b o, s.Filed b o → s₀.Filed b o) :
    Grown s₀ s res :=
  ⟨hs.of_filed h.1.keyed hf, fun b _ hb => (h.2 b).trans hb, .inr ⟨a, hr, h.1⟩⟩

/-- An address not equal to itself is equal to no address. -/
theorem not_equiv_of_not_self {a b : Address} (ha : a.Hashable) (hself : ¬ a.Equiv a) :
    ¬ b.Equiv a := fun h =>
  hself ((h.symm (h.hashable_left ha)).trans ha h)

/-- A create whose name is free files the object at its address and changes nothing else. -/
theorem create_fresh {s₀ : Store} (hs : s₀.WF) {res : Value} {a : Address}
    (hr : Address.read res = .ok a) (ha : a.Hashable) {o : Value} (ho : Address.read o = .ok a)
    (hfree : ¬ ((((s₀.openAll a).shelvesAt a.ns a.kind).bind (·.lookup a.apiVersion)).getD []).holds
      a.name = true) (n : Nat) :
    Grown s₀ ({ s₀.openAll a with issued := n }.write a o) res ∧
      (a.Equiv a → s₀.objectAt a = none ∧
        ({ s₀.openAll a with issued := n }.write a o).objectAt a = some o) := by
  have hopen := opened_openAll hs.keyed ha.1 ha.2.1 ha.2.2.1
  let s₄ : Store := { s₀.openAll a with issued := n }
  have hcontent : s₄.content = (s₀.openAll a).content := rfl
  have hkeyed : s₄.Keyed := by unfold Keyed; rw [hcontent]; exact hopen.1.keyed
  have hwf : s₄.WF := WF.of_content_eq (hs.of_filed hopen.1.keyed fun _ _ => filed_openAll)
    hcontent
  -- at an address equal to itself the free name finds nothing before the write
  have hnone : a.Equiv a → s₀.objectAt a = none := fun hself => by
    obtain ⟨shelf, hslot⟩ := shelfAt_openAll hs.keyed ha.1 ha.2.1 hself
    rw [hslot, Option.getD_some] at hfree
    rw [← hopen.2 a]
    simp only [objectAt, hslot, Option.bind_some]
    exact Table.lookup_eq_none_iff.2 (Table.holds_eq_false_iff.1 (by simpa using hfree))
  refine ⟨⟨hwf.write ha.2.2.2 ho, fun b o' hb => ?_, .inr ⟨a, hr, ?_⟩⟩, fun hself => ⟨hnone hself, ?_⟩⟩
  · have hba : ¬ b.Equiv a := fun h => by
      have hself : a.Equiv a := (h.symm (h.hashable_left ha)).trans ha h
      rw [← objectAt_congr s₀ ha (h.symm (h.hashable_left ha)), hnone hself] at hb
      cases hb
    rw [objectAt_write_frame hkeyed ha o hba]
    exact (hopen.2 b).trans hb
  · exact (hopen.1.trans (confined_of_content_eq hopen.1.keyed hcontent a)).trans
      (confined_write hkeyed ha o)
  · obtain ⟨shelf, hslot⟩ := shelfAt_openAll hs.keyed ha.1 ha.2.1 hself
    rw [objectAt_write hkeyed ha o hslot, if_pos hself]

/-- A create whose name is taken leaves the groups it opened and the object that was there. -/
theorem create_taken {s₀ : Store} (hs : s₀.WF) {res : Value} {a : Address}
    (hr : Address.read res = .ok a) (hns : a.ns.hashable = true) (hkind : a.kind.hashable = true)
    (hv : a.apiVersion.hashable = true)
    (htaken : ((((s₀.openAll a).shelvesAt a.ns a.kind).bind (·.lookup a.apiVersion)).getD []).holds
      a.name = true) :
    Grown s₀ (s₀.openAll a) res ∧ s₀.objectAt a ≠ none := by
  have hopen := opened_openAll hs.keyed hns hkind hv
  refine ⟨Grown.of_opened hs hr hopen fun _ _ => filed_openAll, fun hnone => ?_⟩
  cases hslot : ((s₀.openAll a).shelvesAt a.ns a.kind).bind (·.lookup a.apiVersion) with
  | none => simp [hslot, Table.holds] at htaken
  | some shelf =>
    rw [hslot, Option.getD_some] at htaken
    rw [← hopen.2 a] at hnone
    simp only [objectAt, hslot, Option.bind_some] at hnone
    rw [Table.lookup_eq_none_iff] at hnone
    rw [Table.holds_iff] at htaken
    obtain ⟨p, hp, he⟩ := htaken
    exact absurd he (by simpa using hnone p hp)

/-- A create files the stamped resource when its name is free and answers whether it did; it
only grows the store, about the address the resource names. -/
theorem create_spec (s₀ : Store) (hs : s₀.WF) (res : Value) (uid : String) (now : Stamp) :
    ⦃fun s => ⌜s = s₀⌝⦄ Store.create res uid now
    ⦃post⟨fun created s => ⌜Grown s₀ s res ∧ ∃ a, Address.read res = .ok a ∧
        (created = true → a.Equiv a → s₀.objectAt a = none ∧
          s.objectAt a = some (stamped res uid now (toString (s₀.issued + 1)))) ∧
        (created = false → s₀.objectAt a ≠ none)⌝,
      fun _ s => ⌜Grown s₀ s res⌝⟩⦄ := by
  mvcgen [Store.create, check_eq, Store.alterShelves, Store.nextVersion]
  all_goals subst_vars
  case vc1 =>
    rename_i a hr _ hns _ _ hkind _ _ hv _ _ _ _ htaken
    obtain ⟨hg, hne⟩ := create_taken hs hr (hashable_of_requireKey hns)
      (hashable_of_requireKey hkind) (hashable_of_requireKey hv) htaken
    exact ⟨hg, a, hr, by simp, hne⟩
  case vc2 =>
    rename_i a hr _ hns _ _ hkind _ _ hv _ _ hname _ hfree _ _ _
    have ha : a.Hashable := ⟨hashable_of_requireKey hns, hashable_of_requireKey hkind,
      hashable_of_requireKey hv, hashable_of_requireKey hname⟩
    obtain ⟨hg, hat⟩ := create_fresh hs hr ha (read_stamped hr uid now _) hfree _
    exact ⟨hg, a, hr, hat, by simp⟩
  case vc3 =>
    rename_i a hr _ hns _ _ hkind _ _ hv _ _ _
    exact Grown.of_opened hs hr (opened_openAll hs.keyed (hashable_of_requireKey hns)
      (hashable_of_requireKey hkind) (hashable_of_requireKey hv)) fun _ _ => filed_openAll
  case vc4 =>
    rename_i a hr _ hns _ _ hkind _ _ _
    have h₁ := opened_namespace hs.keyed (hashable_of_requireKey hns)
    exact Grown.of_opened hs hr (h₁.trans (opened_kind h₁.1.keyed (hashable_of_requireKey hkind)))
      fun _ _ h => filed_openNamespace (filed_openKind h)
  case vc5 =>
    rename_i a hr _ hns _ _ _
    exact Grown.of_opened hs hr (opened_namespace hs.keyed (hashable_of_requireKey hns))
      fun _ _ => filed_openNamespace
  all_goals exact Grown.refl hs res

/-! ### Replacing an object -/

/-- The metadata members that make an object the same object through its life: its uid, its
deletion mark and its finalizers. -/
def lifeKeys : List String := ["uid", "deletionTimestamp", "finalizers"]

/-- `o'` is `o` later in its life: the same uid, deletion mark and finalizers. -/
def Kept (o o' : Value) : Prop :=
  ∀ k ∈ lifeKeys, (o'.getD "metadata").get? k = (o.getD "metadata").get? k

/-- An object marked for deletion with no finalizer left, which the next write removes. -/
def Pending (o : Value) : Prop :=
  ((o.getD "metadata").getD "deletionTimestamp").truthy = true ∧
    ((o.getD "metadata").getD "finalizers").truthy = false

theorem Kept.refl (o : Value) : Kept o o := fun _ _ => rfl

theorem Kept.trans {o₁ o₂ o₃ : Value} (h₁ : Kept o₁ o₂) (h₂ : Kept o₂ o₃) : Kept o₁ o₃ :=
  fun k hk => (h₂ k hk).trans (h₁ k hk)

theorem Pending.of_kept {o o' : Value} (h : Kept o o') (hp : Pending o') : Pending o := by
  have hdt := h "deletionTimestamp" (by simp [lifeKeys])
  have hfin := h "finalizers" (by simp [lifeKeys])
  unfold Pending at hp ⊢
  rw [Value.getD_eq (o'.getD "metadata") "deletionTimestamp",
    Value.getD_eq (o'.getD "metadata") "finalizers", hdt, hfin] at hp
  rwa [Value.getD_eq (o.getD "metadata") "deletionTimestamp",
    Value.getD_eq (o.getD "metadata") "finalizers"]

/-- Every object of `s` is found in `s'` later in its life, unless it was pending. -/
def Keeps (s s' : Store) : Prop :=
  ∀ b o, s.objectAt b = some o → (∃ o', s'.objectAt b = some o' ∧ Kept o o') ∨ Pending o

theorem Keeps.refl (s : Store) : Keeps s s := fun _ o h => .inl ⟨o, h, Kept.refl o⟩

theorem Keeps.trans {s₁ s₂ s₃ : Store} (h₁ : Keeps s₁ s₂) (h₂ : Keeps s₂ s₃) : Keeps s₁ s₃ := by
  intro b o hb
  rcases h₁ b o hb with ⟨o', hb', hk⟩ | hp
  · rcases h₂ b o' hb' with ⟨o'', hb'', hk'⟩ | hp'
    · exact .inl ⟨o'', hb'', hk.trans hk'⟩
    · exact .inr (hp'.of_kept hk)
  · exact .inr hp

/-- The resource with the status of the object it replaces, as an update files it. -/
def withStatusOf (cur res : Value) : Value :=
  match cur.get? "status" with
  | some st => res.set "status" st
  | none => res.erase "status"

/-- The resource's metadata with the uid, creation time and deletion mark of the object it
replaces, where that one has them. -/
def restoredMetadata (cur res : Value) : Value :=
  ["uid", "creationTimestamp", "deletionTimestamp"].foldl (fun m f =>
    match (cur.getD "metadata").get? f with
    | some v => m.set f v
    | none => m) (res.getD "metadata")

/-- What an update of `cur` by `res` files: the resource with the status of `cur` and the
restored metadata, with some generation and resource version. -/
def Rewritten (cur res o : Value) : Prop :=
  ∃ g v, o = (withStatusOf cur res).set "metadata"
    (((restoredMetadata cur res).set "generation" g).set "resourceVersion" v)

theorem read_withStatusOf {res : Value} {a : Address} (hr : Address.read res = .ok a)
    (cur : Value) : Address.read (withStatusOf cur res) = .ok a := by
  unfold withStatusOf
  split
  · exact read_set_of_ne hr _ _ (by decide) (by decide) (by decide)
  · exact read_erase_of_ne hr _ (by decide) (by decide) (by decide)

theorem getD_metadata_withStatusOf (cur res : Value) :
    (withStatusOf cur res).getD "metadata" = res.getD "metadata" := by
  unfold withStatusOf
  split <;> simp [Value.getD_eq]

theorem isObj_foldl_restore (curMd : Value) (fs : List String) {md : Value}
    (hmd : md.isObj = true) :
    (fs.foldl (fun m f => match curMd.get? f with | some v => m.set f v | none => m) md).isObj =
      true := by
  induction fs generalizing md with
  | nil => exact hmd
  | cons f fs ih =>
    apply ih
    dsimp only
    split <;> simp [hmd]

theorem get?_foldl_restore (curMd : Value) (fs : List String) {md : Value} (hmd : md.isObj = true)
    (k : String) :
    (fs.foldl (fun m f => match curMd.get? f with | some v => m.set f v | none => m) md).get? k =
      if k ∈ fs then (curMd.get? k).or (md.get? k) else md.get? k := by
  induction fs generalizing md with
  | nil => simp
  | cons f fs ih =>
    have hstep : (match curMd.get? f with | some v => md.set f v | none => md).isObj = true := by
      split <;> simp [hmd]
    rw [List.foldl_cons, ih hstep]
    cases hf : curMd.get? f <;> by_cases hk : k = f <;> by_cases hks : k ∈ fs <;>
      simp_all

section Rewritten

variable {cur res : Value} {a : Address}

theorem isObj_restoredMetadata (hr : Address.read res = .ok a) :
    (restoredMetadata cur res).isObj = true := by
  have hmd := metadata_isObj_of_read hr
  rw [← getD_metadata_of_read hr] at hmd
  exact isObj_foldl_restore _ _ hmd

theorem get?_restoredMetadata (hr : Address.read res = .ok a) (k : String) :
    (restoredMetadata cur res).get? k =
      if k ∈ ["uid", "creationTimestamp", "deletionTimestamp"] then
        ((cur.getD "metadata").get? k).or ((res.getD "metadata").get? k)
      else (res.getD "metadata").get? k := by
  have hmd := metadata_isObj_of_read hr
  rw [← getD_metadata_of_read hr] at hmd
  exact get?_foldl_restore _ _ hmd k

/-- The metadata of the object an update files is the one it was given. -/
theorem getD_metadata_rewritten (hr : Address.read res = .ok a) (md : Value) :
    ((withStatusOf cur res).set "metadata" md).getD "metadata" = md := by
  simp [Value.getD_eq, isObj_of_read (read_withStatusOf hr cur)]

theorem Rewritten.read {o : Value} (hr : Address.read res = .ok a) (h : Rewritten cur res o) :
    Address.read o = .ok a := by
  obtain ⟨g, v, rfl⟩ := h
  have hs := read_withStatusOf hr cur
  have hmd : metadataOf (withStatusOf cur res) = res.getD "metadata" := by
    rw [← getD_metadata_of_read hs, getD_metadata_withStatusOf]
  refine read_set_metadata hs (by simp [isObj_restoredMetadata hr]) ?_ ?_ <;>
    simp [hmd, get?_restoredMetadata hr]

/-- An update whose resource keeps the life of the object it replaces files that object later
in its life. -/
theorem Rewritten.kept {o : Value} (hr : Address.read res = .ok a) (hk : Kept cur res)
    (h : Rewritten cur res o) : Kept cur o := by
  obtain ⟨g, v, rfl⟩ := h
  intro k hks
  have hk' := hk k hks
  simp only [lifeKeys, List.mem_cons, List.not_mem_nil, or_false] at hks
  rw [getD_metadata_rewritten hr]
  rcases hks with rfl | rfl | rfl <;> simp [get?_restoredMetadata hr, hk']

end Rewritten

/-- What an update leaves: a well-formed store that keeps every object through its life unless
it was pending, confined to the address the resource names, or the store as it was. -/
structure Rewrote (s₀ s : Store) (res : Value) : Prop where
  wf : s.WF
  keeps : Keeps s₀ s
  confined : s = s₀ ∨ ∃ a, Address.read res = .ok a ∧ Confined s₀ s a

theorem Rewrote.refl {s : Store} (hs : s.WF) (res : Value) : Rewrote s s res :=
  ⟨hs, Keeps.refl s, .inl rfl⟩

/-- An address where an object is found is one whose parts serve as keys, equal to itself. -/
theorem hashable_of_objectAt {s : Store} (hs : s.Keyed) {a : Address} {o : Value}
    (h : s.objectAt a = some o) : a.Hashable ∧ a.Equiv a := by
  obtain ⟨b, hf, hb⟩ := exists_filed_of_objectAt h
  have hbh := Filed.hashable hs hf
  have hab := hb.symm hbh
  have ha := hab.hashable_left hbh
  exact ⟨ha, hab.trans ha hb⟩

/-- The object an update finds is the one at the address its resource names. -/
theorem objectAt_of_shelvesOf {s : Store} {a : Address} {shelves : KindShelves} {cur : Value}
    (hsh : s.shelvesOf a.ns a.kind = .ok shelves)
    (hcur : ((shelves.lookup a.apiVersion).getD []).lookup a.name = some cur) :
    s.objectAt a = some cur := by
  rw [shelvesOf_eq] at hsh
  simp only [bind, Except.bind] at hsh
  split at hsh
  · cases hsh
  · split at hsh
    · cases hsh
    · simp only [pure, Except.pure, Except.ok.injEq] at hsh
      subst hsh
      cases hat : s.shelvesAt a.ns a.kind with
      | none => simp [hat, Table.lookup_nil] at hcur
      | some sh =>
        rw [hat, Option.getD_some] at hcur
        cases hv : sh.lookup a.apiVersion with
        | none => simp [hv, Table.lookup_nil] at hcur
        | some shelf =>
          rw [hv, Option.getD_some] at hcur
          simp [objectAt, hat, hv, hcur]

/-- An accepted update files the rewritten object at its address, and removes it again when it
is pending; either way the store keeps every other object. -/
theorem update_accepted {s₀ : Store} (hs : s₀.WF) {res cur o : Value} {a : Address}
    (hr : Address.read res = .ok a) (hname : a.name.hashable = true)
    (hcur : s₀.objectAt a = some cur) (hkept : Kept cur res) (ho : Rewritten cur res o) (n : Nat) :
    Rewrote s₀ ({ s₀ with issued := n }.write a o) res ∧
      ({ s₀ with issued := n }.write a o).objectAt a = some o ∧
      (Pending o →
        Rewrote s₀ ((({ s₀ with issued := n }.write a o).remove a).prune a.ns a.kind a.apiVersion)
          res ∧
        ((({ s₀ with issued := n }.write a o).remove a).prune a.ns a.kind a.apiVersion).objectAt a =
          none) := by
  obtain ⟨ha, hself⟩ := hashable_of_objectAt hs.keyed hcur
  let s₁ : Store := { s₀ with issued := n }
  have hcontent : s₁.content = s₀.content := rfl
  have hwf₁ : s₁.WF := hs.of_content_eq hcontent
  obtain ⟨shelf, hslot, -⟩ := Option.bind_eq_some_iff.1 hcur
  have hat : ∀ b, (s₁.write a o).objectAt b = if b.Equiv a then some o else s₀.objectAt b :=
    objectAt_write hwf₁.keyed ha o hslot
  -- an address equal to `a` found `cur` before the update
  have hcur_at : ∀ b, b.Equiv a → s₀.objectAt b = some cur := fun b hb =>
    (objectAt_congr s₀ ha (hb.symm (hb.hashable_left ha))).symm.trans hcur
  have hconf : Confined s₀ (s₁.write a o) a :=
    (confined_of_content_eq hs.keyed hcontent a).trans (confined_write hwf₁.keyed ha o)
  have hwf₂ : (s₁.write a o).WF := hwf₁.write hname (ho.read hr)
  have hko := ho.kept hr hkept
  refine ⟨⟨hwf₂, fun b o₀ hb => ?_, .inr ⟨a, hr, hconf⟩⟩, by rw [hat, if_pos hself], fun hp => ?_⟩
  · rw [hat]
    split
    · rename_i hba
      rw [hcur_at b hba] at hb
      cases hb
      exact .inl ⟨o, rfl, hko⟩
    · exact .inl ⟨o₀, hb, Kept.refl o₀⟩
  · have hrem : ∀ b, (((s₁.write a o).remove a).prune a.ns a.kind a.apiVersion).objectAt b =
        if b.Equiv a then none else s₀.objectAt b := fun b => by
      rw [objectAt_prune (keyed_remove hwf₂.keyed a), objectAt_remove hwf₂.keyed, hat]
      split <;> rfl
    refine ⟨⟨(hwf₂.remove a).prune _ _ _, fun b o₀ hb => ?_, .inr ⟨a, hr, ?_⟩⟩, by
      rw [hrem, if_pos hself]⟩
    · rw [hrem]
      split
      · rename_i hba
        rw [hcur_at b hba] at hb
        cases hb
        exact .inr (hp.of_kept hko)
      · exact .inl ⟨o₀, hb, Kept.refl o₀⟩
    · exact (hconf.trans (confined_remove hwf₂.keyed a)).trans
        (confined_prune (keyed_remove hwf₂.keyed a) a)

theorem pending_of_removal {cur res : Value} {a : Address} (hr : Address.read res = .ok a)
    (md : Value)
    (h : ((md.getD "deletionTimestamp").truthy && !(md.getD "finalizers").truthy) = true) :
    Pending ((withStatusOf cur res).set "metadata" md) := by
  rw [Pending, getD_metadata_rewritten hr]
  simpa using h

/-- The outcome of an accepted update, in the form its spec states it. -/
theorem update_close {s₀ : Store} (hs : s₀.WF) {res : Value}
    (hkept : ∀ a cur, Address.read res = .ok a → s₀.objectAt a = some cur → Kept cur res)
    {a : Address} (hr : Address.read res = .ok a) {u : Unit} (hname : requireKey a.name = .ok u)
    {shelves : KindShelves} (hsh : s₀.shelvesOf a.ns a.kind = .ok shelves) {cur : Value}
    (hcur : ((shelves.lookup a.apiVersion).getD []).lookup a.name = some cur) {o : Value}
    (ho : Rewritten cur res o) (n : Nat) :
    (Rewrote s₀ ({ s₀ with issued := n }.write a o) res ∧ ∃ b cur o',
      Address.read res = .ok b ∧ s₀.objectAt b = some cur ∧ Rewritten cur res o' ∧
      (({ s₀ with issued := n }.write a o).objectAt b = some o' ∨
        Pending o' ∧ ({ s₀ with issued := n }.write a o).objectAt b = none)) ∧
    (Pending o →
      Rewrote s₀ ((({ s₀ with issued := n }.write a o).remove a).prune a.ns a.kind a.apiVersion)
        res ∧ ∃ b cur o', Address.read res = .ok b ∧ s₀.objectAt b = some cur ∧
        Rewritten cur res o' ∧
        (((({ s₀ with issued := n }.write a o).remove a).prune a.ns a.kind a.apiVersion).objectAt b =
          some o' ∨ Pending o' ∧
        ((({ s₀ with issued := n }.write a o).remove a).prune a.ns a.kind a.apiVersion).objectAt b =
          none)) := by
  have hcur' := objectAt_of_shelvesOf hsh hcur
  obtain ⟨hw, hat, hrem⟩ := update_accepted hs hr (hashable_of_requireKey hname) hcur'
    (hkept a cur hr hcur') ho n
  refine ⟨⟨hw, a, cur, o, hr, hcur', ho, .inl hat⟩, fun hp => ?_⟩
  obtain ⟨hw', hat'⟩ := hrem hp
  exact ⟨hw', a, cur, o, hr, hcur', ho, .inr ⟨hp, hat'⟩⟩

/-- An update whose resource keeps the life of the object it replaces keeps every object of the
store through its life, unless pending, and touches only the address its resource names;
when accepted, it files the rewritten object there, or removes it as pending. -/
theorem update_spec (s₀ : Store) (hs : s₀.WF) (res : Value)
    (hkept : ∀ a cur, Address.read res = .ok a → s₀.objectAt a = some cur → Kept cur res) :
    ⦃fun s => ⌜s = s₀⌝⦄ Store.update res
    ⦃post⟨fun r s => ⌜Rewrote s₀ s res ∧ (r.1 = true → ∃ a cur o, Address.read res = .ok a ∧
        s₀.objectAt a = some cur ∧ Rewritten cur res o ∧
        (s.objectAt a = some o ∨ (Pending o ∧ s.objectAt a = none)))⌝,
      fun _ s => ⌜s = s₀⌝⟩⦄ := by
  mvcgen [Store.update, check_eq, Store.alterShelves, Store.nextVersion, Store.removeAt,
    Store.pruneAt]
  all_goals subst_vars
  case vc1 | vc2 => exact ⟨Rewrote.refl hs res, by simp⟩
  case vc3 | vc5 =>
    exact (update_close hs hkept ‹_› ‹requireKey (Address.name _) = .ok _› ‹_› ‹_› ⟨_, _, rfl⟩
      _).2 (pending_of_removal ‹_› _ ‹_›)
  case vc4 | vc6 =>
    exact (update_close hs hkept ‹_› ‹requireKey (Address.name _) = .ok _› ‹_› ‹_› ⟨_, _, rfl⟩
      _).1

/-! ### Writing over an object in place -/

/-- Writing at the address of an object a value that names the same address keeps the store
well formed. -/
theorem WF.write_same {s : Store} (hs : s.WF) {a : Address} (ha : a.Hashable)
    (hname : a.name.heldEquiv a.name = true) {o : Value}
    (h : a.Equiv a → ∃ cur, s.objectAt a = some cur ∧
      ∀ a₀, Address.read cur = .ok a₀ → Address.read o = .ok a₀) :
    (s.write a o).WF where
  keyed := keyed_write hs.keyed ha.2.2.2 o
  filedUnder b o' hf := by
    rcases filed_write hf with hf | ⟨rfl, hn, hk, hv, hnm⟩
    · exact hs.filedUnder b o' hf
    have hba : b.Equiv a := ⟨hn, hk, hv, hnm.elim id fun e => e ▸ hname⟩
    have hb := hba.hashable_left ha
    obtain ⟨cur, hcur, ho⟩ := h ((hba.symm hb).trans ha hba)
    obtain ⟨c, hfc, hca⟩ := exists_filed_of_objectAt hcur
    have hc := Filed.hashable hs.keyed hfc
    obtain ⟨a₀, hr, hn₀, hk₀, hv₀, hnm₀⟩ := hs.filedUnder c cur hfc
    -- each part of `b` equals the part of `c` through `a`, and so the part `cur` names
    have via : ∀ {x y z w : Value}, x.hashable = true → z.hashable = true → x.heldEquiv y = true →
        z.heldEquiv y = true → z.heldEquiv w = true → x.heldEquiv w = true := fun hx hz hxy hzy hzw =>
      Value.heldEquiv_trans hx (Value.heldEquiv_trans hx hxy (Value.heldEquiv_symm hz hzy)) hzw
    refine ⟨a₀, ho a₀ hr, via hb.1 hc.1 hba.1 hca.1 hn₀, via hb.2.1 hc.2.1 hba.2.1 hca.2.1 hk₀,
      via hb.2.2.1 hc.2.2.1 hba.2.2.1 hca.2.2.1 hv₀, .inl ?_⟩
    rcases hnm₀ with hnm₀ | hnm₀
    · exact via hb.2.2.2 hc.2.2.2 hba.2.2.2 hca.2.2.2 hnm₀
    · rw [← hnm₀]
      exact Value.heldEquiv_trans hb.2.2.2 hba.2.2.2 (Value.heldEquiv_symm hc.2.2.2 hca.2.2.2)

/-- Writing over an object a value that keeps its life keeps every object of the store. -/
theorem keeps_write {s : Store} (hs : s.Keyed) {a : Address} (ha : a.Hashable) {o : Value}
    (h : a.Equiv a → ∃ cur, s.objectAt a = some cur ∧ Kept cur o) : Keeps s (s.write a o) := by
  intro b o₀ hb
  by_cases hba : b.Equiv a
  · have hbh := hba.hashable_left ha
    obtain ⟨cur, hcur, hk⟩ := h ((hba.symm hbh).trans ha hba)
    obtain ⟨shelf, hslot, -⟩ := Option.bind_eq_some_iff.1 hcur
    rw [objectAt_congr s hbh hba, hcur] at hb
    cases hb
    exact .inl ⟨o, by rw [objectAt_write hs ha o hslot, if_pos hba], hk⟩
  · exact .inl ⟨o₀, (objectAt_write_frame hs ha o hba).trans hb, Kept.refl o₀⟩

/-! ### Writing a status -/

/-- An object with a new status and resource version. -/
def statusWritten (cur status : Value) (rv : String) : Value :=
  (cur.set "status" status).set "metadata" ((cur.getD "metadata").set "resourceVersion" (.str rv))

theorem kept_statusWritten (cur status : Value) (rv : String) :
    Kept cur (statusWritten cur status rv) := by
  intro k hk
  simp only [lifeKeys, List.mem_cons, List.not_mem_nil, or_false] at hk
  cases hc : cur.isObj <;> rcases hk with rfl | rfl | rfl <;>
    simp [statusWritten, Value.getD_eq, hc, Value.set_of_not_obj]

theorem read_statusWritten {cur : Value} {a : Address} (h : Address.read cur = .ok a)
    (status : Value) (rv : String) : Address.read (statusWritten cur status rv) = .ok a := by
  have hs := read_set_of_ne h "status" status (by decide) (by decide) (by decide)
  have hmd : metadataOf (cur.set "status" status) = cur.getD "metadata" := by
    rw [← getD_metadata_of_read hs]
    simp [Value.getD_eq]
  have hobj := metadata_isObj_of_read h
  rw [← getD_metadata_of_read h] at hobj
  refine read_set_metadata hs (by simp [hobj]) ?_ ?_ <;> simp [hmd]

/-- What writing the status of an object leaves: the object of the name on the first fitting
shelf of the kind gets the status and the next resource version. -/
def StatusWrite (s₀ s : Store) (ns kind name status : Value) : Prop :=
  ∃ shelves version shelf rv, s₀.shelvesAt ns kind = some shelves ∧ (version, shelf) ∈ shelves ∧
    shelf.holds name = true ∧ ns.hashable = true ∧ kind.hashable = true ∧
    s = { s₀ with issued := s₀.issued + 1 }.write ⟨ns, kind, version, name⟩
      (statusWritten ((shelf.lookup name).getD .null) status rv)

section StatusWrite

variable {s₀ s : Store} {ns kind name status : Value}

/-- A status write writes at an address of the kind, over the object found there. -/
theorem StatusWrite.address (hs : s₀.Keyed) (h : StatusWrite s₀ s ns kind name status) :
    ∃ a o, a.Hashable ∧ a.name.heldEquiv a.name = true ∧ a.kind = kind ∧
      s = { s₀ with issued := s₀.issued + 1 }.write a o ∧
      (a.Equiv a → ∃ cur, s₀.objectAt a = some cur ∧ ∃ rv, o = statusWritten cur status rv) := by
  obtain ⟨shelves, version, shelf, rv, hsh, hmem, hheld, hns, hkind, rfl⟩ := h
  have hkeyed := shelvesKeyed_of_shelvesAt hs hsh
  obtain ⟨p, hp, hpe⟩ := Table.holds_iff.1 hheld
  have hpk : p.1.hashable = true := (hkeyed.2 _ hmem).hashable _ hp
  have hnh : name.hashable = true := Value.hashable_of_heldEquiv hpk hpe
  have hself : name.heldEquiv name = true :=
    Value.heldEquiv_trans hnh (Value.heldEquiv_symm hpk hpe) hpe
  refine ⟨⟨ns, kind, version, name⟩, _, ⟨hns, hkind, hkeyed.1.hashable _ hmem, hnh⟩, hself, rfl,
    rfl, fun ha => ?_⟩
  obtain ⟨x, hx⟩ := Option.isSome_iff_exists.1 (Table.lookup_isSome_iff.symm ▸ hheld)
  refine ⟨x, ?_, rv, by rw [hx, Option.getD_some]⟩
  simp [objectAt, hsh, Table.lookup_of_mem hkeyed.1 hmem ha.2.2.1, hx]

theorem StatusWrite.wf (hs : s₀.WF) (h : StatusWrite s₀ s ns kind name status) : s.WF := by
  obtain ⟨a, o, ha, hname, -, rfl, hfound⟩ := h.address hs.keyed
  have hwf : ({ s₀ with issued := s₀.issued + 1 } : Store).WF := hs.of_content_eq rfl
  refine hwf.write_same ha hname fun hself => ?_
  obtain ⟨cur, hcur, rv, rfl⟩ := hfound hself
  exact ⟨cur, hcur, fun _ hr => read_statusWritten hr status rv⟩

theorem StatusWrite.keeps (hs : s₀.Keyed) (h : StatusWrite s₀ s ns kind name status) :
    Keeps s₀ s := by
  obtain ⟨a, o, ha, -, -, rfl, hfound⟩ := h.address hs
  refine keeps_write (s := { s₀ with issued := s₀.issued + 1 }) hs ha fun hself => ?_
  obtain ⟨cur, hcur, rv, rfl⟩ := hfound hself
  exact ⟨cur, hcur, kept_statusWritten cur status rv⟩

theorem StatusWrite.confined (hs : s₀.Keyed) (h : StatusWrite s₀ s ns kind name status) :
    ∃ a, a.kind = kind ∧ Confined s₀ s a := by
  obtain ⟨a, o, ha, -, hk, rfl, -⟩ := h.address hs
  have h₁ : Confined s₀ { s₀ with issued := s₀.issued + 1 } a :=
    confined_of_content_eq hs (by rfl) a
  exact ⟨a, hk, h₁.trans (confined_write h₁.keyed ha o)⟩

end StatusWrite

/-- The store a status write reaches from what it found. -/
theorem statusWrite_of_find {s₀ : Store} {ns kind name v status : Value} {shelves : KindShelves}
    (hsh : s₀.shelvesOf ns kind = .ok shelves) {version : Value} {shelf : Shelf}
    (hfind : shelves.find? (fun p => p.2.holds name && versionHeld v p.1) = some (version, shelf))
    (rv : String) :
    StatusWrite s₀ ({ s₀ with issued := s₀.issued + 1 }.write ⟨ns, kind, version, name⟩
      (statusWritten ((shelf.lookup name).getD .null) status rv)) ns kind name status := by
  rw [shelvesOf_eq] at hsh
  simp only [bind, Except.bind] at hsh
  split at hsh
  · cases hsh
  rename_i u hns
  split at hsh
  · cases hsh
  rename_i u' hkind
  simp only [pure, Except.pure, Except.ok.injEq] at hsh
  subst hsh
  have hmem := List.mem_of_find?_eq_some hfind
  have hpred := List.find?_some hfind
  simp only [Bool.and_eq_true] at hpred
  cases hat : s₀.shelvesAt ns kind with
  | none => simp [hat] at hmem
  | some sh =>
    rw [hat, Option.getD_some] at hmem
    exact ⟨sh, version, shelf, rv, hat, hmem, hpred.1, hashable_of_requireKey hns,
      hashable_of_requireKey hkind, rfl⟩

/-- Writing a status changes at most the object of the name on the first fitting shelf. -/
theorem setStatus_spec (s₀ : Store) (kind name ns status v : Value) :
    ⦃fun s => ⌜s = s₀⌝⦄ Store.setStatus kind name ns status v
    ⦃post⟨fun _ s => ⌜s = s₀ ∨ StatusWrite s₀ s ns kind name status⌝, fun _ s => ⌜s = s₀⌝⟩⦄ := by
  mvcgen [Store.setStatus, check_eq, Store.alterShelves, Store.nextVersion]
  all_goals subst_vars
  case vc3 => exact .inr (statusWrite_of_find ‹_› ‹_› _)
  case vc7 =>
    -- no shelf was found, so nothing can be found on one
    rename_i shelves _ _ hempty _ _ hfind _ _ _ _ _
    have hnil : shelves = [] := by simpa using hempty
    simp [hnil] at hfind
  all_goals exact .inl rfl

/-! ### Deleting listed objects -/

/-- The object the lookups of a deletion find is the object at their address. -/
theorem objectAt_of_lookups {s : Store} {ns kind v name o : Value}
    (h : (do
      let kinds ← (s.content.lookup ns).elim (Except.error (Failure.missingKey ns.literal)) Except.ok
      let shelves ← (kinds.lookup kind).elim (Except.error (Failure.missingKey kind.literal))
        Except.ok
      let shelf ← (Table.lookup shelves v).elim (Except.error (Failure.missingKey v.literal))
        Except.ok
      (Table.lookup shelf name).elim (Except.error (Failure.missingKey name.literal)) Except.ok :
        Except Failure Value) = .ok o) :
    s.objectAt ⟨ns, kind, v, name⟩ = some o := by
  cases h₁ : s.content.lookup ns with
  | none => simp [h₁, Option.elim, bind, Except.bind] at h
  | some kinds =>
    cases h₂ : kinds.lookup kind with
    | none => simp [h₁, h₂, Option.elim, bind, Except.bind] at h
    | some shelves =>
      cases h₃ : Table.lookup shelves v with
      | none => simp [h₁, h₂, h₃, Option.elim, bind, Except.bind] at h
      | some shelf =>
        cases h₄ : Table.lookup shelf name with
        | none => simp [h₁, h₂, h₃, h₄, Option.elim, bind, Except.bind] at h
        | some x =>
          simp only [h₁, h₂, h₃, h₄, Option.elim, bind, Except.bind, Except.ok.injEq] at h
          subst h
          simp [objectAt, shelvesAt, h₁, h₂, h₃, h₄]

/-- What deleting listed objects of a kind leaves: a well-formed store where every address
finds what it found before unless it satisfies `P`, and every other kind is as it was. -/
structure Deleted (s₀ s : Store) (P : Address → Prop) (kind : Value) : Prop where
  wf : s.WF
  changed : ∀ b, s.objectAt b = s₀.objectAt b ∨ P b
  sameKind : ∀ K, K.heldEquiv kind = false → SameKind K s₀ s

theorem Deleted.refl {s : Store} (hs : s.WF) (P : Address → Prop) (kind : Value) :
    Deleted s s P kind :=
  ⟨hs, fun _ => .inl rfl, fun K _ => SameKind.refl K s⟩

/-- A step confined to an address satisfying `P`, from a store left by deletions, leaves one. -/
theorem Deleted.step {s₀ s s' : Store} {P : Address → Prop} {kind : Value} {a : Address}
    (h : Deleted s₀ s P kind) (hs' : s'.WF) (hc : Confined s s' a) (hk : a.kind = kind)
    (ha : a.Hashable) (hP : ∀ c, a.Equiv c → P c) : Deleted s₀ s' P kind where
  wf := hs'
  changed b := by
    by_cases hba : b.Equiv a
    · exact .inr (hP b ((hba.symm (hba.hashable_left ha))))
    · rw [hc.frame b hba]
      exact h.changed b
  sameKind K hK := (h.sameKind K hK).trans (hc.sameKind K (hk ▸ hK))

section DeleteStep

variable {s₀ s : Store} {P : Address → Prop} {kind m stored : Value} {a b : Address}

/-- The address a deletion acts on is equal to the one the listed object is filed under. -/
theorem equiv_of_listed (hs : s.Keyed) (hr : Address.read m = .ok a)
    (hfiled : FiledUnder m b) (hbk : b.kind.heldEquiv kind = true)
    (hat : s.objectAt ⟨a.ns, kind, a.apiVersion, a.name⟩ = some stored) :
    b.Equiv ⟨a.ns, kind, a.apiVersion, a.name⟩ ∧ (⟨a.ns, kind, a.apiVersion, a.name⟩ : Address).Hashable := by
  obtain ⟨ha, hself⟩ := hashable_of_objectAt hs hat
  obtain ⟨a₀, hr₀, hn, -, hv, hnm⟩ := hfiled
  rw [hr] at hr₀
  cases hr₀
  exact ⟨⟨hn, hbk, hv, hnm.elim id fun e => e ▸ hself.2.2.2⟩, ha⟩

theorem Deleted.mark (h : Deleted s₀ s P kind)
    (hP : ∀ b c, b.Hashable → b.Equiv c → P b → P c) (hr : Address.read m = .ok a)
    (hfiled : FiledUnder m b) (hPb : P b) (hbk : b.kind.heldEquiv kind = true)
    (hat : s.objectAt ⟨a.ns, kind, a.apiVersion, a.name⟩ = some stored) (now : Stamp) :
    Deleted s₀ (s.write ⟨a.ns, kind, a.apiVersion, a.name⟩ (stored.set "metadata"
      (if ((stored.getD "metadata").get? "deletionTimestamp").isSome = true then
        stored.getD "metadata"
      else (stored.getD "metadata").set "deletionTimestamp" (.str now.zulu)))) P kind := by
  obtain ⟨hba, ha⟩ := equiv_of_listed h.wf.keyed hr hfiled hbk hat
  have hself := (hashable_of_objectAt h.wf.keyed hat).2
  have hPa := hP b _ (hba.hashable_left ha) hba hPb
  refine h.step (h.wf.write_same ha hself.2.2.2 fun _ => ⟨stored, hat, fun a₀ hr₀ => ?_⟩)
    (confined_write h.wf.keyed ha _) rfl ha fun c hc => hP _ c ha hc hPa
  have hobj := metadata_isObj_of_read hr₀
  refine read_set_metadata hr₀ ?_ ?_ ?_ <;> split <;>
    simp [hobj, getD_metadata_of_read hr₀]

theorem Deleted.remove (h : Deleted s₀ s P kind)
    (hP : ∀ b c, b.Hashable → b.Equiv c → P b → P c) (hr : Address.read m = .ok a)
    (hfiled : FiledUnder m b) (hPb : P b) (hbk : b.kind.heldEquiv kind = true)
    (hat : s.objectAt ⟨a.ns, kind, a.apiVersion, a.name⟩ = some stored) :
    Deleted s₀ ((s.remove ⟨a.ns, kind, a.apiVersion, a.name⟩).prune a.ns kind a.apiVersion) P
      kind := by
  obtain ⟨hba, ha⟩ := equiv_of_listed h.wf.keyed hr hfiled hbk hat
  have hPa := hP b _ (hba.hashable_left ha) hba hPb
  let a' : Address := ⟨a.ns, kind, a.apiVersion, a.name⟩
  have hwf : ((s.remove a').prune a'.ns a'.kind a'.apiVersion).WF :=
    (h.wf.remove a').prune a'.ns a'.kind a'.apiVersion
  have hconf : Confined s ((s.remove a').prune a'.ns a'.kind a'.apiVersion) a' :=
    (confined_remove h.wf.keyed a').trans (confined_prune (keyed_remove h.wf.keyed a') a')
  exact h.step hwf hconf rfl ha fun c hc => hP _ c ha hc hPa

end DeleteStep

/-- Deleting listed objects, each filed under an address satisfying `P` (a property of
addresses that equal addresses share) in the kind deleted, changes only such addresses. -/
theorem deleteListed_spec (s₀ : Store) (hs : s₀.WF) (kind : Value) (listed : List Value)
    (now : Stamp) (P : Address → Prop) (hP : ∀ b c, b.Hashable → b.Equiv c → P b → P c)
    (hlisted : ∀ m ∈ listed, ∃ b, P b ∧ FiledUnder m b ∧ b.kind.heldEquiv kind = true) :
    ⦃fun s => ⌜s = s₀⌝⦄ Store.deleteListed kind listed now
    ⦃post⟨fun _ s => ⌜Deleted s₀ s P kind⌝, fun _ s => ⌜Deleted s₀ s P kind⌝⟩⦄ := by
  mvcgen [Store.deleteListed, check_eq, Store.alterShelves, Store.removeAt, Store.pruneAt]
    invariants
    · post⟨fun _ s => ⌜Deleted s₀ s P kind⌝, fun _ s => ⌜Deleted s₀ s P kind⌝⟩
  case vc1 =>
    rename_i cur _ hlist _ _ h _ hr _ hlook _ _ _ _
    obtain ⟨b, hPb, hfiled, hbk⟩ := hlisted cur (by simp [hlist])
    exact h.mark hP hr hfiled hPb hbk (objectAt_of_lookups hlook) now
  case vc2 =>
    rename_i cur _ hlist _ _ h _ hr _ hlook _ _ _ _
    obtain ⟨b, hPb, hfiled, hbk⟩ := hlisted cur (by simp [hlist])
    exact h.remove hP hr hfiled hPb hbk (objectAt_of_lookups hlook)
  case vc5 =>
    subst_vars
    exact Deleted.refl hs P kind

end Store

end OperandLifecycle.Cluster
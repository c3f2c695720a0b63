import OperandLifecycle.Proofs.Operations
/-!
# What each call of the store can do

Every call of the store ends in one of a few outcomes, each said once, as an equation for the
store it leaves: a create leaves the store as it was, opens the groups on the way to the address
its resource names, or files the stamped resource there (`Store.create_outcome`); an update
leaves the store as it was, or files the updated object and takes it off again when it is
pending (`Store.update_outcome`); a status write gives one object the status and the next
version (`Store.setStatus_outcome`); a deletion marks or removes objects, one address at a
time (`Store.deleteAll_outcome`). The laws of the stores that calls build are derived from
these outcomes, never from the operations themselves.

A store is compact when no namespace, kind or version in it is empty (`Store.Compact`). Writes
and removals keep a store compact; a create that stops at a part that cannot serve as a key
leaves the groups it opened empty.

`Store.Call` is a call with its arguments, and `Store.runCalls` runs calls in turn, each on the
store the one before left, whatever it answered.
-/

set_option mvcgen.warning false

namespace OperandLifecycle

open Std.Do

/-- A spec from one state, read back as the outcome of the run from that state. -/
theorem run_of_triple {σ ε α : Type} {x : ExceptT ε (StateM σ) α} {s₀ : σ}
    {Q : α → σ → Prop} {E : ε → σ → Prop}
    (h : ⦃fun s => ⌜s = s₀⌝⦄ x ⦃post⟨fun r s => ⌜Q r s⌝, fun e s => ⌜E e s⌝⟩⦄) :
    match x.run.run s₀ with
    | (.ok r, s) => Q r s
    | (.error e, s) => E e s := by
  have h' := (triple_iff_run x _ _).1 h s₀ rfl
  rcases hx : x.run.run s₀ with ⟨_ | r, s⟩ <;> rw [hx] at h' <;> exact h'

/-- What a spec from one state says of a result, for the result the run answers. -/
theorem ok_of_triple {σ ε α : Type} {x : ExceptT ε (StateM σ) α} {s₀ : σ}
    {Q : α → σ → Prop} {E : ε → σ → Prop}
    (h : ⦃fun s => ⌜s = s₀⌝⦄ x ⦃post⟨fun r s => ⌜Q r s⌝, fun e s => ⌜E e s⌝⟩⦄) {r : α}
    (hr : (x.run.run s₀).1 = .ok r) : Q r (x.run.run s₀).2 := by
  have h' := run_of_triple h
  rcases hx : x.run.run s₀ with ⟨_ | r', s⟩ <;> rw [hx] at h' hr
  · cases hr
  · cases hr
    exact h'

/-- What a spec from one state says alike of its results and its failures holds of the state
the run ends in. -/
theorem state_of_triple {σ ε α : Type} {x : ExceptT ε (StateM σ) α} {s₀ : σ}
    {Q : α → σ → Prop} {E : ε → σ → Prop} {R : σ → Prop}
    (h : ⦃fun s => ⌜s = s₀⌝⦄ x ⦃post⟨fun r s => ⌜Q r s⌝, fun e s => ⌜E e s⌝⟩⦄)
    (hQ : ∀ r s, Q r s → R s) (hE : ∀ e s, E e s → R s) : R (x.run.run s₀).2 := by
  have h' := run_of_triple h
  rcases hx : x.run.run s₀ with ⟨_ | r, s⟩ <;> rw [hx] at h'
  · exact hE _ _ h'
  · exact hQ _ _ h'

namespace Cluster

open Json

theorem Address.Equiv.refl {a : Address} (ha : a.Hashable) : a.Equiv a :=
  ⟨Value.heldEquiv_self ha.1, Value.heldEquiv_self ha.2.1, Value.heldEquiv_self ha.2.2.1,
    Value.heldEquiv_self ha.2.2.2⟩

theorem unhashable_of_requireKey {v : Value} {e : Failure} (h : requireKey v = .error e) :
    v.hashable = false := by
  unfold requireKey at h
  split at h
  · cases h
  · rename_i hv
    simpa using hv

namespace Table

variable {α : Type}

theorem alter_ne_nil {t : Table α} (h : t ≠ []) (k : Value) (f : α → α) : t.alter k f ≠ [] := by
  simpa [alter] using h

theorem put_ne_nil (t : Table α) (k : Value) (x : α) : t.put k x ≠ [] := by
  unfold put
  split
  · rename_i h
    exact alter_ne_nil (by rintro rfl; simp [holds] at h) _ _
  · simp

/-- Changing the entry under a key by a map that keeps a property keeps it of every entry. -/
theorem forall_mem_alter {P : α → Prop} {t : Table α} (h : ∀ p ∈ t, P p.2) (k : Value)
    {f : α → α} (hf : ∀ p ∈ t, P p.2 → P (f p.2)) : ∀ q ∈ t.alter k f, P q.2 := by
  intro q hq
  obtain ⟨p, hp, rfl⟩ := mem_alter.1 hq
  split
  · exact hf p hp (h p hp)
  · exact h p hp

theorem alter_alter (t : Table α) (k : Value) (f g : α → α) :
    (t.alter k f).alter k g = t.alter k (g ∘ f) := by
  simp only [alter, List.map_map]
  congr 1
  funext p
  simp only [Function.comp]
  split <;> simp [*]

theorem ensure_of_holds {t : Table α} {k : Value} (h : t.holds k = true) (x : α) :
    t.ensure k x = t := by
  simp [ensure, h]

/-- Changing the entry under a key of a keyed table into itself changes nothing. -/
theorem alter_of_lookup {t : Table α} (ht : Keyed t) {k : Value} {x : α}
    (hx : t.lookup k = some x) {f : α → α} (hf : f x = x) : t.alter k f = t := by
  unfold alter
  conv_rhs => rw [← List.map_id t]
  refine List.map_congr_left fun p hp => ?_
  split
  · rename_i hpk
    have hp' := lookup_of_mem ht (show (p.1, p.2) ∈ t from hp) hpk
    rw [hx] at hp'
    cases hp'
    simp [hf]
  · rfl

/-- After changing the entry under a key, dropping that entry when it is empty leaves only
entries with a property, when every entry had it and the change keeps it but for emptiness. -/
theorem forall_mem_dropIfEmpty {γ : Type} {P : List γ → Prop} {t : Table (List γ)} (ht : Keyed t)
    (h : ∀ p ∈ t, p.2 ≠ [] ∧ P p.2) (k : Value) {f : List γ → List γ}
    (hf : ∀ p ∈ t, P p.2 → P (f p.2)) :
    ∀ q ∈ (if (((t.alter k f).lookup k).getD []).isEmpty then (t.alter k f).drop k
      else t.alter k f), q.2 ≠ [] ∧ P q.2 := by
  have hkeyed := ht.alter k f
  intro q hq
  obtain ⟨p, hp, rfl⟩ := mem_alter.1 (by split at hq; exacts [(mem_drop.1 hq).1, hq])
  split
  · rename_i hpk
    refine ⟨?_, hf p hp (h p hp).2⟩
    -- the changed entry is the one its key finds, which the drop keeps only when not empty
    have hfound : (t.alter k f).lookup k = some (f p.2) :=
      lookup_of_mem hkeyed (mem_alter.2 ⟨p, hp, by rw [if_pos hpk]⟩) hpk
    split at hq
    · rename_i hempty
      have := (mem_drop.1 hq).2
      simp [hpk] at this
    · rename_i hne
      rw [hfound, Option.getD_some] at hne
      simpa using hne
  · exact h p hp

theorem holds_of_lookup {t : Table α} {k : Value} {x : α} (h : t.lookup k = some x) :
    t.holds k = true := by
  rw [← lookup_isSome_iff, h]
  rfl

theorem ensure_ne_nil (t : Table α) (k : Value) (x : α) : t.ensure k x ≠ [] := by
  unfold ensure
  split
  · rename_i h
    rintro rfl
    simp [holds] at h
  · simp

/-- Adding an entry under a key and then changing it leaves entries with a property, when the
change gives it to the fresh entry and keeps it of every other. -/
theorem forall_mem_ensure_alter {P : α → Prop} {t : Table α} (h : ∀ p ∈ t, P p.2) {k : Value}
    (hk : k.heldEquiv k = true) (x : α) {f : α → α} (hf : ∀ y, (y = x ∨ P y) → P (f y)) :
    ∀ q ∈ (t.ensure k x).alter k f, P q.2 := by
  intro q hq
  obtain ⟨p, hp, rfl⟩ := mem_alter.1 hq
  rcases mem_ensure.1 hp with hp | ⟨-, rfl⟩
  · split
    · exact hf p.2 (.inr (h p hp))
    · exact h p hp
  · rw [if_pos hk]
    exact hf x (.inl rfl)

end Table

namespace Store

/-! ### Stores with no empty group -/

/-- The shelves of a kind hold a version, and every version an object. -/
def ShelvesCompact (shelves : KindShelves) : Prop := shelves ≠ [] ∧ ∀ p ∈ shelves, p.2 ≠ []

/-- A namespace holds a kind, and every kind compact shelves. -/
def KindsCompact (kinds : Table KindShelves) : Prop :=
  kinds ≠ [] ∧ ∀ p ∈ kinds, ShelvesCompact p.2

/-- No namespace, kind or version of the store is empty. -/
def Compact (s : Store) : Prop := ∀ p ∈ s.content, KindsCompact p.2

theorem compact_empty (strict : Bool) : (empty strict).Compact := by
  simp [Compact, empty]

theorem Compact.withShelves {s : Store} (hs : s.Compact) (ns kind : Value)
    {f : KindShelves → KindShelves}
    (hf : ∀ shelves, ShelvesCompact shelves → ShelvesCompact (f shelves)) :
    (s.withShelves ns kind f).Compact := by
  unfold Compact
  rw [content_withShelves]
  exact Table.forall_mem_alter hs ns fun _ _ h =>
    ⟨Table.alter_ne_nil h.1 kind f, Table.forall_mem_alter h.2 kind fun p _ => hf p.2⟩

/-- A write puts its object on a shelf, which is then not empty. -/
theorem Compact.write {s : Store} (hs : s.Compact) (a : Address) (o : Value) :
    (s.write a o).Compact :=
  hs.withShelves a.ns a.kind fun _ h =>
    ⟨Table.alter_ne_nil h.1 _ _, Table.forall_mem_alter (P := (· ≠ [])) h.2 _
      fun _ _ _ => Table.put_ne_nil _ _ _⟩

/-- Removing an object and then the groups this leaves empty leaves no empty group. -/
theorem Compact.remove_prune {s : Store} (hk : s.Keyed) (hs : s.Compact) (a : Address) :
    ((s.remove a).prune a.ns a.kind a.apiVersion).Compact := by
  -- each level drops the entry the level below left empty
  have hshelves : ∀ shelves : KindShelves, ShelvesKeyed shelves → ShelvesCompact shelves →
      ∀ q ∈ pruneShelves a.apiVersion (shelves.alter a.apiVersion (·.drop a.name)),
        q.2 ≠ [] ∧ True := fun shelves h hc => by
    unfold pruneShelves
    exact Table.forall_mem_dropIfEmpty (P := fun _ => True) h.1 (fun p hp => ⟨hc.2 p hp, trivial⟩) _
      fun _ _ _ => trivial
  have hkinds : ∀ kinds : Table KindShelves, KindsKeyed kinds → KindsCompact kinds →
      ∀ q ∈ pruneKinds a.kind a.apiVersion
        (kinds.alter a.kind (·.alter a.apiVersion (·.drop a.name))), ShelvesCompact q.2 := by
    intro kinds h hc
    unfold pruneKinds
    rw [Table.alter_alter]
    refine Table.forall_mem_dropIfEmpty (P := fun shelves : KindShelves => ∀ r ∈ shelves, r.2 ≠ [])
      h.1      (fun p hp => hc.2 p hp) _ ?_
    intro p hp _ r hr
    exact (hshelves p.2 (h.2 p hp) (hc.2 p hp) r hr).1
  unfold Compact
  rw [content_prune]
  dsimp only
  rw [remove, content_withShelves, Table.alter_alter]
  refine Table.forall_mem_dropIfEmpty
    (P := fun kinds : Table KindShelves => ∀ q ∈ kinds, ShelvesCompact q.2) hk.1
    (fun p hp => hs p hp) _ ?_
  intro p hp hP
  exact hkinds p.2 (hk.2 p hp) ⟨(hs p hp).1, hP⟩

/-- Opening the groups on the way to an address where an object is found changes nothing. -/
theorem openAll_of_objectAt {s : Store} (hs : s.Keyed) {a : Address} {o : Value}
    (h : s.objectAt a = some o) : s.openAll a = s := by
  simp only [objectAt, shelvesAt, Option.bind_eq_some_iff] at h
  obtain ⟨shelf, ⟨shelves, ⟨kinds, hkinds, hshelves⟩, hshelf⟩, -⟩ := h
  have hk := kindsKeyed_of_lookup hs hkinds
  have h₁ : s.openNamespace a.ns = s := by
    simp only [openNamespace, Table.ensure_of_holds (Table.holds_of_lookup hkinds)]
  have h₂ : s.openKind a.ns a.kind = s := by
    rw [openKind, Table.alter_of_lookup (f := (·.ensure a.kind [])) hs.1 hkinds
      (Table.ensure_of_holds (Table.holds_of_lookup hshelves) [])]
  have h₃ : s.withShelves a.ns a.kind (·.ensure a.apiVersion []) = s := by
    rw [withShelves, Table.alter_of_lookup (f := (·.alter a.kind (·.ensure a.apiVersion [])))
      hs.1 hkinds (Table.alter_of_lookup
      (f := (·.ensure a.apiVersion [])) hk.1 hshelves
      (Table.ensure_of_holds (Table.holds_of_lookup hshelf) []))]
  rw [openAll, h₁, h₂, h₃]

/-- Opening the groups on the way to an address and writing an object there leaves no empty
group: every group opened holds the object. -/
theorem Compact.openAll_write {s : Store} (hs : s.Compact) {a : Address} (ha : a.Hashable)
    (n : Nat) (o : Value) : ({ s.openAll a with issued := n }.write a o).Compact := by
  have hself := Address.Equiv.refl ha
  -- the shelves of the kind after opening its version and putting the object on its shelf
  have hshelves : ∀ shelves : KindShelves, (shelves = [] ∨ ShelvesCompact shelves) →
      ShelvesCompact ((shelves.ensure a.apiVersion []).alter a.apiVersion (·.put a.name o)) :=
    fun shelves h => ⟨Table.alter_ne_nil (Table.ensure_ne_nil _ _ _) _ _,
      Table.forall_mem_ensure_alter (P := fun shelf : Shelf => shelf ≠ [])
        (fun p hp => by rcases h with rfl | h; exacts [absurd hp (by simp), h.2 p hp])
        hself.2.2.1 []
        fun _ _ => Table.put_ne_nil _ _ _⟩
  have hkinds : ∀ kinds : Table KindShelves, (kinds = [] ∨ KindsCompact kinds) →
      KindsCompact ((kinds.ensure a.kind []).alter a.kind
        (fun shelves => (shelves.ensure a.apiVersion []).alter a.apiVersion (·.put a.name o))) :=
    fun kinds h => ⟨Table.alter_ne_nil (Table.ensure_ne_nil _ _ _) _ _,
      Table.forall_mem_ensure_alter (P := ShelvesCompact)
        (fun p hp => by rcases h with rfl | h; exacts [absurd hp (by simp), h.2 p hp]) hself.2.1 []
        fun shelves h => hshelves shelves (h.imp_left id)⟩
  show ∀ p ∈ (s.openAll a).content.alter a.ns
      (·.alter a.kind (·.alter a.apiVersion (·.put a.name o))), KindsCompact p.2
  simp only [openAll, content_withShelves, content_openKind, content_openNamespace,
    Table.alter_alter]
  exact Table.forall_mem_ensure_alter (P := KindsCompact) hs hself.1 [] fun kinds h => by
    simpa [Function.comp_def, Table.alter_alter] using hkinds kinds (h.imp_left id)

/-! ### Creating -/

/-- Whether the name of an address is taken once its groups are opened. -/
def Taken (s : Store) (a : Address) : Prop :=
  ((((s.openAll a).shelvesAt a.ns a.kind).bind (·.lookup a.apiVersion)).getD []).holds a.name = true

/-- What a create leaves: the store as it was; the groups on the way to the address its
resource names opened, up to the first part that cannot serve as a key or up to a name that is
taken; or the stamped resource filed there with the next resource version. -/
def CreateOutcome (s₀ : Store) (res : Value) (uid : String) (now : Stamp) (s : Store) : Prop :=
  s = s₀ ∨ ∃ a, Address.read res = .ok a ∧ a.ns.hashable = true ∧
    (s = s₀.openNamespace a.ns ∧ a.kind.hashable = false ∨
     s = (s₀.openNamespace a.ns).openKind a.ns a.kind ∧ a.kind.hashable = true ∧
       a.apiVersion.hashable = false ∨
     s = s₀.openAll a ∧ a.kind.hashable = true ∧ a.apiVersion.hashable = true ∧
       (a.name.hashable = false ∨ s₀.Taken a) ∨
     a.Hashable ∧ ¬ s₀.Taken a ∧
       s = { s₀.openAll a with issued := s₀.issued + 1 }.write a
         (stamped res uid now (toString (s₀.issued + 1))))

theorem create_outcome (s₀ : Store) (res : Value) (uid : String) (now : Stamp) :
    ⦃fun s => ⌜s = s₀⌝⦄ Store.create res uid now
    ⦃post⟨fun _ s => ⌜CreateOutcome s₀ res uid now s⌝,
      fun _ s => ⌜CreateOutcome s₀ res uid now s⌝⟩⦄ := by
  mvcgen [Store.create, check_eq, Store.alterShelves, Store.nextVersion]
  all_goals subst_vars
  case vc1 =>
    rename_i a hr _ hns _ _ hkind _ _ hv _ _ _ _ htaken
    exact .inr ⟨a, hr, hashable_of_requireKey hns, .inr (.inr (.inl ⟨rfl,
      hashable_of_requireKey hkind, hashable_of_requireKey hv, .inr htaken⟩))⟩
  case vc2 =>
    rename_i a hr _ hns _ _ hkind _ _ hv _ _ hname _ hfree _ _ _
    exact .inr ⟨a, hr, hashable_of_requireKey hns, .inr (.inr (.inr ⟨⟨hashable_of_requireKey hns,
      hashable_of_requireKey hkind, hashable_of_requireKey hv, hashable_of_requireKey hname⟩,
      hfree, rfl⟩))⟩
  case vc3 =>
    rename_i a hr _ hns _ _ hkind _ _ hv _ _ hname
    exact .inr ⟨a, hr, hashable_of_requireKey hns, .inr (.inr (.inl ⟨rfl,
      hashable_of_requireKey hkind, hashable_of_requireKey hv,
      .inl (unhashable_of_requireKey hname)⟩))⟩
  case vc4 =>
    rename_i a hr _ hns _ _ hkind _ _ hv
    exact .inr ⟨a, hr, hashable_of_requireKey hns, .inr (.inl ⟨rfl,
      hashable_of_requireKey hkind, unhashable_of_requireKey hv⟩)⟩
  case vc5 =>
    rename_i a hr _ hns _ _ hkind
    exact .inr ⟨a, hr, hashable_of_requireKey hns, .inl ⟨rfl, unhashable_of_requireKey hkind⟩⟩
  all_goals exact .inl rfl

/-! ### Updating -/

instance (o : Value) : Decidable (Pending o) := inferInstanceAs (Decidable (_ ∧ _))

/-- The resource version of an object. -/
def rvOf (o : Value) : Value := (o.getD "metadata").getD "resourceVersion"

/-- Whether an update of `cur` by `res` changes anything beyond the server's fields and the
status, as the update decides it. -/
def updateChanges (cur res : Value) : Bool :=
  !(stripServerFields cur).equiv
    (stripServerFields ((withStatusOf cur res).set "metadata" (restoredMetadata cur res)))

/-- The object an update of `cur` by `res` files, with the resource version it is given. -/
def updated (cur res version : Value) : Value :=
  (withStatusOf cur res).set "metadata" (((restoredMetadata cur res).set "generation"
    (nextGeneration (((cur.getD "metadata").get? "generation").getD (.int 1))
      (!(cur.getD "spec").equiv ((withStatusOf cur res).getD "spec")))).set "resourceVersion"
        version)

/-- The version an accepted update gives: the next one when it changes something, else the
version the object had. -/
def updateVersion (s : Store) (cur res : Value) : Value :=
  if updateChanges cur res then .str (toString (s.issued + 1)) else rvOf cur

/-- A store after writing `o` at `a`: `o` is taken off again, with the groups this leaves
empty, when it is pending. -/
def settle (w : Store) (a : Address) (o : Value) : Store :=
  if Pending o then (w.remove a).prune a.ns a.kind a.apiVersion else w

/-- The store after an accepted update of the object `cur` at `a` by `res`: the updated
object written, with the version issued when it changed, and removed again when pending. -/
def afterUpdate (s : Store) (a : Address) (cur res : Value) : Store :=
  let o := updated cur res (s.updateVersion cur res)
  settle ({ s with issued := if updateChanges cur res then s.issued + 1 else s.issued }.write a o)
    a o

/-- What an accepted update found: the object at the address its resource names, whose version
the update did not name out of date. -/
def Accepts (s : Store) (res : Value) (a : Address) (cur : Value) : Prop :=
  Address.read res = .ok a ∧ a.Hashable ∧ s.objectAt a = some cur ∧
    ¬ (s.strict = true ∧ ((res.getD "metadata").getD "resourceVersion").truthy = true ∧
      ((res.getD "metadata").getD "resourceVersion").equiv (rvOf cur) = false)

theorem hashable_of_shelvesOf {s : Store} {ns kind : Value} {shelves : KindShelves}
    (h : s.shelvesOf ns kind = .ok shelves) : ns.hashable = true ∧ kind.hashable = true := by
  rw [shelvesOf_eq] at h
  simp only [bind, Except.bind] at h
  split at h
  · cases h
  · split at h
    · cases h
    · exact ⟨hashable_of_requireKey ‹_›, hashable_of_requireKey ‹_›⟩

theorem unhashable_of_shelvesOf {s : Store} {ns kind : Value} {e : Failure}
    (h : s.shelvesOf ns kind = .error e) : ¬ (ns.hashable = true ∧ kind.hashable = true) := by
  rintro ⟨hns, hkind⟩
  simp [shelvesOf_eq, requireKey, hns, hkind, bind, Except.bind, pure, Except.pure] at h

/-- A resource naming an address with a part that cannot serve as a key names no other. -/
theorem unhashable_of_read {res : Value} {a : Address} (hr : Address.read res = .ok a)
    (h : ¬ a.Hashable) (a' : Address) (hr' : Address.read res = .ok a') : ¬ a'.Hashable := by
  rw [hr] at hr'
  cases hr'
  exact h

theorem afterUpdate_of_changes {s : Store} {a : Address} {cur res : Value}
    (h : updateChanges cur res = true) :
    s.afterUpdate a cur res =
      settle ({ s with issued := s.issued + 1 }.write a
        (updated cur res (.str (toString (s.issued + 1))))) a
        (updated cur res (.str (toString (s.issued + 1)))) := by
  simp only [afterUpdate, updateVersion, h, if_true]

theorem afterUpdate_of_unchanged {s : Store} {a : Address} {cur res : Value}
    (h : updateChanges cur res = false) :
    s.afterUpdate a cur res =
      settle ({ s with issued := s.issued }.write a (updated cur res (rvOf cur))) a
        (updated cur res (rvOf cur)) := by
  simp only [afterUpdate, updateVersion, h, Bool.false_eq_true, if_false]

theorem not_pending_of_kept {cur res : Value} {a : Address} (hr : Address.read res = .ok a)
    (md : Value)
    (h : ¬((md.getD "deletionTimestamp").truthy && !(md.getD "finalizers").truthy) = true) :
    ¬ Pending ((withStatusOf cur res).set "metadata" md) := by
  rw [Pending, getD_metadata_rewritten hr]
  simpa using h

/-- An update accepts the object its lookups find, unless a strict store finds its version out
of date. -/
theorem accepts_of_lookup {s : Store} {res : Value} {a : Address} (hr : Address.read res = .ok a)
    {shelves : KindShelves} (hsh : s.shelvesOf a.ns a.kind = .ok shelves) {u : Unit}
    (hv : requireKey a.apiVersion = .ok u) {u' : Unit} (hname : requireKey a.name = .ok u')
    {cur : Value} (hcur : ((shelves.lookup a.apiVersion).getD []).lookup a.name = some cur)
    (hstrict : ¬(s.strict && ((res.getD "metadata").getD "resourceVersion").truthy &&
      !((res.getD "metadata").getD "resourceVersion").equiv
        ((cur.getD "metadata").getD "resourceVersion")) = true) :
    s.Accepts res a cur := by
  obtain ⟨hns, hkind⟩ := hashable_of_shelvesOf hsh
  refine ⟨hr, ⟨hns, hkind, hashable_of_requireKey hv, hashable_of_requireKey hname⟩,
    objectAt_of_shelvesOf hsh hcur, fun ⟨h₁, h₂, h₃⟩ => hstrict ?_⟩
  simp only [rvOf] at h₃
  simp [h₁, h₂, h₃]

theorem update_outcome (s₀ : Store) (res : Value) :
    ⦃fun s => ⌜s = s₀⌝⦄ Store.update res
    ⦃post⟨fun r s => ⌜r = (false, false) ∧ s = s₀ ∨ ∃ a cur, s₀.Accepts res a cur ∧
        r = (true, updateChanges cur res) ∧ s = s₀.afterUpdate a cur res⌝,
      fun _ s => ⌜s = s₀ ∧ ∀ a, Address.read res = .ok a → ¬ a.Hashable⌝⟩⦄ := by
  mvcgen [Store.update, check_eq, Store.alterShelves, Store.nextVersion, Store.removeAt,
    Store.pruneAt]
  all_goals subst_vars
  case vc1 | vc2 => exact .inl ⟨trivial, rfl⟩
  case vc3 =>
    refine .inr ⟨_, _, accepts_of_lookup ‹_› ‹_› ‹_› ‹_› ‹_› ‹_›, rfl, ?_⟩
    rw [afterUpdate_of_changes ‹_›, settle,
      if_pos (show Pending (updated _ _ _) from pending_of_removal ‹_› _ ‹_›)]
    rfl
  case vc4 =>
    refine .inr ⟨_, _, accepts_of_lookup ‹_› ‹_› ‹_› ‹_› ‹_› ‹_›, rfl, ?_⟩
    rw [afterUpdate_of_changes ‹_›, settle,
      if_neg (show ¬ Pending (updated _ _ _) from not_pending_of_kept ‹_› _ ‹_›)]
    rfl
  case vc5 =>
    refine .inr ⟨_, _, accepts_of_lookup ‹_› ‹_› ‹_› ‹_› ‹_› ‹_›, rfl, ?_⟩
    rw [afterUpdate_of_unchanged (Bool.eq_false_iff.2 ‹_›), settle,
      if_pos (show Pending (updated _ _ _) from pending_of_removal ‹_› _ ‹_›)]
    rfl
  case vc6 =>
    refine .inr ⟨_, _, accepts_of_lookup ‹_› ‹_› ‹_› ‹_› ‹_› ‹_›, rfl, ?_⟩
    rw [afterUpdate_of_unchanged (Bool.eq_false_iff.2 ‹_›), settle,
      if_neg (show ¬ Pending (updated _ _ _) from not_pending_of_kept ‹_› _ ‹_›)]
    rfl
  case vc7 =>
    rename_i a hr _ _ _ _ _ hname
    exact ⟨rfl, unhashable_of_read hr fun ha =>
      absurd ha.2.2.2 (by simp [unhashable_of_requireKey hname])⟩
  case vc8 =>
    rename_i a hr _ _ _ hv
    exact ⟨rfl, unhashable_of_read hr fun ha =>
      absurd ha.2.2.1 (by simp [unhashable_of_requireKey hv])⟩
  case vc9 =>
    rename_i a hr _ hsh
    exact ⟨rfl, unhashable_of_read hr fun ha => unhashable_of_shelvesOf hsh ⟨ha.1, ha.2.1⟩⟩
  case vc10 =>
    rename_i _ hr
    exact ⟨rfl, fun a hr' => by rw [hr] at hr'; cases hr'⟩

/-! ### Writing a status -/

/-- The store with the object at an address of the kind, namespace and name asked for given the
new status and the next resource version. -/
def WritesStatus (s₀ : Store) (kind name ns status : Value) (s : Store) : Prop :=
  ∃ a cur, a.Hashable ∧ a.ns = ns ∧ a.kind = kind ∧ a.name = name ∧ s₀.objectAt a = some cur ∧
    s = { s₀ with issued := s₀.issued + 1 }.write a
      (statusWritten cur status (toString (s₀.issued + 1)))

/-- What a status write leaves: the store as it was, answering that it changed nothing; or the
status written, answering that it changed. -/
def StatusOutcome (s₀ : Store) (kind name ns status : Value) (r : Bool × Bool) (s : Store) :
    Prop :=
  r.2 = false ∧ s = s₀ ∨ r = (true, true) ∧ WritesStatus s₀ kind name ns status s

/-- Shelves a kind has in a namespace, found holding something, are the ones filed there. -/
theorem shelvesAt_of_shelvesOf {s : Store} {ns kind : Value} {shelves : KindShelves}
    (hsh : s.shelvesOf ns kind = .ok shelves) {p : Value × Shelf} (hmem : p ∈ shelves) :
    s.shelvesAt ns kind = some shelves := by
  obtain ⟨hns, hkind⟩ := hashable_of_shelvesOf hsh
  rw [shelvesOf_eq] at hsh
  simp only [requireKey, hns, hkind, if_true, bind, Except.bind, pure, Except.pure,
    Except.ok.injEq] at hsh
  cases h : s.shelvesAt ns kind with
  | none => simp [h, ← hsh] at hmem
  | some sh => rw [h, Option.getD_some] at hsh; rw [hsh]

/-- What a status write finds on the first fitting shelf: an address whose parts serve as keys
and whose version fits the one asked for, and the object there. -/
theorem found_of_find {s₀ : Store} (hs : s₀.Keyed) {kind name ns v : Value}
    {shelves : KindShelves} (hsh : s₀.shelvesOf ns kind = .ok shelves) {version : Value}
    {shelf : Shelf}
    (hfind : shelves.find? (fun p => p.2.holds name && versionHeld v p.1) = some (version, shelf)) :
    (⟨ns, kind, version, name⟩ : Address).Hashable ∧ versionHeld v version = true ∧
      s₀.objectAt ⟨ns, kind, version, name⟩ = some ((shelf.lookup name).getD .null) := by
  obtain ⟨hns, hkind⟩ := hashable_of_shelvesOf hsh
  have hmem := List.mem_of_find?_eq_some hfind
  have hpred := List.find?_some hfind
  simp only [Bool.and_eq_true] at hpred
  have hat := shelvesAt_of_shelvesOf hsh hmem
  have hkeyed := shelvesKeyed_of_shelvesAt hs hat
  have hv : version.hashable = true := hkeyed.1.hashable _ hmem
  obtain ⟨p, hp, hpe⟩ := Table.holds_iff.1 hpred.1
  have hname : name.hashable = true :=
    Value.hashable_of_heldEquiv ((hkeyed.2 _ hmem).hashable _ hp) hpe
  obtain ⟨x, hx⟩ := Option.isSome_iff_exists.1 (Table.lookup_isSome_iff.symm ▸ hpred.1)
  refine ⟨⟨hns, hkind, hv, hname⟩, hpred.2, ?_⟩
  simp [objectAt, hat, Table.lookup_of_mem hkeyed.1 hmem (Value.heldEquiv_self hv), hx]

/-- The object a status write finds on the first fitting shelf is the one at its address. -/
theorem statusOutcome_of_find {s₀ : Store} (hs : s₀.Keyed) {kind name ns status v : Value}
    {shelves : KindShelves} (hsh : s₀.shelvesOf ns kind = .ok shelves) {version : Value}
    {shelf : Shelf}
    (hfind : shelves.find? (fun p => p.2.holds name && versionHeld v p.1) = some (version, shelf)) :
    StatusOutcome s₀ kind name ns status (true, true)
      ({ s₀ with issued := s₀.issued + 1 }.write ⟨ns, kind, version, name⟩
        (statusWritten ((shelf.lookup name).getD .null) status (toString (s₀.issued + 1)))) := by
  obtain ⟨ha, -, hcur⟩ := found_of_find hs hsh hfind
  exact .inr ⟨rfl, _, _, ha, rfl, rfl, rfl, hcur, rfl⟩

theorem setStatus_outcome (s₀ : Store) (hs : s₀.Keyed) (kind name ns status v : Value) :
    ⦃fun s => ⌜s = s₀⌝⦄ Store.setStatus kind name ns status v
    ⦃post⟨fun r s => ⌜StatusOutcome s₀ kind name ns status r s⌝, fun _ s => ⌜s = s₀⌝⟩⦄ := by
  mvcgen [Store.setStatus, check_eq, Store.alterShelves, Store.nextVersion]
  all_goals subst_vars
  case vc3 | vc7 => exact statusOutcome_of_find hs ‹_› ‹_›
  all_goals exact .inl ⟨rfl, rfl⟩

/-! ### What deleting leaves at each address -/

/-- `o'` is `o` marked for deletion: every member of its metadata keeps its value, but for a
deletion time that `o` lacks. -/
def Marked (o o' : Value) : Prop :=
  ∀ k, (k = "deletionTimestamp" → ((o.getD "metadata").get? k).isSome = true) →
    (o'.getD "metadata").get? k = (o.getD "metadata").get? k

theorem Marked.refl (o : Value) : Marked o o := fun _ _ => rfl

theorem Marked.trans {o₁ o₂ o₃ : Value} (h₁ : Marked o₁ o₂) (h₂ : Marked o₂ o₃) :
    Marked o₁ o₃ := fun k hk => by
  rw [h₂ k fun e => by rw [h₁ k hk]; exact hk e, h₁ k hk]

/-- Marking keeps every member of the metadata but the deletion time. -/
theorem Marked.getD {o o' : Value} (h : Marked o o') {k : String}
    (hk : k ≠ "deletionTimestamp") : (o'.getD "metadata").getD k = (o.getD "metadata").getD k := by
  rw [Value.getD_eq, Value.getD_eq (o.getD "metadata"), h k fun e => absurd e hk]

/-- An object marked for deletion at a time: its metadata gets that time, unless it has a
deletion time already. -/
def markedAt (o : Value) (now : Stamp) : Value :=
  o.set "metadata" (if ((o.getD "metadata").get? "deletionTimestamp").isSome then o.getD "metadata"
    else (o.getD "metadata").set "deletionTimestamp" (.str now.zulu))

theorem marked_markedAt {o : Value} (ho : o.isObj = true) (now : Stamp) :
    Marked o (markedAt o now) := by
  intro k hk
  rw [markedAt, Value.getD_eq (o.set _ _), Value.get?_set, if_pos ⟨ho, rfl⟩, Option.getD_some]
  split
  · rfl
  · rename_i hnone
    rw [Value.get?_set]
    split
    · rename_i h
      exact absurd (h.2 ▸ hk h.2) hnone
    · rfl

theorem read_markedAt {o : Value} {a : Address} (h : Address.read o = .ok a) (now : Stamp) :
    Address.read (markedAt o now) = .ok a := by
  have hobj := metadata_isObj_of_read h
  refine read_set_metadata h ?_ ?_ ?_ <;> split <;> simp [hobj, getD_metadata_of_read h]

/-- What deleting may leave of the object at an address: the object as it was, the object
marked while it has finalizers, or nothing when it has none. -/
inductive Deletes : Option Value → Option Value → Prop
  | kept (x : Option Value) : Deletes x x
  | marked {o o' : Value} : ((o.getD "metadata").getD "finalizers").truthy = true → Marked o o' →
      Deletes (some o) (some o')
  | removed {o : Value} : ((o.getD "metadata").getD "finalizers").truthy = false →
      Deletes (some o) none

/-- Marking keeps the finalizers, so an object marked is never removed after. -/
theorem Deletes.trans {x y z : Option Value} (h₁ : Deletes x y) (h₂ : Deletes y z) :
    Deletes x z := by
  cases h₁ with
  | kept => exact h₂
  | marked hfin hm =>
    cases h₂ with
    | kept => exact .marked hfin hm
    | marked _ hm' => exact .marked hfin (hm.trans hm')
    | removed hfin' =>
      rw [hm.getD (by decide), hfin] at hfin'
      cases hfin'
  | removed hfin =>
    cases h₂ with
    | kept => exact .removed hfin

/-- What deleting objects leaves: a well-formed store with as many versions issued, where
every address holds what deleting may leave of its object, and no group left empty. -/
structure DeleteOutcome (s₀ s : Store) : Prop where
  wf : s.WF
  issued : s.issued = s₀.issued
  strict : s.strict = s₀.strict
  deletes : ∀ b, Deletes (s₀.objectAt b) (s.objectAt b)
  compact : s₀.Compact → s.Compact

theorem DeleteOutcome.refl {s : Store} (hs : s.WF) : DeleteOutcome s s :=
  ⟨hs, rfl, rfl, fun _ => .kept _, id⟩

section DeleteOutcome

variable {s₀ s : Store} {a : Address} {stored : Value}

theorem DeleteOutcome.step (h : DeleteOutcome s₀ s) {s' : Store} (hwf : s'.WF)
    (hissued : s'.issued = s.issued) (hstrict : s'.strict = s.strict)
    (hd : ∀ b, Deletes (s.objectAt b) (s'.objectAt b)) (hc : s.Compact → s'.Compact) :
    DeleteOutcome s₀ s' :=
  ⟨hwf, hissued.trans h.issued, hstrict.trans h.strict, fun b => (h.deletes b).trans (hd b),
    hc ∘ h.compact⟩

/-- Marking an object with finalizers, found at its address, leaves what deleting may leave. -/
theorem DeleteOutcome.mark (h : DeleteOutcome s₀ s) (hat : s.objectAt a = some stored)
    (hfin : ((stored.getD "metadata").getD "finalizers").truthy = true) (now : Stamp) :
    DeleteOutcome s₀ (s.write a (markedAt stored now)) := by
  obtain ⟨ha, hself⟩ := hashable_of_objectAt h.wf.keyed hat
  obtain ⟨shelf, hslot, -⟩ := Option.bind_eq_some_iff.1 hat
  obtain ⟨b₀, hf₀, -⟩ := exists_filed_of_objectAt hat
  obtain ⟨a₀, hr₀, -⟩ := h.wf.filedUnder b₀ stored hf₀
  have hobj := isObj_of_read hr₀
  refine h.step (h.wf.write_same ha hself.2.2.2 fun _ => ⟨stored, hat, fun a₁ hr₁ =>
    read_markedAt hr₁ now⟩) rfl rfl (fun b => ?_) fun hc => hc.write a _
  rw [objectAt_write h.wf.keyed ha _ hslot]
  split
  · rename_i hba
    rw [objectAt_congr s (hba.hashable_left ha) hba, hat]
    exact .marked hfin (marked_markedAt hobj now)
  · exact .kept _

/-- Removing an object without finalizers, found at its address, and the groups this leaves
empty, leaves what deleting may leave. -/
theorem DeleteOutcome.remove (h : DeleteOutcome s₀ s) (hat : s.objectAt a = some stored)
    (hfin : ((stored.getD "metadata").getD "finalizers").truthy = false) :
    DeleteOutcome s₀ ((s.remove a).prune a.ns a.kind a.apiVersion) := by
  refine h.step ((h.wf.remove a).prune _ _ _) rfl rfl (fun b => ?_)
    fun hc => hc.remove_prune h.wf.keyed a
  rw [objectAt_prune (keyed_remove h.wf.keyed a), objectAt_remove h.wf.keyed]
  split
  · rename_i hba
    obtain ⟨ha, -⟩ := hashable_of_objectAt h.wf.keyed hat
    rw [objectAt_congr s (hba.hashable_left ha) hba, hat]
    exact .removed hfin
  · exact .kept _

end DeleteOutcome

/-- Deleting listed objects marks each that has finalizers and removes each other, wherever
the lookups of its address find it. -/
theorem deleteListed_outcome (s₀ : Store) (hs : s₀.WF) (kind : Value) (listed : List Value)
    (now : Stamp) :
    ⦃fun s => ⌜s = s₀⌝⦄ Store.deleteListed kind listed now
    ⦃post⟨fun _ s => ⌜DeleteOutcome s₀ s⌝, fun _ s => ⌜DeleteOutcome s₀ s⌝⟩⦄ := by
  mvcgen [Store.deleteListed, check_eq, Store.alterShelves, Store.removeAt, Store.pruneAt]
    invariants
    · post⟨fun _ s => ⌜DeleteOutcome s₀ s⌝, fun _ s => ⌜DeleteOutcome s₀ s⌝⟩
  case vc1 =>
    rename_i _ _ _ _ _ h _ _ _ hlook _ hfin _ _
    exact h.mark (objectAt_of_lookups hlook) hfin now
  case vc2 =>
    rename_i _ _ _ _ _ h _ _ _ hlook _ hfin _ _
    exact h.remove (objectAt_of_lookups hlook) (by simpa using hfin)
  case vc5 =>
    subst_vars
    exact DeleteOutcome.refl hs

theorem deleteAll_outcome (s₀ : Store) (hs : s₀.WF) (kind ns v l f : Value) (now : Stamp) :
    ⦃fun s => ⌜s = s₀⌝⦄ Store.deleteAll kind ns v l f now
    ⦃post⟨fun _ s => ⌜DeleteOutcome s₀ s⌝, fun _ s => ⌜DeleteOutcome s₀ s⌝⟩⦄ := by
  rw [triple_iff_run]
  rintro s rfl
  simp only [Store.deleteAll, run_run_bind, run_run_getThe, check_eq]
  cases s.list kind ns v l f with
  | ok listed => exact (triple_iff_run _ _ _).1 (deleteListed_outcome s hs kind listed now) s rfl
  | error e => exact DeleteOutcome.refl hs

end Store

/-! ### Calls in turn -/

namespace Store

/-- A call of the store, with its arguments. -/
inductive Call where
  | create (resource : Value) (uid : String) (now : Stamp)
  | update (resource : Value)
  | deleteAll (kind ns apiVersion labelSelector fieldSelector : Value) (now : Stamp)
  | setStatus (kind name ns status apiVersion : Value)

/-- The store a call leaves, whether it answers or fails: a failure keeps what the call changed
before it. -/
def Call.after : Call → Store → Store
  | .create res uid now, s => ((Store.create res uid now).run.run s).2
  | .update res, s => ((Store.update res).run.run s).2
  | .deleteAll kind ns v l f now, s => ((Store.deleteAll kind ns v l f now).run.run s).2
  | .setStatus kind name ns status v, s => ((Store.setStatus kind name ns status v).run.run s).2

/-- The store calls leave, each run on the store the one before left. -/
def runCalls (s : Store) (cs : List Call) : Store := cs.foldl (fun s c => c.after s) s

theorem runCalls_nil (s : Store) : s.runCalls [] = s := rfl

theorem runCalls_cons (s : Store) (c : Call) (cs : List Call) :
    s.runCalls (c :: cs) = (c.after s).runCalls cs := rfl

theorem runCalls_append (s : Store) (cs ds : List Call) :
    s.runCalls (cs ++ ds) = (s.runCalls cs).runCalls ds :=
  List.foldl_append

section After

variable {s : Store}

theorem after_create (res : Value) (uid : String) (now : Stamp) :
    CreateOutcome s res uid now ((Call.create res uid now).after s) :=
  state_of_triple (create_outcome s res uid now) (fun _ _ h => h) fun _ _ h => h

theorem wf_after_create (hs : s.WF) (res : Value) (uid : String) (now : Stamp) :
    ((Call.create res uid now).after s).WF :=
  state_of_triple (create_spec s hs res uid now) (fun _ _ h => h.1.wf) fun _ _ h => h.wf

theorem after_update (res : Value) :
    (Call.update res).after s = s ∨
      ∃ a cur, s.Accepts res a cur ∧ (Call.update res).after s = s.afterUpdate a cur res :=
  state_of_triple
    (R := fun s' => s' = s ∨ ∃ a cur, s.Accepts res a cur ∧ s' = s.afterUpdate a cur res)
    (update_outcome s res)
    (fun _ _ h => h.elim (fun h => .inl h.2) fun ⟨a, cur, ha, _, h⟩ => .inr ⟨a, cur, ha, h⟩)
    fun _ _ h => .inl h.1

theorem after_setStatus (hs : s.Keyed) (kind name ns status v : Value) :
    (Call.setStatus kind name ns status v).after s = s ∨
      WritesStatus s kind name ns status ((Call.setStatus kind name ns status v).after s) :=
  state_of_triple (R := fun s' => s' = s ∨ WritesStatus s kind name ns status s')
    (setStatus_outcome s hs kind name ns status v)
    (fun _ _ h => h.imp And.right And.right) fun _ _ h => .inl h

theorem after_deleteAll (hs : s.WF) (kind ns v l f : Value) (now : Stamp) :
    DeleteOutcome s ((Call.deleteAll kind ns v l f now).after s) :=
  state_of_triple (deleteAll_outcome s hs kind ns v l f now) (fun _ _ h => h) fun _ _ h => h

end After

end Store

end Cluster

end OperandLifecycle

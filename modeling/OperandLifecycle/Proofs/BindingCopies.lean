import OperandLifecycle.Proofs.EventFolding
import OperandLifecycle.Proofs.ObserverFootprint
import OperandLifecycle.Proofs.Overlay
/-!
# Copying one binding

Binding information copies a public secret or config map into a request's namespace
(`copyResource`). This file says what one copy leaves in a plain world: the store holds, at the
copy's address, an object whose copied fields are those of the source, as the manager compares
values, and that carries the control label (`CopyOf`); nothing else in the store changes.

Three ways lead there. A first copy is created and stamped. An existing object whose copy would
be equal to it is left alone: that it already holds the source's fields is read off the equality
of the two objects (`Value.get?_of_equiv_obj`, `Value.isSome_get?_of_equiv_obj`), which needs
its keys to be distinct. Otherwise the object is rewritten in place; it keeps its life, so it is
removed only when it was already pending, and the object a copy starts from is not.

Equality as the manager compares values is reflexive on every value whose objects have distinct
keys (`Value.heldEquiv_self_of_wellKeyed`): a copied field is equal to the source's own.

In a plain world a copy run writes at most the copy's place (`CopyStep`), and, when its source
exists, answers that the copy was made and leaves a copy that a later copy can write over
(`HoldsCopy`, `run_copyResource`). The run is cut where the copy is found to exist already
(`refreshCopy`, `copyResource_eq`).
-/

namespace OperandLifecycle.Json

namespace Fields

/-- The members picked from `src` under the keys `fs`, as a copy lists them, read under any key
as `src` reads it, when the key is one of `fs`. -/
theorem get?_filterMap_present (src : Value) (fs : List String) (k : String) :
    get? (fs.filterMap (fun f => (src.get? f).map (f, ·))) k =
      if k ∈ fs then src.get? k else none := by
  induction fs with
  | nil => simp [get?]
  | cons f fs ih =>
    rw [List.filterMap_cons]
    cases hf : src.get? f with
    | none =>
      simp only [Option.map_none, ih, List.mem_cons]
      by_cases hk : k = f
      · subst hk
        simp [hf]
      · simp [hk]
    | some x =>
      simp only [Option.map_some, get?_cons, ih, List.mem_cons]
      by_cases hk : k = f
      · subst hk
        simp [hf]
      · simp [hk, Ne.symm hk]

theorem keys_erase (fs : Fields) (k : String) : keys (erase fs k) = (keys fs).filter (· != k) := by
  simp only [keys, erase, List.filter_map]
  rfl

theorem nodup_keys_insert {fs : Fields} (h : (keys fs).Nodup) (k : String) (v : Value) :
    (keys (insert fs k v)).Nodup := by
  rw [keys_insert]
  split
  · exact h
  · rename_i hk
    refine List.nodup_append.2 ⟨h, List.nodup_singleton k, fun a ha b hb => ?_⟩
    rw [List.mem_singleton] at hb
    exact fun hab => hk (hb ▸ hab ▸ ha)

theorem nodup_keys_erase {fs : Fields} (h : (keys fs).Nodup) (k : String) :
    (keys (erase fs k)).Nodup := by
  rw [keys_erase]
  exact h.filter _

end Fields

namespace Value

/-- The members of an object have distinct keys; a value that is no object has none. -/
def KeysDistinct (v : Value) : Prop := ∀ fs, v = .obj fs → (Fields.keys fs).Nodup

theorem KeysDistinct.set {v : Value} (h : v.KeysDistinct) (k : String) (x : Value) :
    (v.set k x).KeysDistinct := by
  intro fs hfs
  cases v with
  | obj us =>
    cases hfs
    exact Fields.nodup_keys_insert (h us rfl) k x
  | _ => cases hfs

theorem KeysDistinct.erase {v : Value} (h : v.KeysDistinct) (k : String) :
    (v.erase k).KeysDistinct := by
  intro fs hfs
  cases v with
  | obj us =>
    cases hfs
    exact Fields.nodup_keys_erase (h us rfl) k
  | _ => cases hfs

theorem WellKeyed.keysDistinct {v : Value} (h : v.WellKeyed) : v.KeysDistinct := by
  rintro fs rfl
  exact h.keys_nodup

/-! ## Equality as the manager compares values -/

/-- Two member lists are equal member by member when every member of the first is found under
its key in the second, equal to it. -/
theorem equivMembers_iff {xs ys : Fields} :
    equivMembers xs ys = true ↔
      ∀ p ∈ xs, ∃ y, Fields.get? ys p.1 = some y ∧ p.2.heldEquiv y = true := by
  induction xs with
  | nil => simp [equivMembers]
  | cons p rest ih =>
    obtain ⟨k, x⟩ := p
    rw [equivMembers, Bool.and_eq_true, ih, List.forall_mem_cons]
    refine and_congr_left' ?_
    cases h : ys.find? (fun p => p.1 == k) with
    | none => simp [Fields.get?, h]
    | some q =>
      obtain ⟨k', y⟩ := q
      simp [Fields.get?, h, heldEquiv]

theorem equiv_obj_iff {us cs : Fields} :
    (Value.obj us).equiv (.obj cs) = true ↔
      us.length = cs.length ∧ ∀ p ∈ us, ∃ y, Fields.get? cs p.1 = some y ∧ p.2.heldEquiv y = true := by
  rw [equiv, Bool.and_eq_true, beq_iff_eq, equivMembers_iff]

theorem heldEquiv_obj_iff {us cs : Fields} :
    (Value.obj us).heldEquiv (.obj cs) = true ↔ (Value.obj us).equiv (.obj cs) = true := by
  simp [heldEquiv, isNaN]

/-- A member of an object equal to another is found in the other, equal to it. -/
theorem get?_of_equiv_obj {us cs : Fields} (h : (Value.obj us).equiv (.obj cs) = true) {k : String}
    {x : Value} (hx : Fields.get? us k = some x) :
    ∃ y, Fields.get? cs k = some y ∧ x.heldEquiv y = true := by
  obtain ⟨x', hx', hk⟩ : ∃ p ∈ us, p.1 = k ∧ p.2 = x := by
    obtain ⟨⟨k₀, x₀⟩, hmem, hfind⟩ : ∃ p ∈ us, us.find? (fun p => p.1 == k) = some p ∧ p.2 = x := by
      simp only [Fields.get?, Option.map_eq_some_iff] at hx
      obtain ⟨p, hp, rfl⟩ := hx
      exact ⟨p, List.mem_of_find?_eq_some hp, hp, rfl⟩
    exact ⟨(k₀, x₀), hmem, by simpa using List.find?_some hfind.1, hfind.2⟩
  obtain ⟨y, hy, hxy⟩ := (equiv_obj_iff.1 h).2 _ hx'
  exact ⟨y, hk.1 ▸ hy, hk.2 ▸ hxy⟩

/-- An object with distinct keys equal to another has every key of the other: the other is no
longer, and every key of the first is one of its. -/
theorem isSome_get?_of_equiv_obj {us cs : Fields} (h : (Value.obj us).equiv (.obj cs) = true)
    (hnd : (Fields.keys us).Nodup) {k : String} (hk : (Fields.get? cs k).isSome) :
    (Fields.get? us k).isSome := by
  obtain ⟨hlen, hmem⟩ := equiv_obj_iff.1 h
  have hsub : Fields.keys us ⊆ Fields.keys cs := fun k' hk' => by
    obtain ⟨p, hp, rfl⟩ := List.mem_map.1 hk'
    obtain ⟨y, hy, -⟩ := hmem p hp
    exact (Fields.mem_keys_iff_get?_isSome cs p.1).2 (by simp [hy])
  have hperm : (Fields.keys us).Perm (Fields.keys cs) :=
    (List.subperm_of_subset hnd hsub).perm_of_length_le (by simp [Fields.keys, hlen])
  exact (Fields.mem_keys_iff_get?_isSome us k).1
    (hperm.mem_iff.2 ((Fields.mem_keys_iff_get?_isSome cs k).2 hk))

theorem equivItems_self {xs : List Value} (h : ∀ x ∈ xs, x.heldEquiv x = true) :
    equivItems xs xs = true := by
  induction xs with
  | nil => rfl
  | cons x xs ih =>
    rw [equivItems, Bool.and_eq_true]
    exact ⟨h x List.mem_cons_self, ih fun y hy => h y (List.mem_cons_of_mem x hy)⟩

/-- Every value whose objects have distinct keys is equal to itself, NaN included: a member is
what its key reads. -/
theorem heldEquiv_self_of_wellKeyed {v : Value} (h : v.WellKeyed) : v.heldEquiv v = true := by
  induction h with
  | arr _ ih => simpa [heldEquiv, isNaN, equiv] using equivItems_self ih
  | @obj fs hnd _ ih =>
    refine heldEquiv_obj_iff.2 (equiv_obj_iff.2 ⟨rfl, fun p hp => ⟨p.2, ?_, ih p hp⟩⟩)
    exact Fields.get?_of_mem hnd hp
  | scalar harr hobj => exact heldEquiv_self (by simp [hashable, harr, hobj])

/-! ## Bringing an object up to date -/

section Refresh

variable {src : Value} {g : Value → String → Value}
  (hset : ∀ u f x, src.get? f = some x → g u f = u.set f x)
  (herase : ∀ u f, src.get? f = none → g u f = u.erase f)
include hset herase

/-- One step of bringing an object up to date with `src` under a key. -/
theorem get?_refresh {u : Value} (hu : u.isObj = true) (f k : String) :
    (g u f).get? k = if k = f then src.get? f else u.get? k := by
  cases hf : src.get? f with
  | none => simp [herase u f hf, hu]
  | some x => simp [hset u f x hf, hu]

theorem isObj_refresh (u : Value) (f : String) : (g u f).isObj = u.isObj := by
  cases hf : src.get? f with
  | none => simp [herase u f hf]
  | some x => simp [hset u f x hf]

theorem KeysDistinct.refresh {u : Value} (h : u.KeysDistinct) (f : String) :
    (g u f).KeysDistinct := by
  cases hf : src.get? f with
  | none => rw [herase u f hf]; exact h.erase f
  | some x => rw [hset u f x hf]; exact h.set f x

/-- Bringing an object up to date with `src` under distinct keys leaves under each of them what
`src` holds there, and under every other key what the object held. -/
theorem get?_foldl_refresh {fs : List String} (hnd : fs.Nodup) {u : Value} (hu : u.isObj = true)
    (k : String) : (fs.foldl g u).get? k = if k ∈ fs then src.get? k else u.get? k := by
  induction fs generalizing u with
  | nil => simp
  | cons f fs ih =>
    obtain ⟨hf, hnd⟩ := List.nodup_cons.1 hnd
    rw [List.foldl_cons, ih hnd (by rw [isObj_refresh hset herase, hu]),
      get?_refresh hset herase hu]
    by_cases hk : k = f
    · subst hk
      simp [hf]
    · simp [hk]

theorem isObj_foldl_refresh (fs : List String) (u : Value) : (fs.foldl g u).isObj = u.isObj := by
  induction fs generalizing u with
  | nil => rfl
  | cons f fs ih => rw [List.foldl_cons, ih, isObj_refresh hset herase]

theorem KeysDistinct.foldl_refresh (fs : List String) {u : Value} (h : u.KeysDistinct) :
    (fs.foldl g u).KeysDistinct := by
  induction fs generalizing u with
  | nil => exact h
  | cons f fs ih => exact ih (h.refresh hset herase f)

end Refresh

end Value

end OperandLifecycle.Json

open Std.Do

namespace OperandLifecycle.Cluster

open Json

variable {w : World}

/-- In a plain world a lookup answers what the store holds and keeps every fact of the world. -/
theorem getObject_plain (Q : World → Prop) (k n ns v : Value) :
    ⦃fun w => ⌜Q w ∧ w.Plain⌝⦄ getObject k n ns v
    ⦃post⟨fun p w => ⌜Q w ∧ w.Plain ∧ p.1 = true ∧ w.store.get k n ns v = .ok p.2⌝,
      fun _ w => ⌜Q w ∧ w.Plain⌝⟩⦄ := by
  rw [triple_iff_run]
  rintro w ⟨hq, hw⟩
  rw [run_getObject hw]
  cases h : w.store.get k n ns v <;> simp [Except.map, hq, hw, h]

set_option mvcgen.warning false in
/-- In a plain world giving a child its owner reference keeps every fact of the world. -/
theorem addOwner_plain (Q : World → Prop) (owner child : Value) :
    ⦃fun w => ⌜Q w ∧ w.Plain⌝⦄ addOwner owner child
    ⦃post⟨fun r w => ⌜Q w ∧ w.Plain ∧ ∃ refs, r = child.set "metadata"
        ((child.getD "metadata").set "ownerReferences" refs)⌝,
      fun _ w => ⌜Q w ∧ w.Plain⌝⟩⦄ := by
  have hg := getObject_plain Q
  mvcgen [addOwner, ClusterM.check_eq, hg]
  all_goals
    try refine ⟨?_, ?_, _, rfl⟩
    all_goals tauto

/-- In a plain world giving a child its owner reference reads the store only. -/
theorem run_addOwner (hw : w.Plain) (owner child : Value) :
    ∃ r, (addOwner owner child).run.run w = (r, w) ∧
      ∀ v, r = .ok v → ∃ refs, v = child.set "metadata"
        ((child.getD "metadata").set "ownerReferences" refs) := by
  have h := (triple_iff_run _ _ _).1 (addOwner_plain (· = w) owner child) w ⟨rfl, hw⟩
  rcases hx : (addOwner owner child).run.run w with ⟨e | v, w'⟩ <;> rw [hx] at h
  · obtain ⟨rfl, -⟩ := h
    exact ⟨_, rfl, fun v hv => by cases hv⟩
  · obtain ⟨rfl, -, hv⟩ := h
    exact ⟨_, rfl, fun v' hv' => by cases hv'; exact hv⟩

namespace Store

set_option mvcgen.warning false in
/-- A create that comes to an answer named an address whose parts serve as keys. -/
theorem create_hashable (res : Value) (uid : String) (now : Stamp) :
    ⦃fun _ => ⌜True⌝⦄ Store.create res uid now
    ⦃post⟨fun _ _ => ⌜∃ a, Address.read res = .ok a ∧ a.Hashable⌝, fun _ _ => ⌜True⌝⟩⦄ := by
  mvcgen [Store.create, check_eq, Store.alterShelves, Store.nextVersion]
  case vc1 =>
    rename_i a hr _ hns _ _ hkind _ _ hv _ _ hname _ _
    exact ⟨a, hr, hashable_of_requireKey hns, hashable_of_requireKey hkind,
      hashable_of_requireKey hv, hashable_of_requireKey hname⟩
  case vc2 =>
    rename_i a hr _ hns _ _ hkind _ _ hv _ _ hname _ _ _ _ _
    exact ⟨a, hr, hashable_of_requireKey hns, hashable_of_requireKey hkind,
      hashable_of_requireKey hv, hashable_of_requireKey hname⟩

end Store

end OperandLifecycle.Cluster

namespace OperandLifecycle.Controllers

open Json Cluster Store Resource

/-- Where a copy goes: the v1 object of its kind and target name in the request's namespace. -/
def Copy.place (c : Copy) (request : View) : Address :=
  ⟨request.namespace, .str c.kind, .str "v1", c.target⟩

/-- The members of `src` a copy of kind `kind` carries, in the order of `copiedFields`. -/
def copiedMembers (kind : String) (src : Value) : Fields :=
  (copiedFields kind).filterMap (fun f => (src.get? f).map (f, ·))

/-- The object `copyResource` files for a copy of `src` into the namespace `ns`, before it is
given its owner reference. -/
def copyObject (c : Copy) (ns src : Value) : Value :=
  .obj ([("apiVersion", .str "v1"), ("kind", .str c.kind),
    ("metadata", .obj [("name", c.target), ("namespace", ns),
      ("labels", .obj [(controlLabel, .str "true")])])] ++ copiedMembers c.kind src)

/-- An object with its metadata given the owner references `refs`, as `addOwner` answers. -/
def withOwners (o refs : Value) : Value := o.set "metadata" ((o.getD "metadata").set "ownerReferences" refs)

/-- What a copy of the source `src` of kind `kind` holds: each field copied for the kind is in
`o` exactly when it is in `src`, equal to it as the manager compares values, and `o` carries
the control label. -/
structure CopyOf (kind : String) (src o : Value) : Prop where
  fields : ∀ f ∈ copiedFields kind,
    Option.Rel (fun x y => x.heldEquiv y = true) (src.get? f) (o.get? f)
  labelled : (labelsOf o).get? controlLabel = some (.str "true")

/-- An object a copy can be written over and stay: not pending removal, its members under
distinct keys. -/
structure Overwritable (o : Value) : Prop where
  live : ¬ Pending o
  keys : o.KeysDistinct

theorem copiedFields_nodup (kind : String) : (copiedFields kind).Nodup := by
  unfold copiedFields
  split <;> decide

/-- The copied fields are none of the members that place an object or hold its status. -/
theorem copiedFields_reserved {kind f : String} (hf : f ∈ copiedFields kind) :
    f ≠ "apiVersion" ∧ f ≠ "kind" ∧ f ≠ "metadata" ∧ f ≠ "status" := by
  unfold copiedFields at hf
  split at hf <;> simp at hf <;> rcases hf with rfl | rfl | rfl <;> decide

theorem get?_copyObject (c : Copy) (ns src : Value) {f : String} (hf : f ∈ copiedFields c.kind) :
    (copyObject c ns src).get? f = src.get? f := by
  obtain ⟨h₁, h₂, h₃, -⟩ := copiedFields_reserved hf
  simp [copyObject, copiedMembers, Value.get?_obj, Fields.get?_cons,
    Fields.get?_filterMap_present, hf, Ne.symm h₁, Ne.symm h₂, Ne.symm h₃]


/-- A member of a value whose objects have distinct keys is equal to itself. -/
theorem rel_get?_self {src : Value} (h : src.WellKeyed) (f : String) :
    Option.Rel (fun x y => x.heldEquiv y = true) (src.get? f) (src.get? f) := by
  cases hx : src.get? f with
  | none => exact .none
  | some x =>
    refine .some (Value.heldEquiv_self_of_wellKeyed ?_)
    cases src with
    | obj fs => exact h.of_get? hx
    | _ => cases hx

theorem labelsOf_copy (c : Copy) (ns src refs : Value) (uid : String) (now : Stamp)
    (version : String) :
    labelsOf (stamped (withOwners (copyObject c ns src) refs) uid now version) =
      .obj [(controlLabel, .str "true")] := by
  simp [labelsOf, stamped, withOwners, copyObject, Value.set_obj, Value.getD_eq, Value.get?_obj,
    Fields.get?_cons, Value.orEmpty, Value.or, Value.truthy]

/-- A copy filed afresh holds the copied fields of its source and the control label. -/
theorem copyOf_created {src : Value} (hsrc : src.WellKeyed) (c : Copy) (ns refs : Value)
    (uid : String) (now : Stamp) (version : String) :
    CopyOf c.kind src (stamped (withOwners (copyObject c ns src) refs) uid now version) := by
  refine ⟨fun f hf => ?_, ?_⟩
  · have hmd := (copiedFields_reserved hf).2.2.1
    simp only [stamped, withOwners, Value.get?_set, hmd, and_false, if_false,
      get?_copyObject c ns src hf]
    exact rel_get?_self hsrc f
  · simp [labelsOf_copy, Value.get?_obj, Fields.get?_cons]


theorem keys_copiedMembers (kind : String) (src : Value) :
    Fields.keys (copiedMembers kind src) = (copiedFields kind).filter (fun f => (src.get? f).isSome) := by
  unfold copiedMembers Fields.keys
  induction copiedFields kind with
  | nil => rfl
  | cons f fs ih =>
    cases hf : src.get? f <;> simp [hf, ih]

theorem keysDistinct_copyObject (c : Copy) (ns src : Value) : (copyObject c ns src).KeysDistinct := by
  rintro fs ⟨⟩
  have hmem : ∀ f ∈ Fields.keys (copiedMembers c.kind src), f ∈ copiedFields c.kind := by
    intro f hf
    rw [keys_copiedMembers] at hf
    exact (List.mem_filter.1 hf).1
  have hnd : (Fields.keys (copiedMembers c.kind src)).Nodup := by
    rw [keys_copiedMembers]
    exact (copiedFields_nodup c.kind).filter _
  simp only [Fields.keys, List.map_append, List.map_cons, List.map_nil] at hnd hmem ⊢
  refine List.nodup_append.2 ⟨by decide, hnd, fun a ha b hb => ?_⟩
  obtain ⟨h₁, h₂, h₃, -⟩ := copiedFields_reserved (hmem b hb)
  simp only [List.mem_cons, List.not_mem_nil, or_false] at ha
  rintro rfl
  rcases ha with rfl | rfl | rfl <;> contradiction

/-- A copy filed afresh is no object pending removal, and its members have distinct keys. -/
theorem overwritable_created (c : Copy) (ns src refs : Value) (uid : String) (now : Stamp)
    (version : String) :
    Overwritable (stamped (withOwners (copyObject c ns src) refs) uid now version) := by
  refine ⟨fun hp => ?_, ?_⟩
  · have hnil : ∀ k, Fields.get? [] k = none := fun _ => rfl
    have hdel := hp.1
    simp [stamped, withOwners, copyObject, Value.set_obj, Value.getD_eq, Value.get?_obj,
      Fields.get?_cons, hnil, Value.truthy] at hdel
  · exact (((keysDistinct_copyObject c ns src).set _ _).set _ _)


theorem obj_of_heldEquiv_obj {fs : Fields} {z : Value} (h : (Value.obj fs).heldEquiv z = true) :
    ∃ zs, z = .obj zs := by
  cases z with
  | obj zs => exact ⟨zs, rfl⟩
  | _ => simp [Value.heldEquiv, Value.equiv, Value.isNaN, Value.num?] at h

theorem get?_withStatusOf (cur res : Value) {k : String} (hk : k ≠ "status") :
    (withStatusOf cur res).get? k = res.get? k := by
  unfold withStatusOf
  split <;> simp [hk]

theorem KeysDistinct.withStatusOf {res : Value} (h : res.KeysDistinct) (cur : Value) :
    (withStatusOf cur res).KeysDistinct := by
  unfold Cluster.Store.withStatusOf
  split
  · exact h.set _ _
  · exact h.erase _

/-- An object whose metadata holds labels with the control label set carries it. -/
theorem labelled_of_labels {o : Value} {fs : Fields}
    (h : (o.getD "metadata").get? "labels" = some (.obj fs))
    (hfs : Fields.get? fs controlLabel = some (.str "true")) :
    (labelsOf o).get? controlLabel = some (.str "true") := by
  have hne : fs ≠ [] := by rintro rfl; cases hfs
  rw [labelsOf, Value.getD_eq (o.getD "metadata"), h]
  simp [Value.orEmpty, Value.or, Value.truthy, hne, Value.get?_obj, hfs]

/-! ### Bringing an existing copy up to date -/

section Refresh

variable {kind : String} {src copy : Value} {g : Value → String → Value}
  (hset : ∀ u f x, copy.get? f = some x → g u f = u.set f x)
  (herase : ∀ u f, copy.get? f = none → g u f = u.erase f)
  (hcopy : ∀ f ∈ copiedFields kind, copy.get? f = src.get? f)
include hset herase hcopy

/-- Brought up to date, an object holds the copied fields of the source. -/
theorem get?_refreshed {cur : Value} (hcur : cur.isObj = true) (md : Value) {f : String}
    (hf : f ∈ copiedFields kind) :
    ((copiedFields kind).foldl g (cur.set "metadata" md)).get? f = src.get? f := by
  rw [Value.get?_foldl_refresh hset herase (copiedFields_nodup kind) (by simp [hcur]), if_pos hf,
    hcopy f hf]

omit hcopy in
/-- Brought up to date, an object holds the metadata it was given. -/
theorem metadata_refreshed {cur : Value} (hcur : cur.isObj = true) (md : Value) :
    ((copiedFields kind).foldl g (cur.set "metadata" md)).get? "metadata" = some md := by
  have hmd : "metadata" ∉ copiedFields kind := fun h => (copiedFields_reserved h).2.2.1 rfl
  rw [Value.get?_foldl_refresh hset herase (copiedFields_nodup kind) (by simp [hcur]),
    if_neg hmd]
  simp [hcur]

/-- An existing copy left alone because it equals its update holds the copied fields of the
source and the control label. The comparison sees the object as a map, so its keys must be
distinct for a missing field to stay missing. -/
theorem copyOf_kept {cs : Fields} (hcs : (Fields.keys cs).Nodup) {curMd L : Value}
    (hcurMd : Fields.get? cs "metadata" = some curMd) (hL : curMd.field "labels" = .ok L)
    (fs : Fields) (refs : Value)
    (heq : ((copiedFields kind).foldl g ((Value.obj cs).set "metadata"
      ((curMd.set "ownerReferences" refs).set "labels"
        (.obj (Fields.insert fs controlLabel (.str "true")))))).equiv (.obj cs) = true) :
    CopyOf kind src (.obj cs) := by
  generalize hmd : (curMd.set "ownerReferences" refs).set "labels"
    (.obj (Fields.insert fs controlLabel (.str "true"))) = md at heq
  have hobj : ((copiedFields kind).foldl g ((Value.obj cs).set "metadata" md)).isObj = true := by
    rw [Value.isObj_foldl_refresh hset herase]
    rfl
  obtain ⟨us, hus⟩ : ∃ us, (copiedFields kind).foldl g ((Value.obj cs).set "metadata" md) = .obj us := by
    revert hobj
    cases (copiedFields kind).foldl g ((Value.obj cs).set "metadata" md) <;> simp [Value.isObj]
  have hkeys : (Fields.keys us).Nodup :=
    Value.KeysDistinct.foldl_refresh hset herase _
      ((show (Value.obj cs).KeysDistinct from fun _ h => by cases h; exact hcs).set _ _) us hus
  have hget : ∀ k, Fields.get? us k =
      ((copiedFields kind).foldl g ((Value.obj cs).set "metadata" md)).get? k := by
    intro k
    rw [hus]
    rfl
  rw [hus] at heq
  refine ⟨fun f hf => ?_, ?_⟩
  · -- a copied field the update holds is found in the object; one it lacks, the object lacks
    cases hx : src.get? f with
    | some x =>
      have hux : Fields.get? us f = some x := by
        rw [hget, get?_refreshed hset herase hcopy rfl md hf, hx]
      obtain ⟨y, hy, hxy⟩ := Value.get?_of_equiv_obj heq hux
      rw [Value.get?_obj, hy]
      exact .some hxy
    | none =>
      cases hy : Fields.get? cs f with
      | none => rw [Value.get?_obj, hy]; exact .none
      | some y =>
        have hsome := Value.isSome_get?_of_equiv_obj heq hkeys (k := f) (by simp [hy])
        rw [hget, get?_refreshed hset herase hcopy rfl md hf, hx] at hsome
        cases hsome
  · -- the labels of the update are among the object's, equal to theirs
    have hmdu : Fields.get? us "metadata" = some md := by
      rw [hget, metadata_refreshed hset herase rfl md]
    obtain ⟨y, hy, hmdy⟩ := Value.get?_of_equiv_obj heq hmdu
    rw [hcurMd] at hy
    cases hy
    obtain ⟨ms, rfl⟩ : ∃ ms, curMd = .obj ms := by
      cases curMd <;> simp_all [Value.field]
    subst hmd
    have hml : Fields.get? (Fields.insert (Fields.insert ms "ownerReferences" refs) "labels"
        (.obj (Fields.insert fs controlLabel (.str "true")))) "labels" =
        some (.obj (Fields.insert fs controlLabel (.str "true"))) := by simp
    obtain ⟨z, hz, hzm⟩ := Value.get?_of_equiv_obj (Value.heldEquiv_obj_iff.1 hmdy) hml
    obtain ⟨zs, rfl⟩ := obj_of_heldEquiv_obj hzm
    obtain ⟨y', hy', hy'm⟩ := Value.get?_of_equiv_obj (Value.heldEquiv_obj_iff.1 hzm)
      (k := controlLabel) (x := .str "true") (by simp)
    have hy'' : y' = .str "true" := Value.heldEquiv_str_iff.1 (Value.heldEquiv_symm rfl hy'm)
    subst hy''
    have hne : zs ≠ [] := by rintro rfl; cases hy'
    simp [labelsOf, Value.getD_eq, Value.get?_obj, hcurMd, hz, Value.orEmpty, Value.or,
      Value.truthy, hne, hy']

/-- An existing copy rewritten by the update holds the copied fields of the source and the
control label, and stays overwritable: it keeps the life of the object it replaces. -/
theorem copyOf_rewritten (hsrc : src.WellKeyed) {cur curMd : Value} (hcur : Overwritable cur)
    (hmd : cur.index "metadata" = .ok curMd) (refs : Value) (fs : Fields) {a : Address}
    (hr : Address.read ((copiedFields kind).foldl g (cur.set "metadata"
      ((curMd.set "ownerReferences" refs).set "labels"
        (.obj (Fields.insert fs controlLabel (.str "true")))))) = .ok a) (version : Value) :
    let o := updated cur ((copiedFields kind).foldl g (cur.set "metadata"
      ((curMd.set "ownerReferences" refs).set "labels"
        (.obj (Fields.insert fs controlLabel (.str "true")))))) version
    CopyOf kind src o ∧ Overwritable o := by
  intro o
  obtain ⟨-, hkept⟩ := copy_update_parts hmd refs (.obj (Fields.insert fs controlLabel (.str "true")))
    kind (g := g) fun u f => by
      cases hf : copy.get? f with
      | none => exact .inl (herase u f hf)
      | some x => exact .inr ⟨x, hset u f x hf⟩
  have hcurObj : cur.isObj = true := by
    cases cur <;> simp_all [Value.index, Value.isObj]
  -- the update names an address, so its metadata, and the metadata it started from, are objects
  have hmdObj := metadata_isObj_of_read hr
  rw [metadataOf, metadata_refreshed hset herase hcurObj] at hmdObj
  simp only [Option.getD_some, Value.isObj_set] at hmdObj
  have hrw : Rewritten cur ((copiedFields kind).foldl g (cur.set "metadata"
      ((curMd.set "ownerReferences" refs).set "labels"
        (.obj (Fields.insert fs controlLabel (.str "true")))))) o := ⟨_, version, rfl⟩
  have hko := hrw.kept hr hkept
  refine ⟨⟨fun f hf => ?_, ?_⟩, ⟨fun hp => hcur.live (hp.of_kept hko), ?_⟩⟩
  · obtain ⟨-, -, hmeta, hstatus⟩ := copiedFields_reserved hf
    simp only [o, updated, Value.get?_set, hmeta, and_false, if_false,
      get?_withStatusOf _ _ hstatus, get?_refreshed hset herase hcopy hcurObj _ hf]
    exact rel_get?_self hsrc f
  · have hlabels : (restoredMetadata cur ((copiedFields kind).foldl g (cur.set "metadata"
        ((curMd.set "ownerReferences" refs).set "labels"
          (.obj (Fields.insert fs controlLabel (.str "true"))))))).get? "labels" =
        some (.obj (Fields.insert fs controlLabel (.str "true"))) := by
      rw [get?_restoredMetadata hr, if_neg (by decide), Value.getD_eq,
        metadata_refreshed hset herase hcurObj]
      simp [hmdObj]
    have hmeta : (o.getD "metadata").get? "labels" =
        some (.obj (Fields.insert fs controlLabel (.str "true"))) := by
      simp only [o, updated, getD_metadata_rewritten hr, Value.get?_set]
      simp [hlabels]
    exact labelled_of_labels hmeta (by simp)
  · exact (KeysDistinct.withStatusOf ((hcur.keys.set _ _).foldl_refresh hset herase _) cur).set _ _

end Refresh

/-! ### One copy in a plain world -/

/-- The part of `copyResource` that runs when the copy exists already: the object found at the
target is brought up to date with `copy`, the object the create was given. -/
def refreshCopy (c : Copy) (request : View) (copy : Value) : ClusterM Bool := do
  let targetNs := request.namespace
  let at_ := c.kind ++ " " ++ targetNs.display ++ "/" ++ c.target.display
  let (ok, current) ← getObject (.str c.kind) c.target targetNs (.str "v1")
  let some current := (if ok then current else none)
    | throw (.cluster ("Failed to fetch " ++ at_))
  let curMd ← ClusterM.check (current.index "metadata")
  let labels ← ClusterM.check (do
    match (← curMd.field "labels").orEmpty with
    | .obj fs => pure fs
    | other => throw (.raised .typeError ("'" ++ other.typeName ++ "' object is not a mapping")))
  let copyMd := copy.getD "metadata"
  let merged := [(controlLabel, Value.str "true")].foldl (fun acc (k, v) => Fields.insert acc k v) labels
  let md := (curMd.set "ownerReferences" (copyMd.getD "ownerReferences")).set "labels" (.obj merged)
  let updated := (copiedFields c.kind).foldl (fun u f =>
    match copy.get? f with
    | some v => u.set f v
    | none => u.erase f) (current.set "metadata" md)
  if updated.equiv current then return true
  let (ok, _) ← update updated
  if !ok then throw (.cluster ("Failed to update " ++ at_))
  pure true

/-- A copy looks its source up, files the copy, and brings an existing one up to date. -/
theorem copyResource_eq (c : Copy) (sourceNs : Value) (request : View) :
    copyResource c sourceNs request = (do
      let (ok, source) ← getObject (.str c.kind) c.source sourceNs (.str "v1")
      if !ok then
        throw (.cluster ("Failed to fetch " ++ c.kind ++ " " ++ sourceNs.display ++ "/" ++
          c.source.display))
      let some source := source | return false
      let copy ← addOwner request.manifest (copyObject c request.namespace source)
      let (ok, created) ← create copy
      if !ok then
        throw (.cluster ("Failed to create " ++ c.kind ++ " " ++ request.namespace.display ++ "/" ++
          c.target.display))
      if created then return true
      refreshCopy c request copy) := rfl

/-- A store holding at `a` a copy of the source `src` of kind `kind` that a later copy can
write over. -/
def HoldsCopy (kind : String) (src : Value) (a : Address) (s : Store) : Prop :=
  ∃ o, s.objectAt a = some o ∧ CopyOf kind src o ∧ Overwritable o

/-- A step of the cluster that writes at most the place `a`: the world stays plain and its
store well formed, and every object at another place stays as it was. -/
structure CopyStep (a : Address) (w w' : World) : Prop where
  plain : w'.Plain
  wf : w'.store.WF
  frame : ∀ d, ¬ d.Equiv a → w'.store.objectAt d = w.store.objectAt d

variable {w w' : World}

theorem get?_withOwners_copy {c : Copy} {f : String} (hf : f ∈ copiedFields c.kind)
    (ns src refs : Value) : (withOwners (copyObject c ns src) refs).get? f = src.get? f := by
  simp [withOwners, Value.get?_set, (copiedFields_reserved hf).2.2.1, get?_copyObject c ns src hf]

/-- An update the store accepts, of an object that names the address of the object `cur` at
`a`, finds `cur` at a place equal to `a`. -/
theorem accepts_at {s : Store} (hs : s.WF) {a : Address} {cur res : Value}
    (hcur : s.objectAt a = some cur) (hread : ∀ b, Address.read cur = .ok b → Address.read res = .ok b)
    {b : Address} {cur' : Value} (hacc : s.Accepts res b cur') : b.Equiv a ∧ a.Equiv b ∧ cur' = cur := by
  obtain ⟨b₀, hr₀, hb₀⟩ := hs.named_of_objectAt hcur
  obtain ⟨hrb, hbh, hat, -⟩ := hacc
  rw [hread b₀ hr₀] at hrb
  cases hrb
  refine ⟨hb₀, hb₀.symm hbh, ?_⟩
  rw [objectAt_congr s hbh hb₀, hcur] at hat
  exact (Option.some.inj hat).symm

/-- What an update that answers can have done: refused, leaving the store, or accepted. -/
theorem update_result {s s' : Store} {res : Value} {r : Bool × Bool}
    (h : (Store.update res).run.run s = (.ok r, s')) :
    r = (false, false) ∧ s' = s ∨ ∃ a cur, s.Accepts res a cur ∧
      r = (true, updateChanges cur res) ∧ s' = s.afterUpdate a cur res := by
  have hout := run_of_triple (update_outcome s res)
  rwa [h] at hout

/-- Bringing an existing copy up to date, in a plain world, where an object that a copy can
write over stands at the copy's place: the object left there is a copy of the source, and
nothing else changes. -/
theorem run_refreshCopy (hw : w.Plain) (hwf : w.store.WF) {c : Copy} {request : View}
    {src refs cur : Value} (hcur : w.store.objectAt (c.place request) = some cur) {b : Bool}
    (hrun : (refreshCopy c request (withOwners (copyObject c request.namespace src) refs)).run.run w =
      (.ok b, w')) :
    b = true ∧ CopyStep (c.place request) w w' ∧
      (src.WellKeyed → Overwritable cur → HoldsCopy c.kind src (c.place request) w'.store) := by
  have hcopy : ∀ f ∈ copiedFields c.kind,
      (withOwners (copyObject c request.namespace src) refs).get? f = src.get? f :=
    fun f hf => get?_withOwners_copy hf _ _ _
  generalize withOwners (copyObject c request.namespace src) refs = copy at hrun hcopy
  -- the object at the place is the one the lookup finds
  unfold refreshCopy at hrun
  obtain ⟨p, w₁, hp, hrun⟩ := run_run_bind_ok hrun
  rw [run_getObject hw, get_of_objectAt hwf.keyed hcur] at hp
  cases hp
  obtain ⟨curMd, w₂, hmd, hrun⟩ := run_run_bind_ok hrun
  rw [run_check] at hmd
  obtain ⟨hindex, rfl⟩ := Prod.mk.inj hmd
  obtain ⟨fs, w₃, hfs, hrun⟩ := run_run_bind_ok hrun
  rw [run_check] at hfs
  obtain ⟨hlabels, rfl⟩ := Prod.mk.inj hfs
  have hset : ∀ (u : Value) (f : String) (x : Value), copy.get? f = some x →
      (match copy.get? f with
        | some v => u.set f v
        | none => u.erase f) = u.set f x := fun u f x h => by simp [h]
  have herase : ∀ (u : Value) (f : String), copy.get? f = none →
      (match copy.get? f with
        | some v => u.set f v
        | none => u.erase f) = u.erase f := fun u f h => by simp [h]
  simp only [List.foldl] at hrun
  split at hrun
  · -- the copy there equals its update, and is left as it is
    next heq =>
    cases hrun
    obtain ⟨cs, rfl⟩ : ∃ cs, cur = .obj cs := by
      cases cur <;> simp_all [Value.index]
    have hcurMd : Fields.get? cs "metadata" = some curMd := by
      simp only [Value.index] at hindex
      split at hindex
      · cases hindex
        assumption
      · cases hindex
    obtain ⟨L, hL, -⟩ := except_bind_eq_ok hlabels
    exact ⟨rfl, ⟨hw, hwf, fun _ _ => rfl⟩, fun _ hover => ⟨.obj cs, hcur,
      copyOf_kept hset herase hcopy (hover.keys cs rfl) hcurMd hL fs _ heq, hover⟩⟩
  · -- the copy there is brought up to date by an update the store accepts
    generalize hupd : List.foldl (fun u f => match copy.get? f with
      | some v => u.set f v
      | none => u.erase f) (cur.set "metadata" ((curMd.set "ownerReferences"
        ((copy.getD "metadata").getD "ownerReferences")).set "labels"
        (.obj (Fields.insert fs controlLabel (.str "true"))))) (copiedFields c.kind) = upd at hrun
    obtain ⟨q, w₄, hq, hfinal⟩ := run_run_bind_ok hrun
    rw [run_update hw] at hq
    rcases hx : (Store.update upd).run.run w.store with ⟨e | r, s₂⟩ <;> rw [hx] at hq
    · cases hq
    simp only at hq
    obtain ⟨rfl, rfl⟩ := hq
    rcases update_result hx with ⟨rfl, -⟩ | ⟨a, cur', hacc, rfl, rfl⟩
    · cases hfinal
    have hread := (copy_update_parts hindex ((copy.getD "metadata").getD "ownerReferences")
      (.obj (Fields.insert fs controlLabel (.str "true"))) c.kind fun u f => by
        cases hf : copy.get? f with
        | none => exact .inl (herase u f hf)
        | some x => exact .inr ⟨x, hset u f x hf⟩).1
    rw [hupd] at hread
    obtain ⟨haP, hPa, rfl⟩ := accepts_at hwf hcur hread hacc
    obtain ⟨hr, hah, hat, -⟩ := hacc
    simp only [run_run_pure, Bool.not_true, Bool.false_eq_true, if_false] at hfinal
    cases hfinal
    refine ⟨rfl, ⟨⟨hw.faults, hw.backend⟩,
      hwf.settle_write hah.2.2.2 (Rewritten.read hr ⟨_, _, rfl⟩) _, fun d hd => ?_⟩,
      fun hsrc hover => ?_⟩
    · rw [afterUpdate, objectAt_settle_write hwf.keyed hat, if_neg]
      exact fun hda => hd (hda.trans (hda.hashable_left hah) haP)
    · have hnew := copyOf_rewritten hset herase hcopy hsrc hover hindex _ fs (hupd ▸ hr)
        (w.store.updateVersion cur' upd)
      rw [hupd] at hnew
      refine ⟨_, ?_, hnew.1, hnew.2⟩
      rw [afterUpdate, objectAt_settle_write hwf.keyed hat, if_pos hPa, if_neg hnew.2.live]

/-- The address a copy names is the copy's place. -/
theorem read_copy {c : Copy} {request : View} {src refs : Value} {a : Address}
    (h : Address.read (withOwners (copyObject c request.namespace src) refs) = .ok a) :
    a = c.place request := by
  obtain ⟨hns, hk, hv, hn⟩ := parts_of_read h
  obtain ⟨hk', hv', hns', -⟩ := copy_parts c.kind c.target request.namespace
    (.obj [(controlLabel, .str "true")]) refs (copiedMembers c.kind src)
  have hn' : ((withOwners (copyObject c request.namespace src) refs).getD "metadata").getD "name" =
      c.target := by
    simp [withOwners, copyObject, Value.getD, Value.get?, Value.set, Fields.get?_cons]
  cases a
  simp only [Copy.place, Address.mk.injEq]
  exact ⟨hns.trans hns', hk.trans hk', hv.trans hv', hn.trans hn'⟩

/-- A create that answers named an address whose parts serve as keys. -/
theorem hashable_of_create {s s' : Store} {res : Value} {uid : String} {now : Stamp} {x : Bool}
    (h : (Store.create res uid now).run.run s = (.ok x, s')) :
    ∃ a, Address.read res = .ok a ∧ a.Hashable := by
  have hh := (triple_iff_run _ _ _).1 (create_hashable res uid now) s trivial
  rwa [h] at hh

/-- One copy in a plain world writes at most the copy's place. When the source exists, the copy
answers that it was made, and, if the source's objects have distinct keys and the object at the
place, if any, can be written over, a copy of the source stands at the place. -/
theorem run_copyResource (hw : w.Plain) (hwf : w.store.WF) (c : Copy) (sourceNs : Value)
    (request : View) {b : Bool} (hrun : (copyResource c sourceNs request).run.run w = (.ok b, w')) :
    CopyStep (c.place request) w w' ∧
      ∀ src, w.store.get (.str c.kind) c.source sourceNs (.str "v1") = .ok (some src) →
        src.WellKeyed → (∀ o, w.store.objectAt (c.place request) = some o → Overwritable o) →
        b = true ∧ HoldsCopy c.kind src (c.place request) w'.store := by
  rw [copyResource_eq] at hrun
  obtain ⟨p, w₁, hp, hrun⟩ := run_run_bind_ok hrun
  rw [run_getObject hw] at hp
  cases hget : w.store.get (.str c.kind) c.source sourceNs (.str "v1") with
  | error e => rw [hget] at hp; cases hp
  | ok found =>
  rw [hget] at hp
  cases hp
  cases found with
  | none =>
    -- a missing source: nothing is written
    simp only [Bool.not_true, Bool.false_eq_true, if_false, run_run_pure] at hrun
    cases hrun
    exact ⟨⟨hw, hwf, fun _ _ => rfl⟩, fun src hs => by cases hs⟩
  | some src =>
  -- the copy, with its owner reference, is handed to the create
  simp only [Bool.not_true, Bool.false_eq_true, if_false] at hrun
  obtain ⟨r₁, hao, hshape⟩ := run_addOwner hw request.manifest (copyObject c request.namespace src)
  obtain ⟨res, w₂, hres, hrun⟩ := run_run_bind_ok hrun
  rw [hao] at hres
  obtain ⟨rfl, rfl⟩ := Prod.mk.inj hres
  obtain ⟨refs, hrefs⟩ := hshape res rfl
  change res = withOwners (copyObject c request.namespace src) refs at hrefs
  subst hrefs
  obtain ⟨q, w₃, hq, hrun⟩ := run_run_bind_ok hrun
  obtain ⟨n, hcr⟩ := run_create hw (withOwners (copyObject c request.namespace src) refs)
  rw [hcr] at hq
  rcases hx : (Store.create (withOwners (copyObject c request.namespace src) refs)
    (uidText (w.created + 1)) w.now).run.run w.store with ⟨e | created, s₁⟩ <;> rw [hx] at hq
  · cases hq
  cases hq
  have hspec := run_of_triple (create_spec w.store hwf (withOwners (copyObject c request.namespace
    src) refs) (uidText (w.created + 1)) w.now)
  rw [hx] at hspec
  obtain ⟨hgrown, a, hra, hnew, htaken⟩ := hspec
  obtain ⟨a', hra', hah⟩ := hashable_of_create hx
  rw [hra] at hra'
  cases hra'
  obtain rfl := read_copy hra
  have hw₃ : World.Plain { w with store := s₁, created := n } := ⟨hw.faults, hw.backend⟩
  -- the create wrote at most the copy's place
  have hframe : ∀ d, ¬ d.Equiv (c.place request) → s₁.objectAt d = w.store.objectAt d := by
    intro d hd
    rcases hgrown.confined with rfl | ⟨a'', hr'', hconf⟩
    · rfl
    · rw [hra] at hr''
      cases hr''
      exact hconf.frame d hd
  cases created
  · -- the place was taken: the object there is brought up to date
    simp only [Bool.false_eq_true, if_false] at hrun
    obtain ⟨cur, hcur⟩ := Option.ne_none_iff_exists'.1 (htaken rfl)
    obtain ⟨hb, hstep, hholds⟩ := run_refreshCopy hw₃ hgrown.wf (hgrown.keeps _ _ hcur) hrun
    refine ⟨⟨hstep.plain, hstep.wf, fun d hd => (hstep.frame d hd).trans (hframe d hd)⟩,
      fun src' hs hsrc hover => ?_⟩
    cases hs
    exact ⟨hb, hholds hsrc (hover cur hcur)⟩
  · -- the copy was filed afresh
    simp only [Bool.not_true, Bool.false_eq_true, if_false, if_true, run_run_pure] at hrun
    cases hrun
    obtain ⟨-, hat⟩ := hnew rfl (Address.Equiv.refl hah)
    refine ⟨⟨hw₃, hgrown.wf, hframe⟩, fun src' hs hsrc _ => ?_⟩
    cases hs
    exact ⟨rfl, _, hat, copyOf_created hsrc c request.namespace refs _ _ _,
      overwritable_created c request.namespace src refs _ _ _⟩

end OperandLifecycle.Controllers

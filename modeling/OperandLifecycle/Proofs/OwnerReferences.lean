import OperandLifecycle.Proofs.Footprint
import OperandLifecycle.Cluster.Ownership
/-!
# Merging owner references

`addOwner owner child` gives a child, in order, the references it carries, the references of
its live copy in the cluster that name a uid none of those names (`unnamedIn`), and a reference
to the owner when the owner lives in the child's namespace and no reference so far names the
owner's uid (`ownerAddition`).

In a plain world, where every reference met is an object whose uid can serve as a key, the
merge reads the cluster and changes nothing, answers exactly that child (`addOwner_run`), drops
no reference, and merging the same owner into its answer again answers it unchanged
(`addOwner_merges_references`).
-/

namespace OperandLifecycle.Cluster

open Json

/-! ### References -/

/-- The uid a reference names, `null` when it names none. -/
def refUid (ref : Value) : Value := ref.getD "uid"

/-- A reference the merge can read: an object whose uid can serve as a key. -/
def IsReference (ref : Value) : Prop := ref.isObj = true ∧ (refUid ref).hashable = true

instance (ref : Value) : Decidable (IsReference ref) := inferInstanceAs (Decidable (_ ∧ _))

/-- Whether one of the references names the uid `u`, as a membership test sees it. -/
def namesUid (refs : List Value) (u : Value) : Bool := refs.any (fun r => (refUid r).heldEquiv u)

/-- The references of `live` whose uid none of `refs` names, in order. -/
def unnamedIn (refs live : List Value) : List Value := live.filter (fun r => !namesUid refs (refUid r))

/-- The reference to `owner` that a child in namespace `ns` with references `refs` gains: one
when the owner lives in `ns` and no reference names its uid yet. -/
def ownerAddition (owner ns : Value) (refs : List Value) : List Value :=
  let md := owner.getD "metadata"
  if ns.equiv (md.getD "namespace") && !namesUid refs (md.getD "uid") then [ownerReference owner]
  else []

/-- The owner references of an object: its metadata's, the empty list when absent. -/
def referencesOf (o : Value) : Except Failure Value :=
  (o.fieldOr "metadata" (.obj [])).bind (·.fieldOr "ownerReferences" (.arr []))

/-- A child with its owner references set to `refs`. -/
def withReferences (child : Value) (refs : List Value) : Value :=
  child.set "metadata" ((child.getD "metadata").set "ownerReferences" (.arr refs))

/-- The live copy of a child: the object the store files under the child's kind, name,
namespace and version, none when there is none or the lookup fails. -/
def liveCopy (s : Store) (child : Value) : Option Value :=
  let md := child.getD "metadata"
  match s.get (child.getD "kind") (md.getD "name") (md.getD "namespace") (child.getD "apiVersion") with
  | .ok o => o
  | .error _ => none

/-- The owner references of a live copy, none when there is no live copy. -/
def liveReferences : Option Value → Except Failure Value
  | none => .ok (.arr [])
  | some o => referencesOf o

theorem referenceUid_of_isObj {ref : Value} (h : ref.isObj = true) :
    referenceUid ref = .ok (refUid ref) :=
  Value.field_eq_of_isObj h "uid"

theorem refUid_ownerReference (owner : Value) :
    refUid (ownerReference owner) = (owner.getD "metadata").getD "uid" := rfl

theorem namesUid_append (refs refs' : List Value) (u : Value) :
    namesUid (refs ++ refs') u = (namesUid refs u || namesUid refs' u) := by
  simp [namesUid, List.any_append]

/-- A reference names its own uid. -/
theorem namesUid_of_mem {refs : List Value} {r : Value} (hr : r ∈ refs)
    (h : (refUid r).hashable = true) : namesUid refs (refUid r) = true :=
  List.any_eq_true.2 ⟨r, hr, Value.heldEquiv_self h⟩

/-- A map by a computation that fails on none of the items maps by its answers. -/
theorem mapM_eq_ok {α β ε : Type} {p : α → Except ε β} {f : α → β} {l : List α}
    (h : ∀ a ∈ l, p a = .ok (f a)) : l.mapM p = .ok (l.map f) := by
  induction l with
  | nil => rfl
  | cons a l ih =>
    rw [List.mapM_cons, h a (List.mem_cons_self ..), ih fun a' ha' => h a' (List.mem_cons_of_mem _ ha')]
    rfl

/-- A filter by a test that fails on none of the items filters by the test's answers. -/
theorem filterM_eq_ok {α ε : Type} {p : α → Except ε Bool} {q : α → Bool} {l : List α}
    (h : ∀ a ∈ l, p a = .ok (q a)) : l.filterM p = .ok (l.filter q) := by
  -- the filter keeps what it chose so far, newest first, in an accumulator
  have haux : ∀ (l : List α) (acc : List α), (∀ a ∈ l, p a = .ok (q a)) →
      List.filterAuxM p l acc = .ok ((l.filter q).reverse ++ acc) := by
    intro l
    induction l with
    | nil => intro acc _; rfl
    | cons a l ih =>
      intro acc h
      simp only [List.filterAuxM, h a (List.mem_cons_self ..), bind, Except.bind]
      rw [ih _ fun a' ha' => h a' (List.mem_cons_of_mem _ ha')]
      cases hq : q a <;> simp [hq]
  simp only [List.filterM, haux l [] h, bind, Except.bind, pure, Except.pure, List.append_nil,
    List.reverse_reverse]

/-! ### The stages of a merge -/

section Stages

variable {refs live : List Value}

/-- The uids the child's references name, each checked to serve as a key. -/
theorem known_ok (h : ∀ r ∈ refs, IsReference r) :
    refs.mapM (fun r => do
      let uid ← referenceUid r
      if !uid.hashable then throw (unhashable uid)
      pure uid) = .ok (refs.map refUid) := by
  refine mapM_eq_ok fun r hr => ?_
  obtain ⟨hobj, hkey⟩ := h r hr
  simp only [referenceUid_of_isObj hobj, bind, Except.bind, hkey, Bool.not_true,
    Bool.false_eq_true, if_false, pure, Except.pure]

theorem mapM_referenceUid (h : ∀ r ∈ refs, IsReference r) :
    refs.mapM referenceUid = .ok (refs.map refUid) :=
  mapM_eq_ok fun r hr => referenceUid_of_isObj (h r hr).1

/-- The live references that `newReferences` keeps are those no known uid names. -/
theorem newReferences_eq (h : ∀ r ∈ live, IsReference r) :
    newReferences (refs.map refUid) live = .ok (unnamedIn refs live) := by
  refine filterM_eq_ok fun r hr => ?_
  obtain ⟨hobj, hkey⟩ := h r hr
  simp only [referenceUid_of_isObj hobj, bind, Except.bind, hkey, Bool.not_true,
    Bool.false_eq_true, if_false, pure, Except.pure, namesUid, List.any_map, Function.comp_def]

/-- The owner references of an object read off its metadata. -/
theorem referencesOf_eq_ok {o v : Value} (h : referencesOf o = .ok v) :
    ∃ md, o.fieldOr "metadata" (.obj []) = .ok md ∧ md.fieldOr "ownerReferences" (.arr []) = .ok v := by
  unfold referencesOf at h
  cases hmd : o.fieldOr "metadata" (.obj []) with
  | error e => rw [hmd] at h; cases h
  | ok md => rw [hmd] at h; exact ⟨md, rfl, h⟩

/-- The references of the live copy join the child's, less those whose uid the child's name. -/
theorem withLiveReferences_eq {live? : Option Value} (href : ∀ r ∈ refs, IsReference r)
    (hlive : liveReferences live? = .ok (.arr live)) (hliveRefs : ∀ r ∈ live, IsReference r) :
    withLiveReferences refs live? = .ok (refs ++ unnamedIn refs live) := by
  cases live? with
  | none =>
    obtain rfl : live = [] := by simpa [liveReferences] using hlive.symm
    simp [withLiveReferences, unnamedIn, pure, Except.pure]
  | some content =>
    obtain ⟨md, hmd, hrefs⟩ := referencesOf_eq_ok hlive
    rw [withLiveReferences, known_ok href]
    simp only [hmd, hrefs, Value.iterate, newReferences_eq hliveRefs, bind, Except.bind, pure,
      Except.pure]

/-- The owner's reference is appended exactly as `ownerAddition` says. -/
theorem withOwnerReference_eq (owner ns : Value) (href : ∀ r ∈ refs, IsReference r) :
    withOwnerReference owner ns refs = .ok (refs ++ ownerAddition owner ns refs) := by
  rw [withOwnerReference]
  simp only [ownerAddition, mapM_referenceUid href, namesUid, bind, Except.bind, List.any_map,
    Function.comp_def]
  rcases Bool.eq_false_or_eq_true (ns.equiv ((owner.getD "metadata").getD "namespace")) with
    hns | hns <;>
    rcases Bool.eq_false_or_eq_true
      (refs.any (fun r => (refUid r).heldEquiv ((owner.getD "metadata").getD "uid"))) with hu | hu <;>
    simp [hns, hu, pure, Except.pure]

end Stages

/-! ### A merge in a plain world -/

/-- The references a merge gives a child in namespace `ns` with references `prev` whose live
copy has references `live`: the child's, then the live ones no uid of the child's names, then
the owner's when it is added. -/
def mergedReferences (owner ns : Value) (prev live : List Value) : List Value :=
  let refs := prev ++ unnamedIn prev live
  refs ++ ownerAddition owner ns refs

/-- An object that can own or be owned: it has a kind, an API version, and metadata that is an
object with a name and a namespace. -/
structure Owned (o : Value) : Prop where
  obj : o.isObj = true
  kind : (o.get? "kind").isSome = true
  apiVersion : (o.get? "apiVersion").isSome = true
  metadata : (o.getD "metadata").isObj = true
  name : ((o.getD "metadata").get? "name").isSome = true
  ns : ((o.getD "metadata").get? "namespace").isSome = true

theorem validateOwned_of_owned {o : Value} (h : Owned o) : validateOwned o = .ok () := by
  obtain ⟨hobj, hk, hv, hmd, hn, hns⟩ := h
  cases o with
  | obj fs =>
    cases hm : (Value.obj fs).getD "metadata" with
    | obj mfs =>
      rw [hm] at hn hns
      simp only [Value.getD, Value.get?_obj] at hm
      simp only [Value.get?_obj] at hk hv hn hns
      simp [validateOwned, Value.memberOf, Value.field, Fields.contains_iff, hk, hv, hn, hns, hm,
        Value.hashable, Value.isObj, Value.isArr, bind, Except.bind, pure, Except.pure]
    | _ => simp [hm, Value.isObj] at hmd
  | _ => simp [Value.isObj] at hobj

theorem fieldOr_metadata_of_owned {o : Value} (h : Owned o) :
    o.fieldOr "metadata" (.obj []) = .ok (o.getD "metadata") := by
  rw [Value.fieldOr_eq_of_isObj h.obj]
  cases hm : o.get? "metadata" with
  | none => have h' := h.metadata; simp [Value.getD, hm, Value.isObj] at h'
  | some md => simp [Value.getD, hm]

section Run

variable {w : World} {owner child : Value} {live? : Option Value} {prev live : List Value}

theorem addOwner_run (hw : w.Plain) (ho : Owned owner) (hc : Owned child)
    (hget : w.store.get (child.getD "kind") ((child.getD "metadata").getD "name")
      ((child.getD "metadata").getD "namespace") (child.getD "apiVersion") = .ok live?)
    (hprev : referencesOf child = .ok (.arr prev)) (hprevRefs : ∀ r ∈ prev, IsReference r)
    (hlive : liveReferences live? = .ok (.arr live)) (hliveRefs : ∀ r ∈ live, IsReference r) :
    (addOwner owner child).run.run w = (.ok (withReferences child
      (mergedReferences owner ((child.getD "metadata").getD "namespace") prev live)), w) := by
  obtain ⟨md, hmd, hrefs⟩ := referencesOf_eq_ok hprev
  rw [fieldOr_metadata_of_owned hc] at hmd
  cases hmd
  have hmerged : ∀ r ∈ prev ++ unnamedIn prev live, IsReference r := by
    intro r hr
    rcases List.mem_append.1 hr with hr | hr
    · exact hprevRefs r hr
    · exact hliveRefs r (List.mem_filter.1 hr).1
  simp only [addOwner, run_run_bind, run_check, validateOwned_of_owned ho,
    validateOwned_of_owned hc, run_getObject hw, hget, Except.map, hrefs, Bool.not_true,
    Bool.false_eq_true, if_false, Except.bind, Value.iterate, withLiveReferences_eq hprevRefs hlive hliveRefs,
    withOwnerReference_eq _ _ hmerged]
  rfl

/-- A store lookup under names that can serve as keys does not fail. -/
theorem get_ok_of_hashable (s : Store) {kind name ns : Value} (hkind : kind.hashable = true)
    (hname : name.hashable = true) (hns : ns.hashable = true) (v : Value) :
    ∃ o, s.get kind name ns v = .ok o := by
  simp only [Store.get, Store.shelvesOf_eq, requireKey, hns, hkind, hname, if_true, bind,
    Except.bind, pure, Except.pure]
  split <;> split <;> exact ⟨_, rfl⟩

end Run

/-! ### Merging twice -/

section Twice

variable {owner ns : Value} {prev live : List Value}

theorem unnamedIn_eq_nil {refs : List Value} (h : ∀ r ∈ live, namesUid refs (refUid r) = true) :
    unnamedIn refs live = [] := by
  simpa [unnamedIn] using h

/-- After one merge, every live reference is named by the merged references. -/
theorem namesUid_mergedReferences (hlive : ∀ r ∈ live, IsReference r) {r : Value} (hr : r ∈ live) :
    namesUid (mergedReferences owner ns prev live) (refUid r) = true := by
  simp only [mergedReferences, namesUid_append, Bool.or_eq_true]
  by_cases hn : namesUid prev (refUid r) = true
  · exact .inl (.inl hn)
  · refine .inl (.inr (namesUid_of_mem ?_ (hlive r hr).2))
    exact List.mem_filter.2 ⟨hr, by simpa using hn⟩

/-- After one merge, the owner needs no reference added. -/
theorem ownerAddition_mergedReferences (huid : ((owner.getD "metadata").getD "uid").hashable = true) :
    ownerAddition owner ns (mergedReferences owner ns prev live) = [] := by
  -- the first merge either found the owner's uid named, or added the owner's reference
  have hnamed : ns.equiv ((owner.getD "metadata").getD "namespace") = true →
      namesUid (mergedReferences owner ns prev live) ((owner.getD "metadata").getD "uid") = true := by
    intro hns
    show namesUid ((prev ++ unnamedIn prev live) ++
      ownerAddition owner ns (prev ++ unnamedIn prev live)) _ = true
    rw [namesUid_append, Bool.or_eq_true]
    by_cases hu : namesUid (prev ++ unnamedIn prev live) ((owner.getD "metadata").getD "uid") = true
    · exact .inl hu
    · refine .inr ?_
      have hadd : ownerAddition owner ns (prev ++ unnamedIn prev live) = [ownerReference owner] := by
        simp [ownerAddition, hns, hu]
      rw [hadd, ← refUid_ownerReference]
      exact namesUid_of_mem (List.mem_singleton_self _) huid
  unfold ownerAddition
  by_cases hns : ns.equiv ((owner.getD "metadata").getD "namespace") = true
  · simp [hnamed hns]
  · simp [hns]

/-- Merging the same owner and live references into merged references adds nothing. -/
theorem mergedReferences_mergedReferences (hlive : ∀ r ∈ live, IsReference r)
    (huid : ((owner.getD "metadata").getD "uid").hashable = true) :
    mergedReferences owner ns (mergedReferences owner ns prev live) live =
      mergedReferences owner ns prev live := by
  have hnone : unnamedIn (mergedReferences owner ns prev live) live = [] :=
    unnamedIn_eq_nil fun r hr => namesUid_mergedReferences hlive hr
  have hadd : ownerAddition owner ns (mergedReferences owner ns prev live) = [] :=
    ownerAddition_mergedReferences huid
  show (_ ++ unnamedIn (mergedReferences owner ns prev live) live) ++
    ownerAddition owner ns (_ ++ unnamedIn (mergedReferences owner ns prev live) live) = _
  rw [hnone, List.append_nil, hadd, List.append_nil]

theorem isReference_mergedReferences (hprev : ∀ r ∈ prev, IsReference r)
    (hlive : ∀ r ∈ live, IsReference r)
    (huid : ((owner.getD "metadata").getD "uid").hashable = true) :
    ∀ r ∈ mergedReferences owner ns prev live, IsReference r := by
  intro r hr
  simp only [mergedReferences, ownerAddition, List.mem_append] at hr
  rcases hr with (hr | hr) | hr
  · exact hprev r hr
  · exact hlive r (List.mem_filter.1 hr).1
  · split at hr
    · obtain rfl := List.mem_singleton.1 hr
      exact ⟨rfl, huid⟩
    · cases hr

end Twice

/-! ### A child with references -/

section Child

variable {child : Value} {refs refs' : List Value}

theorem getD_set_of_ne {v x : Value} {k k' : String} (hk : k' ≠ k) : (v.set k x).getD k' = v.getD k' := by
  simp [Value.getD_eq, hk]

theorem getD_withReferences {k : String} (hk : k ≠ "metadata") :
    (withReferences child refs).getD k = child.getD k :=
  getD_set_of_ne hk

theorem metadata_withReferences (hc : child.isObj = true) :
    (withReferences child refs).getD "metadata" =
      (child.getD "metadata").set "ownerReferences" (.arr refs) := by
  simp [withReferences, Value.getD_eq, hc]

theorem owned_withReferences (hc : Owned child) : Owned (withReferences child refs) where
  obj := by simp [withReferences, hc.obj]
  kind := by simpa [withReferences] using hc.kind
  apiVersion := by simpa [withReferences] using hc.apiVersion
  metadata := by simpa [metadata_withReferences hc.obj] using hc.metadata
  name := by simpa [metadata_withReferences hc.obj, hc.metadata] using hc.name
  ns := by simpa [metadata_withReferences hc.obj, hc.metadata] using hc.ns

theorem referencesOf_withReferences (hc : Owned child) :
    referencesOf (withReferences child refs) = .ok (.arr refs) := by
  simp only [referencesOf, fieldOr_metadata_of_owned (owned_withReferences hc),
    metadata_withReferences hc.obj, Except.bind,
    Value.fieldOr_eq_of_isObj (show ((child.getD "metadata").set "ownerReferences" (.arr refs)).isObj
      = true by simp [hc.metadata])]
  simp [hc.metadata]

theorem withReferences_withReferences (hc : child.isObj = true) :
    withReferences (withReferences child refs) refs' = withReferences child refs' := by
  rw [withReferences, metadata_withReferences hc, Value.set_set, withReferences, withReferences,
    Value.set_set]

/-- A child with other references names the same place in the store. -/
theorem get_withReferences (hc : Owned child) (s : Store) :
    s.get ((withReferences child refs).getD "kind")
      (((withReferences child refs).getD "metadata").getD "name")
      (((withReferences child refs).getD "metadata").getD "namespace")
      ((withReferences child refs).getD "apiVersion") =
    s.get (child.getD "kind") ((child.getD "metadata").getD "name")
      ((child.getD "metadata").getD "namespace") (child.getD "apiVersion") := by
  simp only [getD_withReferences (show "kind" ≠ "metadata" by decide),
    getD_withReferences (show "apiVersion" ≠ "metadata" by decide), metadata_withReferences hc.obj,
    getD_set_of_ne (show "name" ≠ "ownerReferences" by decide),
    getD_set_of_ne (show "namespace" ≠ "ownerReferences" by decide)]

end Child


/-! ### The merge -/

/-- Merging a reference to an owner into a child, in a plain world where every reference met is
an object whose uid, like the owner's, can serve as a key: the answer is the child with, in
order, every reference it carries, the references of its live copy whose uid none of those
names, and a reference to the owner exactly when the owner lives in the child's namespace and no
reference so far names its uid. The merge changes nothing in the cluster, drops no reference,
and merging the same owner into its answer again answers it unchanged. -/
theorem addOwner_merges_references {w : World} {owner child : Value} {prev live : List Value}
    (hw : w.Plain) (ho : Owned owner) (hc : Owned child)
    (hkind : (child.getD "kind").hashable = true)
    (hname : ((child.getD "metadata").getD "name").hashable = true)
    (hns : ((child.getD "metadata").getD "namespace").hashable = true)
    (hprev : referencesOf child = .ok (.arr prev)) (hprevRefs : ∀ r ∈ prev, IsReference r)
    (hlive : liveReferences (liveCopy w.store child) = .ok (.arr live))
    (hliveRefs : ∀ r ∈ live, IsReference r)
    (huid : ((owner.getD "metadata").getD "uid").hashable = true) :
    (addOwner owner child).run.run w = (.ok (withReferences child
      (mergedReferences owner ((child.getD "metadata").getD "namespace") prev live)), w) ∧
    prev <+: mergedReferences owner ((child.getD "metadata").getD "namespace") prev live ∧
    (addOwner owner (withReferences child
      (mergedReferences owner ((child.getD "metadata").getD "namespace") prev live))).run.run w =
      (.ok (withReferences child
        (mergedReferences owner ((child.getD "metadata").getD "namespace") prev live)), w) := by
  obtain ⟨live?, hget⟩ := get_ok_of_hashable w.store hkind hname hns (child.getD "apiVersion")
  have hcopy : liveCopy w.store child = live? := by simp [liveCopy, hget]
  rw [hcopy] at hlive
  refine ⟨addOwner_run hw ho hc hget hprev hprevRefs hlive hliveRefs,
    ⟨_, (List.append_assoc ..).symm⟩, ?_⟩
  -- the second merge looks up the same live copy and finds every reference already there
  rw [addOwner_run hw ho (owned_withReferences hc) ((get_withReferences hc w.store).trans hget)
    (referencesOf_withReferences hc) (isReference_mergedReferences hprevRefs hliveRefs huid) hlive
    hliveRefs, metadata_withReferences hc.obj,
    getD_set_of_ne (show "namespace" ≠ "ownerReferences" by decide),
    mergedReferences_mergedReferences hliveRefs huid, withReferences_withReferences hc.obj]

/-- A child whose live copy names one owner gains that reference and one to its own owner, and
a second merge of that owner changes nothing. -/
theorem merge_adds_live_and_owner_references :
    let live : Value := .obj [("apiVersion", .str "v1"), ("kind", .str "ConfigMap"),
      ("metadata", .obj [("name", .str "c"), ("namespace", .str "ns"),
        ("ownerReferences", .arr [.obj [("uid", .str "a")]])])]
    let w : World := ⟨⟨[(.str "ns", [(.str "ConfigMap", [(.str "v1", [(.str "c", live)])])])], 1,
      false⟩, .none, 1, Stamp.ofSeconds 0, Config.Settings.initial, some .memory⟩
    let owner : Value := .obj [("apiVersion", .str "operator.ibm.com/v1alpha1"),
      ("kind", .str "OperandRequest"),
      ("metadata", .obj [("name", .str "r"), ("namespace", .str "ns"), ("uid", .str "u1")])]
    let child : Value := .obj [("apiVersion", .str "v1"), ("kind", .str "ConfigMap"),
      ("metadata", .obj [("name", .str "c"), ("namespace", .str "ns")])]
    let merged := withReferences child (mergedReferences owner (.str "ns") [] [.obj [("uid", .str "a")]])
    (addOwner owner child).run.run w = (.ok merged, w) ∧
      [] <+: mergedReferences owner (.str "ns") [] [.obj [("uid", .str "a")]] ∧
      (addOwner owner merged).run.run w = (.ok merged, w) :=
  addOwner_merges_references ⟨rfl, rfl⟩ ⟨rfl, rfl, rfl, rfl, rfl, rfl⟩ ⟨rfl, rfl, rfl, rfl, rfl, rfl⟩
    rfl rfl rfl rfl (by decide) rfl (by decide) rfl

/-- An owner without a namespace, as a cluster-wide resource is, stops the merge before it
looks at the child. -/
theorem addOwner_rejects_unnamespaced_owner :
    let w : World := ⟨Store.empty false, .none, 0, Stamp.ofSeconds 0, Config.Settings.initial,
      some .memory⟩
    (addOwner (.obj [("apiVersion", .str "operator.ibm.com/v1alpha1"),
        ("kind", .str "OperandRequest"), ("metadata", .obj [("name", .str "r"), ("uid", .str "u1")])])
      (.obj [("apiVersion", .str "v1"), ("kind", .str "ConfigMap"),
        ("metadata", .obj [("name", .str "c"), ("namespace", .str "ns")])])).run.run w =
      (.error (Failure.assertion "Got object without 'metadata.namespace'"), w) :=
  rfl

end OperandLifecycle.Cluster

import OperandLifecycle.Proofs.Footprint
import OperandLifecycle.Proofs.RegistryStatus
import OperandLifecycle.Controllers.BindInfo
/-!
# The manager's writes within a footprint

Each call of the manager leaves the store as it was or as one call of the store leaves it,
whatever the fault plan: a create, an update or a status write (`create_keeps`,
`update_keeps`, `setStatus_keeps`), and a read changes nothing (`ReadsUnder.spec`). So a fact
about stores that every such store call keeps is kept by every run of the manager.

From these, `Event.record_within` shows that posting an event writes only Events in the
namespace of the object the event is about, and `copyResource_within` that a copy of a bound
secret or config map writes only v1 Secrets and ConfigMaps in the namespace of the request it
is copied for; neither adds a finalizer, and neither deletes an object but one that its update
finds pending.
-/

open Std.Do

namespace OperandLifecycle

/-- The state a run ends in, read off one way of running it. -/
theorem snd_of_run_eq {σ ε α : Type} {x : ExceptT ε (StateM σ) α} {s st : σ} {r : Except ε α}
    (h : x.run s = (r, st)) : st = (x.run.run s).2 := by
  simp [StateT.run, h]

namespace Cluster

open Json Store

set_option mvcgen.warning false

variable {α β : Type}

theorem ClusterM.check_eq (r : Except Failure α) :
    ClusterM.check r = match r with | .ok a => pure a | .error e => throw e := by
  cases r <;> rfl

/-! ### Each call of the manager, as a call of the store -/

section Calls

variable {Q : Store → Prop}

/-- A create keeps every fact that holds of the store and of whatever a create of its resource
leaves of it. -/
theorem create_keeps (res : Value) :
    ⦃fun w => ⌜Q w.store ∧ ∀ uid now, Q ((Call.create res uid now).after w.store)⌝⦄
    create res
    ⦃post⟨fun _ w => ⌜Q w.store⌝, fun _ w => ⌜Q w.store⌝⟩⦄ := by
  mvcgen [create, unreachable, judge, Direct.create, ClusterM.onStore, ClusterM.check_eq]
  all_goals first
    | exact ‹_ ∧ _›.1
    | (obtain rfl := snd_of_run_eq (by assumption))
      exact (‹Q _ ∧ ∀ uid now, Q ((Call.create res uid now).after _)›).2 _ _

theorem update_keeps (res : Value) :
    ⦃fun w => ⌜Q w.store ∧ Q ((Call.update res).after w.store)⌝⦄
    update res
    ⦃post⟨fun _ w => ⌜Q w.store⌝, fun _ w => ⌜Q w.store⌝⟩⦄ := by
  mvcgen [update, unreachable, judge, ClusterM.onStore, ClusterM.check_eq]
  all_goals first
    | exact ‹_ ∧ _›.1
    | (obtain rfl := snd_of_run_eq (by assumption)); exact ‹_ ∧ _›.2

theorem setStatus_keeps (kind name ns status v : Value) :
    ⦃fun w => ⌜Q w.store ∧ Q ((Call.setStatus kind name ns status v).after w.store)⌝⦄
    setStatus kind name ns status v
    ⦃post⟨fun _ w => ⌜Q w.store⌝, fun _ w => ⌜Q w.store⌝⟩⦄ := by
  mvcgen [setStatus, unreachable, judge, ClusterM.onStore, ClusterM.check_eq]
  all_goals first
    | exact ‹_ ∧ _›.1
    | (obtain rfl := snd_of_run_eq (by assumption)); exact ‹_ ∧ _›.2

/-- A program that reads under faults as a computation keeps every fact about the store, and
what it answers the computation answers on the world it ends in. -/
theorem ReadsUnder.spec {x : ClusterM α} {R : α → β → Prop} {r : World → Except Failure β}
    (h : ∀ w, ReadsUnder R x (r w) w) (hr : ∀ w p, r (w.withFaults p) = r w) :
    ⦃fun w => ⌜Q w.store⌝⦄ x
    ⦃post⟨fun a w => ⌜Q w.store ∧ ∃ b, r w = .ok b ∧ R a b⌝, fun _ w => ⌜Q w.store⌝⟩⦄ := by
  rw [triple_iff_run]
  intro w hw
  have hself : w.withFaults w.faults = w := rfl
  obtain ⟨q, hq⟩ := (h w).world w.faults
  have hans := (h w).answer w.faults
  rw [hself] at hq hans
  rcases hx : x.run.run w with ⟨e | a, w'⟩ <;> rw [hx] at hq hans <;> cases hq
  · exact hw
  · obtain ⟨b, hb, hab⟩ := hans a rfl
    exact ⟨hw, b, (hr w q).trans hb, hab⟩

/-- A program that reads under faults keeps every fact about the store. -/
theorem ReadsUnder.keeps {x : ClusterM α} {R : α → β → Prop} {r : World → Except Failure β}
    (h : ∀ w, ReadsUnder R x (r w) w) :
    ⦃fun w => ⌜Q w.store⌝⦄ x ⦃post⟨fun _ w => ⌜Q w.store⌝, fun _ w => ⌜Q w.store⌝⟩⦄ := by
  rw [triple_iff_run]
  intro w hw
  obtain ⟨q, hq⟩ := (h w).world w.faults
  have hself : w.withFaults w.faults = w := rfl
  rw [hself] at hq
  rcases hx : x.run.run w with ⟨e | a, w'⟩ <;> rw [hx] at hq <;> cases hq <;> exact hw

/-- A lookup keeps every fact about the store, and what it finds when it goes through is what
the store holds. -/
theorem getObject_keeps (k n ns v : Value) :
    ⦃fun w => ⌜Q w.store⌝⦄ getObject k n ns v
    ⦃post⟨fun p w => ⌜Q w.store ∧ (p.1 = true → w.store.get k n ns v = .ok p.2)⌝,
      fun _ w => ⌜Q w.store⌝⟩⦄ := by
  rw [triple_iff_run]
  intro w hw
  have h := (triple_iff_run _ _ _).1
    (ReadsUnder.spec (Q := Q) (fun w => readsUnder_getObject (w := w) k n ns v)
      (fun _ _ => rfl)) w hw
  rcases hx : (getObject k n ns v).run.run w with ⟨e | p, w'⟩ <;> rw [hx] at h
  · exact h
  · obtain ⟨hq, b, hb, hp⟩ := h
    cases hb
    exact ⟨hq, hp⟩

/-- Setting or erasing, one by one, members other than the kind, the version and the metadata
keeps the address an object names and its metadata. -/
theorem foldl_setOrErase {fs : List String} {g : Value → String → Value}
    (hg : ∀ u f, f ∈ fs → g u f = u.erase f ∨ ∃ x, g u f = u.set f x)
    (hfs : ∀ f ∈ fs, f ≠ "kind" ∧ f ≠ "apiVersion" ∧ f ≠ "metadata") (u : Value) :
    (∀ a, Address.read u = .ok a → Address.read (fs.foldl g u) = .ok a) ∧
      (fs.foldl g u).getD "metadata" = u.getD "metadata" := by
  induction fs generalizing u with
  | nil => exact ⟨fun _ h => h, rfl⟩
  | cons f fs ih =>
    obtain ⟨hk, hv, hm⟩ := hfs f (List.mem_cons_self ..)
    have hstep : (∀ a, Address.read u = .ok a → Address.read (g u f) = .ok a) ∧
        (g u f).getD "metadata" = u.getD "metadata" := by
      rcases hg u f (List.mem_cons_self ..) with h | ⟨x, h⟩ <;> rw [h]
      · exact ⟨fun a ha => read_erase_of_ne ha f hk hv hm, by simp [Value.getD_eq, Ne.symm hm]⟩
      · exact ⟨fun a ha => read_set_of_ne ha f x hk hv hm, by simp [Value.getD_eq, Ne.symm hm]⟩
    obtain ⟨hr, hmd⟩ := ih (fun u f' hf' => hg u f' (List.mem_cons_of_mem _ hf'))
      (fun f' hf' => hfs f' (List.mem_cons_of_mem _ hf')) (g u f)
    exact ⟨fun a ha => hr a (hstep.1 a ha), hmd.trans hstep.2⟩

/-- Giving a child a reference to its owner only reads the cluster, and changes only the
child's owner references. -/
theorem addOwner_keeps (owner child : Value) :
    ⦃fun w => ⌜Q w.store⌝⦄ addOwner owner child
    ⦃post⟨fun r w => ⌜Q w.store ∧
        ∃ refs, r = child.set "metadata" ((child.getD "metadata").set "ownerReferences" refs)⌝,
      fun _ w => ⌜Q w.store⌝⟩⦄ := by
  have hg := getObject_keeps (Q := Q)
  mvcgen [addOwner, ClusterM.check_eq, hg]
  all_goals
    try refine ⟨?_, _, rfl⟩
    first
      | exact ‹Q _›
      | exact (‹Q _ ∧ _›).1

end Calls

end Cluster

/-! ### Posting events -/

namespace Event

open Json Cluster Store

/-- Where the Events about an object are filed: in the object's namespace. -/
def FiledFor (owner : Value) (b : Address) : Prop :=
  b.kind = .str "Event" ∧ b.ns.heldEquiv ((owner.getD "metadata").getD "namespace") = true

/-- An event is an Event in the namespace of the object it is about, without finalizers. -/
theorem makeEvent_ok {owner : Value} {type : EventType} {reason message : Value} {now : Stamp}
    {event : Value} (h : makeEvent owner type reason message now = .ok event) :
    event.getD "kind" = .str "Event" ∧
      (event.getD "metadata").getD "namespace" = (owner.getD "metadata").getD "namespace" ∧
      Unfinalized event := by
  cases owner with
  | obj fs =>
    unfold makeEvent at h
    cases hn : eventName (.obj fs) type reason message <;> cases ht : digestPart 3 message <;>
      simp [Value.fieldOr, hn, ht, bind, Except.bind, pure, Except.pure] at h
    subst h
    have hnil : ∀ k, Fields.get? [] k = none := fun _ => rfl
    cases hm : Fields.get? fs "metadata" <;>
      simp [Value.getD, Value.get?, Fields.get?_cons, hm, hnil, Unfinalized]
  | _ => simp [makeEvent, Value.fieldOr, bind, Except.bind] at h

section Within

variable {F : Footprint} {s₀ s : Store} {owner : Value}
  (hfree : ∀ b, FiledFor owner b → F.free b) (hkind : F.kinds (.str "Event"))
include hfree hkind

/-- Creating an event about `owner` stays within a footprint that frees the Events of its
namespace. -/
theorem within_create_event (hw : Within F s₀ s) {type : EventType} {reason message : Value}
    {now : Stamp} {event : Value} (h : makeEvent owner type reason message now = .ok event)
    (uid : String) (t : Stamp) : Within F s₀ ((Call.create event uid t).after s) := by
  obtain ⟨hk, hns, hun⟩ := makeEvent_ok h
  exact hw.create_named hk hkind hun (fun b hb _ hbn => hfree b ⟨hb, hns ▸ hbn⟩) uid t

/-- Folding one more occurrence into the posted copy of an event stays within a footprint that
frees the Events of its namespace. -/
theorem within_bump (hw : Within F s₀ s) {event cur count : Value} {t : Stamp}
    (hns : (event.getD "metadata").getD "namespace" = (owner.getD "metadata").getD "namespace")
    (hget : s.get (.str "Event") ((event.getD "metadata").getD "name")
      ((event.getD "metadata").getD "namespace") (.str "v1") = .ok (some cur)) :
    Within F s₀ ((Call.update ((cur.set "count" count).set "lastTimestamp" (.str t.zulu))).after s) := by
  refine hw.update_found hget (fun a hr => ?_)
    ((kept_set_of_ne cur (by decide) count).trans (kept_set_of_ne _ (by decide) _))
    (fun k hk => ?_) (fun b _ _ hb => hfree b ⟨Value.heldEquiv_str_iff.1 hb.2.1, hns ▸ hb.1⟩)
  · exact read_set_of_ne (read_set_of_ne hr _ _ (by decide) (by decide) (by decide)) _ _
      (by decide) (by decide) (by decide)
  · rw [Value.heldEquiv_str_iff.1 hk]
    exact hkind

set_option mvcgen.warning false in
/-- Posting an event about `owner` writes only Events in its namespace. -/
theorem record_within (type : EventType) (reason message : Value) :
    ⦃fun w => ⌜Within F s₀ w.store⌝⦄ record owner type reason message
    ⦃post⟨fun _ w => ⌜Within F s₀ w.store⌝, fun _ w => ⌜Within F s₀ w.store⌝⟩⦄ := by
  have hc := create_keeps (Q := Within F s₀)
  have hu := update_keeps (Q := Within F s₀)
  have hg := getObject_keeps (Q := Within F s₀)
  mvcgen [record, bump, ClusterM.check_eq, ClusterM.setting, ClusterM.settings, ClusterM.now,
    hc, hu, hg]
  case vc2 =>
    exact ⟨‹_›, within_create_event hfree hkind ‹_› ‹_›⟩
  case vc4 =>
    have hget := ‹Within F s₀ _ ∧ (_ → _)›
    rw [‹(_ : Bool × Option Value).2 = some _›] at hget
    exact ⟨hget.1, within_bump hfree hkind hget.1
      (makeEvent_ok ‹makeEvent owner type reason message _ = .ok _›).2.1
      (hget.2 ‹(_ : Bool × Option Value).1 = true›)⟩
  all_goals first
    | exact ‹Within F s₀ _›
    | exact (‹Within F s₀ _ ∧ _›).1

end Within

end Event

/-! ### Copying bound secrets and config maps -/

namespace Controllers

open Json Cluster Store Resource

/-- A copy, with its owner reference added, is an object without finalizers, of its kind and
version v1, in the namespace it is copied into. -/
theorem copy_parts (kind : String) (target ns labels refs : Value) (fields : Fields) :
    let copy := Value.obj ([("apiVersion", .str "v1"), ("kind", .str kind),
      ("metadata", .obj [("name", target), ("namespace", ns), ("labels", labels)])] ++ fields)
    let res := copy.set "metadata" ((copy.getD "metadata").set "ownerReferences" refs)
    res.getD "kind" = .str kind ∧ res.getD "apiVersion" = .str "v1" ∧
      (res.getD "metadata").getD "namespace" = ns ∧ Unfinalized res := by
  have hnil : ∀ k, Fields.get? [] k = none := fun _ => rfl
  simp [Value.getD, Value.get?, Value.set, Fields.get?_cons, hnil, Unfinalized]

/-- Bringing an existing copy up to date keeps the address it names and its life. -/
theorem copy_update_parts {current curMd : Value} (hmd : current.index "metadata" = .ok curMd)
    (refs labels : Value) (kind : String) {g : Value → String → Value}
    (hg : ∀ u f, g u f = u.erase f ∨ ∃ x, g u f = u.set f x) :
    let updated := (copiedFields kind).foldl g
      (current.set "metadata" ((curMd.set "ownerReferences" refs).set "labels" labels))
    (∀ a, Address.read current = .ok a → Address.read updated = .ok a) ∧ Kept current updated := by
  intro updated
  have hcur : current.get? "metadata" = some curMd := by
    cases current with
    | obj fs =>
      simp only [Value.index] at hmd
      split at hmd
      · cases hmd
        assumption
      · cases hmd
    | _ => simp [Value.index] at hmd
  have hobj : current.isObj = true := by cases current <;> simp_all [Value.get?, Value.isObj]
  have hfs : ∀ f ∈ copiedFields kind, f ≠ "kind" ∧ f ≠ "apiVersion" ∧ f ≠ "metadata" := by
    unfold copiedFields
    split <;> decide
  obtain ⟨hread, hmeta⟩ := foldl_setOrErase (fun u f _ => hg u f) hfs
    (current.set "metadata" ((curMd.set "ownerReferences" refs).set "labels" labels))
  have hmetaOf : metadataOf current = curMd := by simp [metadataOf, hcur]
  refine ⟨fun a ha => hread a ?_, fun k hk => ?_⟩
  · have hmdobj := metadata_isObj_of_read ha
    rw [hmetaOf] at hmdobj
    exact read_set_metadata ha (by simp [hmdobj]) (by simp [hmetaOf]) (by simp [hmetaOf])
  · simp only [lifeKeys, List.mem_cons, List.not_mem_nil, or_false] at hk
    simp only [updated, hmeta, Value.getD_eq, Value.get?_set, hobj, hcur]
    rcases hk with rfl | rfl | rfl <;> simp

section Within

variable {F : Footprint} {s₀ : Store}

set_option mvcgen.warning false in
/-- Copying a source into a request's namespace writes only v1 objects of the copy's kind in
that namespace. -/
theorem copyResource_within (c : Copy) (sourceNs : Value) (request : View)
    (hfree : ∀ b : Address, b.ns.heldEquiv request.namespace = true → b.kind = .str c.kind →
      b.apiVersion = .str "v1" → F.free b)
    (hkind : F.kinds (.str c.kind)) :
    ⦃fun w => ⌜Within F s₀ w.store⌝⦄ copyResource c sourceNs request
    ⦃post⟨fun _ w => ⌜Within F s₀ w.store⌝, fun _ w => ⌜Within F s₀ w.store⌝⟩⦄ := by
  have hc := create_keeps (Q := Within F s₀)
  have hu := update_keeps (Q := Within F s₀)
  have hg := getObject_keeps (Q := Within F s₀)
  have ha := addOwner_keeps (Q := Within F s₀)
  mvcgen [copyResource, ClusterM.check_eq, hc, hu, hg, ha]
  case vc4 =>
    -- the copy is created in the request's namespace
    obtain ⟨hw, refs, rfl⟩ := ‹Within F s₀ _ ∧ ∃ refs, _›
    obtain ⟨hk, hv, hns, hun⟩ := copy_parts c.kind c.target request.namespace _ refs _
    exact ⟨hw, hw.create_named hk hkind hun fun b hb hbv hbn =>
      hfree b (hns ▸ hbn) hb (Value.heldEquiv_str_iff.1 (hv ▸ hbv))⟩
  case vc9 =>
    -- the copy found there is brought up to date in place
    obtain ⟨hw, hget⟩ := ‹Within F s₀ _ ∧ (_ → _ = _)›
    obtain ⟨hok, hfound⟩ := Option.ite_none_right_eq_some.1 ‹(if _ then _ else none) = some _›
    rw [hfound] at hget
    refine ⟨hw, (copy_update_parts ‹_› _ _ c.kind ?_).elim fun hread hkept =>
      hw.update_found (hget hok) hread hkept (fun k hk => Value.heldEquiv_str_iff.1 hk ▸ hkind)
        fun b version hfits hb => ?_⟩
    · intro u f
      split <;> simp
    · rw [versionFits_str_iff.1 hfits] at hb
      exact hfree b hb.1 (Value.heldEquiv_str_iff.1 hb.2.1) (Value.heldEquiv_str_iff.1 hb.2.2.1)
  all_goals first
    | exact ‹Within F s₀ _›
    | exact (‹Within F s₀ _ ∧ _›).1

end Within

end Controllers

end OperandLifecycle

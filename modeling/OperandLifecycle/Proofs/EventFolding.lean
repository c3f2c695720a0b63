import OperandLifecycle.Proofs.StaleUpdates
import OperandLifecycle.Proofs.WriteCalls
import OperandLifecycle.Proofs.OwnerReferences
/-!
# Folding repeated events

An event is filed under a name made from its owner and its content (`eventName`): the owner's
name, the lower-cased reason and ten hexadecimal digits of the SHA-1 digest of
`uid/type/reason/message`. Posting it again finds that name taken: the create is refused, and
the Event there is read and written back with its count one more and its last time stamp the
time of the posting.

`postAll` posts events in turn in a plain world, each at its own time. From a store without
Events, every Event then records the postings filed under its name (`Tallied.postAll`): as many
as there are, the times of the first and of the last, and the first one's message cut to 1024
characters; and there is no other Event. When postings of different content in one namespace
get different names, the postings filed together are those of one content
(`postAll_folds_repeats`).

Different content can get one name: the parts of the digested text are joined with `/`, which
they may contain themselves, so a uid and a message that trade a `/`-joined piece give the same
text, and the second posting folds into the Event of the first
(`collision_folds_distinct_postings`).
-/

namespace OperandLifecycle

open Std.Do

namespace Cluster.Store

open Json

theorem requireKey_of_hashable {v : Value} (h : v.hashable = true) : requireKey v = .ok () := by
  simp [requireKey, h]

/-! ### Creating, reading and updating at one address -/

/-- A create at an address whose parts serve as keys opens the groups on the way, and files the
stamped resource with the next version unless the name is taken. -/
theorem run_create_eq {s : Store} {res : Value} {a : Address} (hr : Address.read res = .ok a)
    (ha : a.Hashable) (uid : String) (now : Stamp) :
    (Store.create res uid now).run.run s =
      if ((((s.openAll a).shelvesAt a.ns a.kind).bind (·.lookup a.apiVersion)).getD []).holds a.name
      then (.ok false, s.openAll a)
      else (.ok true, { s.openAll a with issued := s.issued + 1 }.write a
        (stamped res uid now (toString (s.issued + 1)))) := by
  simp only [Store.create, run_run_bind, check_eq, hr, run_run_pure, requireKey_of_hashable ha.1,
    requireKey_of_hashable ha.2.1, requireKey_of_hashable ha.2.2.1,
    requireKey_of_hashable ha.2.2.2, run_run_modify, run_alterShelves, run_run_getThe]
  -- the groups the create opens, one after another, are those `openAll` opens
  have hopen : ({ s with content := (s.content.ensure a.ns []).alter a.ns (·.ensure a.kind []) }.withShelves
      a.ns a.kind (·.ensure a.apiVersion [])) = s.openAll a := rfl
  rw [hopen]
  by_cases h : ((((s.openAll a).shelvesAt a.ns a.kind).bind (·.lookup a.apiVersion)).getD []).holds
      a.name = true
  · rw [if_pos h]
    simp only [shelvesAt] at h
    simp only [h, if_true]
    rfl
  · rw [if_neg h]
    simp only [shelvesAt] at h
    simp only [h, if_false, Bool.false_eq_true]
    rfl

/-- What the lookups of an update find under the shelves of a namespace and kind is the object
at the address. -/
theorem lookup_eq_objectAt {s : Store} {a : Address} {shelves : KindShelves}
    (h : s.shelvesOf a.ns a.kind = .ok shelves) :
    ((shelves.lookup a.apiVersion).getD []).lookup a.name = s.objectAt a := by
  rw [shelvesOf_eq] at h
  simp only [bind, Except.bind] at h
  split at h
  · cases h
  · split at h
    · cases h
    · simp only [pure, Except.pure, Except.ok.injEq] at h
      subst h
      simp only [objectAt]
      cases s.shelvesAt a.ns a.kind with
      | none => rfl
      | some sh =>
        simp only [Option.getD_some, Option.bind_some]
        cases sh.lookup a.apiVersion <;> rfl

set_option mvcgen.warning false in
/-- An update the store accepts neither fails nor is turned down. -/
theorem update_accepts (s₀ : Store) {res : Value} {a : Address} {cur : Value}
    (h : s₀.Accepts res a cur) :
    ⦃fun s => ⌜s = s₀⌝⦄ Store.update res ⦃post⟨fun r _ => ⌜r.1 = true⌝, fun _ _ => ⌜False⌝⟩⦄ := by
  mvcgen [Store.update, check_eq, Store.alterShelves, Store.nextVersion, Store.removeAt,
    Store.pruneAt]
  all_goals subst_vars
  case vc1 =>
    rename_i hr' _ hsh _ _ _ _ hnone
    rw [h.1] at hr'
    cases hr'
    rw [lookup_eq_objectAt hsh, h.2.2.1] at hnone
    cases hnone
  case vc2 =>
    rename_i hr' _ hsh _ _ _ _ current hfound _ _ _ hstrict
    rw [h.1] at hr'
    cases hr'
    rw [lookup_eq_objectAt hsh, h.2.2.1] at hfound
    cases hfound
    simp only [Bool.and_eq_true, Bool.not_eq_eq_eq_not, Bool.not_true] at hstrict
    exact absurd ⟨hstrict.1.1, hstrict.1.2, hstrict.2⟩ h.2.2.2
  case vc3 =>
    rename_i hr' _ _ _ _ _ hname
    rw [h.1] at hr'
    cases hr'
    exact absurd h.2.1.2.2.2 (by simp [unhashable_of_requireKey hname])
  case vc4 =>
    rename_i hr' _ _ _ hv
    rw [h.1] at hr'
    cases hr'
    exact absurd h.2.1.2.2.1 (by simp [unhashable_of_requireKey hv])
  case vc5 =>
    rename_i hr' _ hsh
    rw [h.1] at hr'
    cases hr'
    exact unhashable_of_shelvesOf hsh ⟨h.2.1.1, h.2.1.2.1⟩
  case vc6 =>
    rename_i hr'
    rw [h.1] at hr'
    cases hr'

/-- An update accepts one object only: the one at the address its resource names. -/
theorem Accepts.unique {s : Store} {res cur cur' : Value} {a a' : Address}
    (h : s.Accepts res a cur) (h' : s.Accepts res a' cur') : a' = a ∧ cur' = cur := by
  have ha : a' = a := by
    have hr := h'.1
    rw [h.1] at hr
    cases hr
    rfl
  subst ha
  refine ⟨rfl, ?_⟩
  have hc := h'.2.2.1
  rw [h.2.2.1] at hc
  cases hc
  rfl

/-- An update the store accepts answers that it wrote, and leaves the store `afterUpdate`
describes. -/
theorem run_update_of_accepts {s : Store} {res : Value} {a : Address} {cur : Value}
    (h : s.Accepts res a cur) :
    (Store.update res).run.run s = (.ok (true, updateChanges cur res), s.afterUpdate a cur res) := by
  have hout := run_of_triple (update_outcome s res)
  have hacc := run_of_triple (update_accepts s h)
  rcases hx : (Store.update res).run.run s with ⟨e | r, s'⟩ <;> rw [hx] at hout hacc
  · exact hacc.elim
  · rcases hout with ⟨rfl, -⟩ | ⟨a', cur', h', rfl, rfl⟩
    · cases hacc
    · obtain ⟨rfl, rfl⟩ := h.unique h'
      rfl

/-- Among keyed shelves, those whose version fits a version text hold only the shelf of that
version. -/
theorem filterMap_fits {sh : KindShelves} (hk : Table.Keyed sh) {t : String} {shelf : Shelf}
    (hl : sh.lookup (.str t) = some shelf) (name : Value) :
    sh.filterMap (fun p => if versionFits (.str t) p.1 then p.2.lookup name else none) =
      (shelf.lookup name).toList := by
  induction sh with
  | nil => cases hl
  | cons p rest ih =>
    have hrest : Table.Keyed rest :=
      ⟨fun r hr => hk.hashable r (List.mem_cons_of_mem p hr), (List.pairwise_cons.1 hk.nodup).2⟩
    rw [Table.lookup_cons] at hl
    by_cases hp : p.1 = .str t
    · rw [if_pos (Value.heldEquiv_str_iff.2 hp)] at hl
      cases hl
      -- the keys after the first are unequal to it, so no later shelf fits
      have hnone : rest.filterMap
          (fun p => if versionFits (.str t) p.1 then p.2.lookup name else none) = [] := by
        refine List.filterMap_eq_nil_iff.2 fun q hq => ?_
        have hq' := (List.pairwise_cons.1 hk.nodup).1 q hq
        rw [hp] at hq'
        refine if_neg fun hfit => ?_
        rw [versionFits_str_iff] at hfit
        rw [hfit, Value.heldEquiv_str_iff.2 rfl] at hq'
        cases hq'
      rw [List.filterMap_cons, if_pos (versionFits_str_iff.2 hp), hnone]
      cases p.2.lookup name <;> rfl
    · rw [if_neg (fun h => hp (Value.heldEquiv_str_iff.1 h))] at hl
      rw [List.filterMap_cons, if_neg (fun h => hp (versionFits_str_iff.1 h))]
      exact ih hrest hl

/-- A lookup by a version text finds the object at the address of that version. -/
theorem get_of_objectAt {s : Store} (hs : s.Keyed) {ns kind name : Value} {t : String}
    {o : Value} (h : s.objectAt ⟨ns, kind, .str t, name⟩ = some o) :
    s.get kind name ns (.str t) = .ok (some o) := by
  obtain ⟨ha, -⟩ := hashable_of_objectAt hs h
  obtain ⟨shelf, hslot, hname⟩ := Option.bind_eq_some_iff.1 h
  obtain ⟨sh, hsh, hl⟩ := Option.bind_eq_some_iff.1 hslot
  have hkeyed := shelvesKeyed_of_shelvesAt hs hsh
  simp only [get, shelvesOf_eq, requireKey_of_hashable ha.1, requireKey_of_hashable ha.2.1,
    requireKey_of_hashable ha.2.2.2, hsh, Option.getD_some, filterMap_fits hkeyed.1 hl, hname,
    bind, Except.bind, pure, Except.pure]
  split <;> rfl

/-- Opening the groups on the way to an address keeps a store well formed and changes no
object. -/
theorem WF.openAll {s : Store} (hs : s.WF) {a : Address} (ha : a.Hashable) :
    (s.openAll a).WF ∧ ∀ c, (s.openAll a).objectAt c = s.objectAt c :=
  have hopen := opened_openAll hs.keyed ha.1 ha.2.1 ha.2.2.1
  ⟨hs.of_filed hopen.1.keyed fun _ _ => filed_openAll, hopen.2⟩

/-- After a write about the address `a` that only grows the store and leaves `o` at `a`, every
address equal to `a` finds `o` and every other what it found before. -/
theorem objectAt_of_grown {s s' : Store} {res o : Value} {a : Address} (hg : Grown s s' res)
    (hr : Address.read res = .ok a) (ha : a.Hashable) (hat : s'.objectAt a = some o) (c : Address) :
    s'.objectAt c = if c.Equiv a then some o else s.objectAt c := by
  split
  · rename_i hca
    rw [objectAt_congr s' (hca.hashable_left ha) hca, hat]
  · rename_i hca
    rcases hg.confined with rfl | ⟨a', hr', hconf⟩
    · rfl
    · rw [hr] at hr'
      cases hr'
      exact hconf.frame c hca

end Cluster.Store

namespace Event

open Json Cluster Store

/-! ### The event a posting files -/

/-- The address of the Event of a name in a namespace. -/
def eventAt (ns : Value) (name : String) : Address := ⟨ns, .str "Event", .str "v1", .str name⟩

theorem eventAt_equiv_iff {ns ns' : Value} {n n' : String} :
    (eventAt ns' n').Equiv (eventAt ns n) ↔ ns'.heldEquiv ns = true ∧ n' = n := by
  simp [eventAt, Address.Equiv, Value.heldEquiv_str_iff]

theorem eventAt_hashable {ns : Value} (h : ns.hashable = true) (n : String) :
    (eventAt ns n).Hashable :=
  ⟨h, rfl, rfl, rfl⟩

/-- A member of the metadata `fieldOr` reads from an object is the member `getD` reads. -/
theorem getD_of_fieldOr {v md : Value} {k : String} (h : v.fieldOr k (.obj []) = .ok md)
    (k' : String) : md.getD k' = (v.getD k).getD k' := by
  cases v with
  | obj fs =>
    simp only [Value.fieldOr, Except.ok.injEq] at h
    subst h
    show ((Fields.get? fs k).getD (.obj [])).getD k' = ((Fields.get? fs k).getD .null).getD k'
    cases Fields.get? fs k <;> rfl
  | _ => cases h

/-- A text with a dot in it is not empty. -/
theorem isEmpty_append_dot (a b : String) : (a ++ ("." ++ b)).isEmpty = false := by
  rw [Bool.eq_false_iff, ne_eq, String.isEmpty_iff]
  intro h
  have := congrArg String.length h
  simp at this

/-- The name of an event about an owner whose metadata is an object: the owner's name, cut to
leave room for the suffix, then the suffix of the lower-cased reason and the digest. -/
theorem eventName_eq {owner md : Value} (hmd : owner.fieldOr "metadata" (.obj []) = .ok md)
    (hobj : md.isObj = true) (type : EventType) (r m : String) :
    eventName owner type (.str r) (.str m) =
      let digest := (Digest.sha1Hex (Text.utf8Bytes
        ("/".intercalate [(md.getD "uid").display, type.word, r, m]))).take digestLength |>.toString
      let suffix := "." ++ Text.toLower r ++ "." ++ digest
      .ok (headUpTo (md.getD "name").display ((maxNameLength : Int) - suffix.length) ++ suffix) := by
  obtain ⟨fs, rfl⟩ : ∃ fs, md = .obj fs := by cases md <;> simp_all [Value.isObj]
  simp only [eventName, hmd, Value.field, digestPart, bind, Except.bind, pure, Except.pure]
  rfl

/-- An event as posted at `now` with the message `m`, under the name `n` in the namespace
`ns`. -/
structure Made (ev ns : Value) (n m : String) (now : Stamp) : Prop where
  read : Address.read ev = .ok (eventAt ns n)
  name : (ev.getD "metadata").getD "name" = .str n
  ns : (ev.getD "metadata").getD "namespace" = ns
  unmarked : (ev.getD "metadata").get? "deletionTimestamp" = none
  count : ev.getD "count" = .int 1
  first : ev.getD "firstTimestamp" = .str now.zulu
  last : ev.getD "lastTimestamp" = .str now.zulu
  message : ev.getD "message" = .str (m.take maxMessageLength).toString

/-- About an owner whose metadata is an object, an event with a text reason and message is
made, under its event name, in the namespace of the metadata. -/
theorem makeEvent_made {owner md : Value} (hmd : owner.fieldOr "metadata" (.obj []) = .ok md)
    (hobj : md.isObj = true) (type : EventType) (r m : String) (now : Stamp) :
    ∃ n ev, eventName owner type (.str r) (.str m) = .ok n ∧
      makeEvent owner type (.str r) (.str m) now = .ok ev ∧
      Made ev (md.getD "namespace") n m now := by
  obtain ⟨fs, rfl⟩ : ∃ fs, md = .obj fs := by cases md <;> simp_all [Value.isObj]
  obtain ⟨n, hn, hne⟩ : ∃ n, eventName owner type (.str r) (.str m) = .ok n ∧ n.isEmpty = false := by
    simp only [eventName, hmd, Value.field, digestPart, bind, Except.bind, pure, Except.pure]
    refine ⟨_, rfl, ?_⟩
    rw [String.append_assoc, String.append_assoc]
    exact isEmpty_append_dot _ _
  obtain ⟨ev, hev⟩ : ∃ ev, makeEvent owner type (.str r) (.str m) now = .ok ev := by
    simp only [makeEvent, hmd, hn, digestPart, bind, Except.bind, pure, Except.pure]
    exact ⟨_, rfl⟩
  refine ⟨n, ev, hn, hev, ?_⟩
  simp only [makeEvent, hmd, hn, digestPart, bind, Except.bind, pure, Except.pure,
    Except.ok.injEq] at hev
  subst hev
  constructor <;> simp [Address.read, Value.fieldOr, Value.field, Value.getD, Value.get?,
    Fields.get?, Value.truthy, hne, eventAt, bind, Except.bind, pure, Except.pure]

theorem nextCount_int {k : Int} (hk : k ≠ 0) : nextCount (.int k) = .ok (.int (k + 1)) := by
  simp [nextCount, Value.or, Value.truthy, hk]

/-! ### Postings -/

/-- One posting of an event: about an owner, of a type, with a reason and a message, at a
time. -/
structure Posting where
  owner : Value
  type : EventType
  reason : String
  message : String
  time : Stamp

namespace Posting

/-- What makes two postings the same: their owner, type, reason and message. -/
def content (p : Posting) : Value × EventType × String × String :=
  (p.owner, p.type, p.reason, p.message)

/-- The namespace of the owner, where the Event is filed. -/
def ns (p : Posting) : Value := (p.owner.getD "metadata").getD "namespace"

/-- The name of the Event a posting is filed under. -/
def name (p : Posting) : Except Failure String :=
  eventName p.owner p.type (.str p.reason) (.str p.message)

/-- Whether `q` is filed under the Event `p` is filed under: in the same namespace, under the
same name. -/
def shares (p q : Posting) : Bool :=
  match p.name, q.name with
  | .ok n, .ok n' => q.ns.heldEquiv p.ns && n' == n
  | _, _ => false

/-- A posting whose Event can be filed: its owner is an object whose metadata is an object, in
a namespace that serves as a key. -/
structure Postable (p : Posting) : Prop where
  metadata : ∃ md, p.owner.fieldOr "metadata" (.obj []) = .ok md ∧ md.isObj = true
  ns : p.ns.hashable = true

/-- A postable posting has a name, and makes its event at its time under that name. -/
theorem Postable.made {p : Posting} (hp : p.Postable) :
    ∃ n ev, p.name = .ok n ∧
      makeEvent p.owner p.type (.str p.reason) (.str p.message) p.time = .ok ev ∧
      Made ev p.ns n p.message p.time := by
  obtain ⟨md, hmd, hobj⟩ := hp.metadata
  obtain ⟨n, ev, hn, hev, hm⟩ := makeEvent_made hmd hobj p.type p.reason p.message p.time
  rw [getD_of_fieldOr hmd] at hm
  exact ⟨n, ev, hn, hev, hm⟩

theorem shares_iff {p q : Posting} {n m : String} (hp : p.name = .ok n) (hq : q.name = .ok m) :
    p.shares q = true ↔ (eventAt q.ns m).Equiv (eventAt p.ns n) := by
  simp [shares, hp, hq, eventAt_equiv_iff]

/-- Postings that share an Event both have names, at equal addresses. -/
theorem exists_of_shares {p q : Posting} (h : p.shares q = true) :
    ∃ n m, p.name = .ok n ∧ q.name = .ok m ∧ (eventAt q.ns m).Equiv (eventAt p.ns n) := by
  cases hp : p.name with
  | error e => simp [shares, hp] at h
  | ok n =>
    cases hq : q.name with
    | error e => simp [shares, hp, hq] at h
    | ok m => exact ⟨n, m, rfl, rfl, (shares_iff hp hq).1 h⟩

theorem shares_self {p : Posting} (hp : p.Postable) : p.shares p = true := by
  obtain ⟨n, -, hn, -⟩ := hp.made
  exact (shares_iff hn hn).2 (Address.Equiv.refl (eventAt_hashable hp.ns n))

/-- Postings filed under one Event share it with the same postings. -/
theorem shares_congr {p q : Posting} {n m : String} (hp : p.name = .ok n) (hq : q.name = .ok m)
    (hns : p.ns.hashable = true) (hqp : (eventAt q.ns m).Equiv (eventAt p.ns n)) (r : Posting) :
    q.shares r = p.shares r := by
  have ha := eventAt_hashable hns n
  have hb := hqp.hashable_left ha
  cases hr : r.name with
  | error e => simp [shares, hp, hq, hr]
  | ok k =>
    apply Bool.eq_iff_iff.2
    rw [shares_iff hq hr, shares_iff hp hr]
    exact ⟨fun h => h.trans (h.hashable_left hb) hqp,
      fun h => h.trans (h.hashable_left ha) (hqp.symm hb)⟩

end Posting

/-- Posts events in turn, each at its own time. -/
def postAll : List Posting → ClusterM Unit
  | [] => pure ()
  | p :: ps => do
    modify fun w => { w with now := p.time }
    let _ ← record p.owner p.type (.str p.reason) (.str p.message)
    postAll ps

/-! ### What an Event records -/

/-- An Event that records the postings `qs`, in the order posted: as many as there are, the
time of the first and of the last, and the first one's message cut to 1024 characters. -/
structure Records (qs : List Posting) (e : Value) : Prop where
  count : e.getD "count" = .int qs.length
  first : qs.head?.map (fun q => Value.str q.time.zulu) = some (e.getD "firstTimestamp")
  last : qs.getLast?.map (fun q => Value.str q.time.zulu) = some (e.getD "lastTimestamp")
  message : qs.head?.map (fun q => Value.str (q.message.take maxMessageLength).toString) =
    some (e.getD "message")

/-- An Event a later posting can fold into: it bears no deletion mark and its version is a
text. -/
structure Foldable (e : Value) : Prop where
  unmarked : (e.getD "metadata").get? "deletionTimestamp" = none
  version : ∃ v : String, rvOf e = .str v

theorem Records.ne_nil {qs : List Posting} {e : Value} (h : Records qs e) : qs ≠ [] := by
  rintro rfl
  have := h.first
  simp at this

theorem Foldable.not_pending {e : Value} (h : Foldable e) : ¬ Pending e := by
  intro hp
  have hd := hp.1
  rw [Value.getD_eq, h.unmarked] at hd
  cases hd

theorem getD_stamped_of_ne {res : Value} {k : String} (hk : k ≠ "metadata") (uid : String)
    (now : Stamp) (v : String) : (stamped res uid now v).getD k = res.getD k :=
  getD_set_of_ne hk

/-- A first posting files its event stamped: it records that posting alone. -/
theorem records_stamped {p : Posting} {ev ns : Value} {n : String}
    (hm : Made ev ns n p.message p.time) (uid : String) (now : Stamp) (v : String) :
    Records [p] (stamped ev uid now v) where
  count := by rw [getD_stamped_of_ne (by decide), hm.count]; rfl
  first := by rw [getD_stamped_of_ne (by decide), hm.first]; rfl
  last := by rw [getD_stamped_of_ne (by decide), hm.last]; rfl
  message := by rw [getD_stamped_of_ne (by decide), hm.message]; rfl

theorem foldable_stamped {ev ns : Value} {n m : String} {t : Stamp} (hm : Made ev ns n m t)
    (uid : String) (now : Stamp) (v : String) : Foldable (stamped ev uid now v) where
  unmarked := by
    have hu := hm.unmarked
    rw [Value.getD_eq] at hu
    simp [stamped, Value.getD_eq, isObj_of_read hm.read, metadata_isObj hm.read, hu]
  version := ⟨v, rvOf_stamped hm.read uid now v⟩

/-- An update files the members of its resource other than the metadata and the status. -/
theorem getD_updated_of_ne {cur res : Value} (v : Value) {k : String} (hm : k ≠ "metadata")
    (hs : k ≠ "status") : (updated cur res v).getD k = res.getD k := by
  unfold updated withStatusOf
  rw [getD_set_of_ne hm]
  split <;> simp [Value.getD_eq, hs]

/-- The Event with its count one more and its last time stamp moved, as the update files it. -/
theorem foldable_updated {e cur : Value} {a : Address} (hf : Foldable e)
    (hr : Address.read cur = .ok a) (hmd : cur.getD "metadata" = e.getD "metadata") {v : Value}
    (hv : ∃ t : String, v = .str t) : Foldable (updated e cur v) where
  unmarked := by
    rw [metadata_updated hr, Value.get?_set, if_neg (by simp), Value.get?_set, if_neg (by simp),
      get?_restoredMetadata hr, if_pos (by decide), hmd, hf.unmarked]
    rfl
  version := by
    obtain ⟨t, rfl⟩ := hv
    exact ⟨t, rvOf_updated hr _⟩

/-- Folding one more posting into an Event that records `qs` records `qs` and that posting. -/
theorem records_updated {qs : List Posting} {e : Value} (hrec : Records qs e) {a : Address}
    (hread : Address.read e = .ok a) (p : Posting) (v : Value) :
    Records (qs ++ [p]) (updated e ((e.set "count" (.int (qs.length + 1))).set "lastTimestamp"
      (.str p.time.zulu)) v) where
  count := by
    rw [getD_updated_of_ne v (by decide) (by decide), getD_set_of_ne (by decide)]
    simp [Value.getD_eq, isObj_of_read hread]
  first := by
    rw [getD_updated_of_ne v (by decide) (by decide), getD_set_of_ne (by decide),
      getD_set_of_ne (by decide), List.head?_append_of_ne_nil _ hrec.ne_nil]
    exact hrec.first
  last := by
    rw [getD_updated_of_ne v (by decide) (by decide)]
    simp [Value.getD_eq, isObj_of_read hread]
  message := by
    rw [getD_updated_of_ne v (by decide) (by decide), getD_set_of_ne (by decide),
      getD_set_of_ne (by decide), List.head?_append_of_ne_nil _ hrec.ne_nil]
    exact hrec.message

/-- An Event written back with its count and last time stamp changed names the address it was
read from, at the version it was read at: the store accepts it. -/
theorem accepts_bumped {s : Store} {b : Address} {e : Value} (hat : s.objectAt b = some e)
    (hb : b.Hashable) (hread : Address.read e = .ok b) (hv : ∃ v : String, rvOf e = .str v)
    (count last : Value) : s.Accepts ((e.set "count" count).set "lastTimestamp" last) b e := by
  refine ⟨read_set_of_ne (read_set_of_ne hread _ _ (by decide) (by decide) (by decide)) _ _
    (by decide) (by decide) (by decide), hb, hat, ?_⟩
  obtain ⟨v, hv⟩ := hv
  have hrv : (((e.set "count" count).set "lastTimestamp" last).getD "metadata").getD
      "resourceVersion" = .str v := by
    rw [getD_set_of_ne (by decide), getD_set_of_ne (by decide)]
    exact hv
  rintro ⟨-, -, hne⟩
  rw [hrv, hv, Value.equiv_str_iff.2 rfl] at hne
  cases hne

/-! ### One posting in a plain world -/

section Run

variable {w : World} {owner md ev : Value} {type : EventType} {r m : String} {ns : Value}
  {n : String}

/-- Posting an event, once the owner and the setting pass, is the create and, when the name is
taken, the bump, with any failure answered `false`. -/
theorem run_record (hmd : owner.fieldOr "metadata" (.obj []) = .ok md) (hobj : md.isObj = true)
    (hpost : (w.settings.get "post_events").truthy = true)
    (hev : makeEvent owner type (.str r) (.str m) w.now = .ok ev) :
    (record owner type (.str r) (.str m)).run.run w = (tryCatch (do
      let (ok, created) ← create ev
      if ok && !created then bump ev else pure (ok && created)) (fun _ => pure false)).run.run w := by
  simp only [record, run_run_bind, run_check, hmd, Value.field_eq_of_isObj hobj, run_setting,
    hpost, run_now, hev, Bool.not_true, Bool.false_eq_true, if_false]

/-- A first posting of an event files it, stamped, at its address. -/
theorem run_record_fresh (hw : w.Plain) (hwf : w.store.WF)
    (hmd : owner.fieldOr "metadata" (.obj []) = .ok md) (hobj : md.isObj = true)
    (hpost : (w.settings.get "post_events").truthy = true)
    (hev : makeEvent owner type (.str r) (.str m) w.now = .ok ev) (hm : Made ev ns n m w.now)
    (hns : ns.hashable = true) (hfree : w.store.objectAt (eventAt ns n) = none) :
    ∃ c, (record owner type (.str r) (.str m)).run.run w = (.ok true,
      { w with
        store := ({ w.store.openAll (eventAt ns n) with issued := w.store.issued + 1 }.write
          (eventAt ns n) (stamped ev (uidText (w.created + 1)) w.now (toString (w.store.issued + 1)))),
        created := c }) := by
  have ha := eventAt_hashable hns n
  -- a taken name would have found an object there
  have htaken : ¬ ((((w.store.openAll (eventAt ns n)).shelvesAt (eventAt ns n).ns
      (eventAt ns n).kind).bind (·.lookup (eventAt ns n).apiVersion)).getD []).holds
      (eventAt ns n).name = true :=
    fun h => (create_taken hwf hm.read ha.1 ha.2.1 ha.2.2.1 h).2 hfree
  obtain ⟨c, hc⟩ := run_create hw ev
  rw [run_create_eq hm.read ha, if_neg htaken] at hc
  refine ⟨c, ?_⟩
  rw [run_record hmd hobj hpost hev, run_run_tryCatch, run_run_bind, hc]
  rfl

/-- A later posting of an event finds the Event filed for it and writes it back with its count
one more and its last time stamp now. -/
theorem run_record_repeat (hw : w.Plain) (hwf : w.store.WF)
    (hmd : owner.fieldOr "metadata" (.obj []) = .ok md) (hobj : md.isObj = true)
    (hpost : (w.settings.get "post_events").truthy = true)
    (hev : makeEvent owner type (.str r) (.str m) w.now = .ok ev) (hm : Made ev ns n m w.now)
    (hns : ns.hashable = true) {b : Address} {e : Value} (hat : w.store.objectAt b = some e)
    (hb : b.Equiv (eventAt ns n)) (hread : Address.read e = .ok b) {k : Int}
    (hk : e.getD "count" = .int k) (hk0 : k ≠ 0) (hv : ∃ v : String, rvOf e = .str v) :
    ∃ c, (record owner type (.str r) (.str m)).run.run w = (.ok true,
      { w with
        store := ((w.store.openAll (eventAt ns n)).afterUpdate b e
          ((e.set "count" (.int (k + 1))).set "lastTimestamp" (.str w.now.zulu))),
        created := c }) := by
  have ha := eventAt_hashable hns n
  have hbh := hb.hashable_left ha
  have hfound : w.store.objectAt (eventAt ns n) = some e :=
    (objectAt_congr _ hbh hb).symm.trans hat
  -- a free name would have found nothing there
  have htaken : ((((w.store.openAll (eventAt ns n)).shelvesAt (eventAt ns n).ns
      (eventAt ns n).kind).bind (·.lookup (eventAt ns n).apiVersion)).getD []).holds
      (eventAt ns n).name = true := by
    by_contra h
    have hnone := ((create_fresh hwf hm.read ha (read_stamped hm.read "" w.now "") h 0).2
      (Address.Equiv.refl ha)).1
    rw [hfound] at hnone
    cases hnone
  obtain ⟨c, hc⟩ := run_create hw ev
  rw [run_create_eq hm.read ha, if_pos htaken] at hc
  obtain ⟨-, hopen⟩ := WF.openAll hwf ha
  let w₁ : World := { w with store := w.store.openAll (eventAt ns n), created := c }
  have hw₁ : w₁.Plain := ⟨hw.faults, hw.backend⟩
  have hget : w₁.store.get (.str "Event") (.str n) ns (.str "v1") = .ok (some e) :=
    get_of_objectAt (WF.openAll hwf ha).1.keyed ((hopen _).trans hfound)
  have hacc : w₁.store.Accepts ((e.set "count" (.int (k + 1))).set "lastTimestamp"
      (.str w₁.now.zulu)) b e :=
    accepts_bumped ((hopen b).trans hat) hbh hread hv _ _
  have hbump : (bump ev).run.run w₁ = (.ok true, { w₁ with
      store := (w₁.store.afterUpdate b e
        ((e.set "count" (.int (k + 1))).set "lastTimestamp" (.str w₁.now.zulu))) }) := by
    simp only [bump, hm.name, hm.ns, run_run_bind, run_getObject hw₁, hget, Except.map, hk,
      nextCount_int hk0, run_check, run_now, run_update hw₁, run_update_of_accepts hacc]
    rfl
  have hcreate : (Cluster.create ev).run.run w = (.ok (true, false), w₁) := by
    rw [hc]
    rfl
  refine ⟨c, ?_⟩
  rw [run_record hmd hobj hpost hev, run_run_tryCatch, run_run_bind, hcreate]
  simp only [Bool.not_false, Bool.and_self, if_true]
  rw [hbump]

end Run

/-! ### Postings in turn -/

/-- The store after the postings `done`: well formed; in the namespace of each posting, under
its name, an Event that records the postings filed with it and that a later posting can fold
into; and no other Event. -/
structure Tallied (done : List Posting) (s : Store) : Prop where
  wf : s.WF
  filed : ∀ p ∈ done, ∀ n, p.name = .ok n → ∃ e, s.objectAt (eventAt p.ns n) = some e ∧
    Foldable e ∧ Records (done.filter p.shares) e
  only : ∀ b o, s.objectAt b = some o → b.kind.heldEquiv (.str "Event") = true →
    ∃ p ∈ done, ∃ n, p.name = .ok n ∧ b.Equiv (eventAt p.ns n)

section Tally

variable {done : List Posting} {s : Store} {p : Posting} {n : String}

theorem Tallied.nil (hs : s.WF)
    (hnone : ∀ b o, s.objectAt b = some o → b.kind.heldEquiv (.str "Event") = false) :
    Tallied [] s where
  wf := hs
  filed _ h := by cases h
  only b o h hk := by rw [hnone b o h] at hk; cases hk

/-- A posting that leaves at its address, and only there, an Event recording the postings
filed with it keeps the store tallied. -/
theorem Tallied.of_written (ht : Tallied done s) (hp : p.name = .ok n) (hns : p.ns.hashable = true)
    {s' : Store} (hwf : s'.WF) {o : Value}
    (hat : ∀ c, s'.objectAt c = if c.Equiv (eventAt p.ns n) then some o else s.objectAt c)
    (hf : Foldable o) (hr : Records ((done ++ [p]).filter p.shares) o) :
    Tallied (done ++ [p]) s' where
  wf := hwf
  filed q hq m hm := by
    have ha := eventAt_hashable hns n
    by_cases hqa : (eventAt q.ns m).Equiv (eventAt p.ns n)
    · -- filed with `p`: the written Event, recording what `p` shares
      refine ⟨o, by rw [hat, if_pos hqa], hf, ?_⟩
      rwa [funext (Posting.shares_congr hp hm hns hqa)]
    · have hq' : q ∈ done := by
        rcases List.mem_append.1 hq with h | h
        · exact h
        · rw [List.mem_singleton] at h
          subst h
          rw [hp] at hm
          cases hm
          exact absurd (Address.Equiv.refl ha) hqa
      obtain ⟨e, he, hfe, hre⟩ := ht.filed q hq' m hm
      refine ⟨e, by rw [hat, if_neg hqa, he], hfe, ?_⟩
      have hqp : q.shares p = false := by
        rw [Bool.eq_false_iff, ne_eq, Posting.shares_iff hm hp]
        exact fun h => hqa (h.symm ha)
      rwa [List.filter_append, List.filter_singleton, hqp, cond_false, List.append_nil]
  only c o' hc hk := by
    by_cases hca : c.Equiv (eventAt p.ns n)
    · exact ⟨p, List.mem_append_right _ (List.mem_singleton_self p), n, hp, hca⟩
    · rw [hat, if_neg hca] at hc
      obtain ⟨q, hq, m, hm, hcq⟩ := ht.only c o' hc hk
      exact ⟨q, List.mem_append_left _ hq, m, hm, hcq⟩

/-- The first posting of a name files its event there, recording that posting alone. -/
theorem Tallied.fresh (ht : Tallied done s) (hp : p.Postable) (hn : p.name = .ok n) {ev : Value}
    (hm : Made ev p.ns n p.message p.time) (hfree : s.objectAt (eventAt p.ns n) = none)
    (uid : String) (t : Stamp) :
    Tallied (done ++ [p]) ({ s.openAll (eventAt p.ns n) with issued := s.issued + 1 }.write
      (eventAt p.ns n) (stamped ev uid t (toString (s.issued + 1)))) := by
  have ha := eventAt_hashable hp.ns n
  have htaken : ¬ ((((s.openAll (eventAt p.ns n)).shelvesAt (eventAt p.ns n).ns
      (eventAt p.ns n).kind).bind (·.lookup (eventAt p.ns n).apiVersion)).getD []).holds
      (eventAt p.ns n).name = true :=
    fun h => (create_taken ht.wf hm.read ha.1 ha.2.1 ha.2.2.1 h).2 hfree
  obtain ⟨hg, hat⟩ := create_fresh ht.wf hm.read ha (read_stamped hm.read uid t _) htaken
    (s.issued + 1)
  refine ht.of_written hn hp.ns hg.wf
    (objectAt_of_grown hg hm.read ha (hat (Address.Equiv.refl ha)).2)
    (foldable_stamped hm uid t _) ?_
  -- no earlier posting is filed under this name
  have hnil : done.filter p.shares = [] := by
    refine List.filter_eq_nil_iff.2 fun q hq hqs => ?_
    obtain ⟨n', m, hn', hm', hqa⟩ := Posting.exists_of_shares hqs
    rw [hn] at hn'
    cases hn'
    obtain ⟨e, he, -⟩ := ht.filed q hq m hm'
    rw [objectAt_congr s (hqa.hashable_left ha) hqa, hfree] at he
    cases he
  rw [List.filter_append, hnil, List.filter_singleton, Posting.shares_self hp, cond_true,
    List.nil_append]
  exact records_stamped hm uid t _

/-- A later posting of a name folds into the Event there, which then records it too. -/
theorem Tallied.fold (ht : Tallied done s) (hp : p.Postable) (hn : p.name = .ok n)
    {q : Posting} {m : String} (hqm : q.name = .ok m)
    (hqa : (eventAt p.ns n).Equiv (eventAt q.ns m)) {b : Address} {e : Value}
    (hat : s.objectAt b = some e) (hb : b.Equiv (eventAt p.ns n)) (hread : Address.read e = .ok b)
    (hf : Foldable e) (hrec : Records (done.filter q.shares) e) :
    Tallied (done ++ [p]) ((s.openAll (eventAt p.ns n)).afterUpdate b e
      ((e.set "count" (.int ((done.filter q.shares).length + 1))).set "lastTimestamp"
        (.str p.time.zulu))) := by
  have ha := eventAt_hashable hp.ns n
  have hbh := hb.hashable_left ha
  obtain ⟨hwf₁, hopen⟩ := WF.openAll ht.wf ha
  let cur := (e.set "count" (.int ((done.filter q.shares).length + 1))).set "lastTimestamp"
    (.str p.time.zulu)
  have hcur : Address.read cur = .ok b :=
    read_set_of_ne (read_set_of_ne hread _ _ (by decide) (by decide) (by decide)) _ _
      (by decide) (by decide) (by decide)
  let o := updated e cur ((s.openAll (eventAt p.ns n)).updateVersion e cur)
  have hfo : Foldable o := by
    refine foldable_updated hf hcur
      (by rw [getD_set_of_ne (by decide), getD_set_of_ne (by decide)]) ?_
    unfold updateVersion
    split
    · exact ⟨_, rfl⟩
    · exact hf.version
  have hat₁ : (s.openAll (eventAt p.ns n)).objectAt b = some e := (hopen b).trans hat
  have hwf : ((s.openAll (eventAt p.ns n)).afterUpdate b e cur).WF :=
    hwf₁.settle_write hbh.2.2.2 (Rewritten.read hcur ⟨_, _, rfl⟩) _
  -- the Event at `b` is rewritten; an address is equal to `b` exactly when to `p`'s
  have hobj : ∀ c, ((s.openAll (eventAt p.ns n)).afterUpdate b e cur).objectAt c =
      if c.Equiv (eventAt p.ns n) then some o else s.objectAt c := by
    intro c
    rw [afterUpdate, objectAt_settle_write hwf₁.keyed hat₁, if_neg hfo.not_pending, hopen]
    by_cases hcb : c.Equiv b
    · rw [if_pos hcb, if_pos (hcb.trans (hcb.hashable_left hbh) hb)]
    · have hca : ¬ c.Equiv (eventAt p.ns n) := fun h => hcb (h.trans (h.hashable_left ha)
        (hb.symm hbh))
      rw [if_neg hcb, if_neg hca]
  refine ht.of_written hn hp.ns hwf hobj hfo ?_
  have hqp : q.shares = p.shares :=
    funext (Posting.shares_congr hn hqm hp.ns (hqa.symm ha))
  rw [List.filter_append, List.filter_singleton, Posting.shares_self hp, cond_true, ← hqp]
  exact records_updated hrec hread p _

/-- One posting keeps the store tallied: the first posting of a name files a new Event there,
a later one folds into the Event already there. -/
theorem Tallied.post {w : World} (ht : Tallied done w.store) (hw : w.Plain)
    (hpost : (w.settings.get "post_events").truthy = true) (hp : p.Postable)
    (hnow : w.now = p.time) :
    ∃ w', (record p.owner p.type (.str p.reason) (.str p.message)).run.run w = (.ok true, w') ∧
      w'.Plain ∧ w'.settings = w.settings ∧ Tallied (done ++ [p]) w'.store := by
  obtain ⟨md, hmd, hobj⟩ := hp.metadata
  obtain ⟨n, ev, hn, hev, hm⟩ := hp.made
  rw [← hnow] at hev hm
  cases hfree : w.store.objectAt (eventAt p.ns n) with
  | none =>
    obtain ⟨c, hrun⟩ := run_record_fresh hw ht.wf hmd hobj hpost hev hm hp.ns hfree
    refine ⟨_, hrun, ⟨hw.faults, hw.backend⟩, rfl, ?_⟩
    rw [hnow] at hm
    exact ht.fresh hp hn hm hfree _ _
  | some e =>
    -- the Event there was filed for an earlier posting of the same name
    obtain ⟨q, hq, m, hqm, hqa⟩ := ht.only _ e hfree (Value.heldEquiv_str_iff.2 rfl)
    obtain ⟨e', he', hf, hrec⟩ := ht.filed q hq m hqm
    have ha := eventAt_hashable hp.ns n
    rw [← objectAt_congr w.store ha hqa, hfree] at he'
    cases he'
    obtain ⟨b, hread, hb⟩ := ht.wf.named_of_objectAt hfree
    have hbh := hb.hashable_left ha
    have hat : w.store.objectAt b = some e := (objectAt_congr w.store hbh hb).trans hfree
    have hk0 : ((done.filter q.shares).length : Int) ≠ 0 := by
      have := hrec.ne_nil
      simp_all
    obtain ⟨c, hrun⟩ := run_record_repeat hw ht.wf hmd hobj hpost hev hm hp.ns hat hb hread
      hrec.count hk0 hf.version
    refine ⟨_, hrun, ⟨hw.faults, hw.backend⟩, rfl, ?_⟩
    rw [hnow]
    exact ht.fold hp hn hqm hqa hat hb hread hf hrec

/-- Postings in turn keep the store tallied, each answered with the Event it filed. -/
theorem Tallied.postAll {w : World} (ht : Tallied done w.store) (hw : w.Plain)
    (hpost : (w.settings.get "post_events").truthy = true) {ps : List Posting}
    (hps : ∀ p ∈ ps, p.Postable) :
    ∃ w', (postAll ps).run.run w = (.ok (), w') ∧ Tallied (done ++ ps) w'.store := by
  induction ps generalizing done w with
  | nil => exact ⟨w, rfl, by rwa [List.append_nil]⟩
  | cons p ps ih =>
    -- the posting is made at its own time, in a world otherwise as it was
    let w₀ : World := { w with now := p.time }
    obtain ⟨w₁, hrun, hw₁, hset, ht₁⟩ := Tallied.post (w := w₀) ht ⟨hw.faults, hw.backend⟩ hpost
      (hps p (List.mem_cons_self ..)) rfl
    obtain ⟨w', hrest, ht'⟩ := ih ht₁ hw₁ (hset ▸ hpost)
      (fun q hq => hps q (List.mem_cons_of_mem p hq))
    refine ⟨w', ?_, by rwa [List.append_assoc, List.singleton_append] at ht'⟩
    simp only [postAll, run_run_bind, run_run_modify]
    rw [hrun]
    exact hrest

end Tally

/-! ### Events per content -/

open Classical in
/-- When postings of different content in one namespace get different names, the postings
filed under the Event of a posting are those of its content. -/
theorem filter_shares_eq_content {ps : List Posting} (hps : ∀ p ∈ ps, p.Postable)
    (hapart : ∀ p ∈ ps, ∀ q ∈ ps, q.ns.heldEquiv p.ns = true → q.name = p.name →
      q.content = p.content) {p : Posting} (hp : p ∈ ps) :
    ps.filter p.shares = ps.filter (fun q => q.content = p.content) := by
  refine List.filter_congr fun q hq => ?_
  obtain ⟨n, -, hn, -⟩ := (hps p hp).made
  obtain ⟨m, -, hm, -⟩ := (hps q hq).made
  apply Bool.eq_iff_iff.2
  rw [Posting.shares_iff hn hm, eventAt_equiv_iff, decide_eq_true_iff]
  constructor
  · rintro ⟨hns, rfl⟩
    exact hapart p hp q hq hns (hm.trans hn.symm)
  · intro hc
    -- postings of one content have one namespace and one name
    have hns : q.ns = p.ns := by
      simp only [Posting.content, Prod.mk.injEq] at hc
      simp [Posting.ns, hc.1]
    have hnm : q.name = p.name := by
      simp only [Posting.content, Prod.mk.injEq] at hc
      simp [Posting.name, hc]
    rw [hnm, hn] at hm
    cases hm
    refine ⟨?_, rfl⟩
    rw [hns]
    exact Value.heldEquiv_self (hps p hp).ns

/-- Postings about owners of one name, with one reason, whose `uid/type/reason/message` texts
agree, name one Event. -/
theorem Posting.name_eq_of_text {p q : Posting} {mp mq : Value}
    (hp : p.owner.fieldOr "metadata" (.obj []) = .ok mp)
    (hq : q.owner.fieldOr "metadata" (.obj []) = .ok mq) (hpo : mp.isObj = true)
    (hqo : mq.isObj = true) (hname : mp.getD "name" = mq.getD "name")
    (hreason : p.reason = q.reason)
    (htext : "/".intercalate [(mp.getD "uid").display, p.type.word, p.reason, p.message] =
      "/".intercalate [(mq.getD "uid").display, q.type.word, q.reason, q.message]) :
    p.name = q.name := by
  rw [Posting.name, Posting.name, eventName_eq hp hpo, eventName_eq hq hqo]
  simp only []
  rw [htext, hname, hreason]

end Event

end OperandLifecycle

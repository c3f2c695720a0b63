import OperandLifecycle.Proofs.Lifecycle
import OperandLifecycle.Proofs.Reads
/-!
# Where a run may write

A footprint (`Store.Footprint`) says where a run may write: the objects at its free addresses in
any way, the objects at its own addresses only in their status and resource version, and only
objects of its kinds. `Store.Within F s₀ s` says that `s` is what such a run may leave of
`s₀`: the store stays well formed; every object outside the footprint is as it was, and every
object at an own address is as it was but for its status (`Store.withoutStatus`); every object
is kept through its life unless it was pending; no object gains a finalizer, and an object
that is new has none (`Store.Unfinalized`); and listings of the kinds the footprint does not
name see what they saw.

`Within` is a preorder, so a run that keeps it at every call keeps it over the whole run. Each
call of the store keeps it when it writes inside the footprint: a create of an unfinalized
resource at a free address (`Store.within_create`), an update that keeps the life of the object
it replaces at a free address (`Store.within_update`), and a status write where the address
asked for is own or free (`Store.within_setStatus`).
-/

namespace OperandLifecycle.Json

/-! ### Setting a member twice, and erasing a member set -/

namespace Fields

theorem map_replace_of_contains_eq_false {fs : Fields} {k : String} (h : contains fs k = false)
    (v : Value) : fs.map (fun p => if p.1 == k then (k, v) else p) = fs := by
  induction fs with
  | nil => rfl
  | cons p fs ih =>
    simp only [contains, List.any_cons, Bool.or_eq_false_iff] at h
    simp only [List.map_cons, h.1, Bool.false_eq_true, if_false, ih h.2]

theorem erase_map_replace (fs : Fields) (k : String) (v : Value) :
    erase (fs.map (fun p => if p.1 == k then (k, v) else p)) k = erase fs k := by
  simp only [erase, List.filter_map]
  have hf : fs.filter ((fun p => p.1 != k) ∘ fun p => if p.1 == k then (k, v) else p) =
      fs.filter (fun p => p.1 != k) :=
    List.filter_congr fun p _ => by by_cases hp : p.1 = k <;> simp [hp]
  rw [hf]
  conv_rhs => rw [← List.map_id (fs.filter _)]
  refine List.map_congr_left fun p hp => ?_
  have hpk : p.1 ≠ k := by simpa using (List.mem_filter.1 hp).2
  simp [hpk]

theorem erase_insert_self (fs : Fields) (k : String) (v : Value) :
    erase (insert fs k v) k = erase fs k := by
  unfold insert
  split
  · exact erase_map_replace fs k v
  · simp [erase]

theorem insert_insert (fs : Fields) (k : String) (v v' : Value) :
    insert (insert fs k v) k v' = insert fs k v' := by
  unfold insert
  by_cases hc : contains fs k = true
  · have hc' : contains (fs.map (fun p => if p.1 == k then (k, v) else p)) k = true := by
      rw [contains_iff, get?_map_replace, if_pos rfl]
      rw [contains_iff] at hc
      simpa using hc
    rw [if_pos hc, if_pos hc', if_pos hc, List.map_map]
    refine List.map_congr_left fun p _ => ?_
    by_cases hp : p.1 = k <;> simp [hp]
  · have hc' : contains (fs ++ [(k, v)]) k = true := by simp [contains]
    rw [if_neg hc, if_pos hc', if_neg hc, List.map_append,
      map_replace_of_contains_eq_false (Bool.eq_false_iff.2 hc)]
    simp

theorem erase_insert_of_ne (fs : Fields) {k k' : String} (h : k ≠ k') (v : Value) :
    erase (insert fs k v) k' = insert (erase fs k') k v := by
  have hc : contains (erase fs k') k = contains fs k := by
    rw [contains_iff, contains_iff, get?_erase, if_neg h]
  unfold insert
  rw [hc]
  split
  · simp only [erase, List.filter_map]
    congr 1
    exact List.filter_congr fun p _ => by by_cases hp : p.1 = k <;> simp [hp]
  · simp [erase, List.filter_append, h]

end Fields

namespace Value

variable (v : Value) (k : String)

theorem erase_set_self (x : Value) : (v.set k x).erase k = v.erase k := by
  cases v <;> simp [set, erase, Fields.erase_insert_self]

theorem set_set (x y : Value) : (v.set k x).set k y = v.set k y := by
  cases v <;> simp [set, Fields.insert_insert]

theorem erase_set_of_ne {k k' : String} (h : k ≠ k') (x : Value) :
    (v.set k x).erase k' = (v.erase k').set k x := by
  cases v <;> simp [set, erase, Fields.erase_insert_of_ne _ h]

/-! ### A text equals only itself -/

theorem equiv_str_iff {x : Value} {t : String} : x.equiv (.str t) = true ↔ x = .str t := by
  cases x <;> simp [equiv, num?]

theorem heldEquiv_str_iff {x : Value} {t : String} : x.heldEquiv (.str t) = true ↔ x = .str t := by
  simp [heldEquiv, isNaN, equiv_str_iff]

end Value

end OperandLifecycle.Json

namespace OperandLifecycle.Cluster

open Json

namespace Store

/-! ### Objects but for their status -/

/-- An object without its status and its resource version: what a status write leaves as it
was. -/
def withoutStatus (o : Value) : Value :=
  (o.erase "status").set "metadata" ((o.getD "metadata").erase "resourceVersion")

theorem withoutStatus_statusWritten (cur status : Value) (rv : String) :
    withoutStatus (statusWritten cur status rv) = withoutStatus cur := by
  cases hc : cur.isObj
  · simp [statusWritten, Value.set_of_not_obj hc]
  · have hmd : ((cur.set "status" status).set "metadata"
        ((cur.getD "metadata").set "resourceVersion" (.str rv))).getD "metadata" =
        (cur.getD "metadata").set "resourceVersion" (.str rv) := by
      simp [Value.getD_eq, hc]
    rw [withoutStatus, statusWritten, hmd, Value.erase_set_self,
      Value.erase_set_of_ne _ (by decide : "metadata" ≠ "status"), Value.erase_set_self,
      Value.set_set, withoutStatus]

/-- Setting a member other than the metadata keeps an object's life. -/
theorem kept_set_of_ne (o : Value) {k : String} (hk : k ≠ "metadata") (x : Value) :
    Kept o (o.set k x) := by
  intro k' _
  simp [Value.getD_eq, Ne.symm hk]

/-- An object that carries no finalizers. -/
def Unfinalized (o : Value) : Prop := (o.getD "metadata").get? "finalizers" = none

theorem Unfinalized.of_kept {o o' : Value} (hk : Kept o o') (h : Unfinalized o) :
    Unfinalized o' :=
  (hk "finalizers" (by simp [lifeKeys])).trans h

/-- A create files a resource without finalizers without them. -/
theorem unfinalized_stamped {res : Value} (h : Unfinalized res) (uid : String) (now : Stamp)
    (version : String) : Unfinalized (stamped res uid now version) := by
  cases hr : res.isObj
  · simpa [stamped, Value.set_of_not_obj hr] using h
  · simpa [Unfinalized, stamped, Value.getD_eq, hr] using h

/-! ### What a lookup finds -/

/-- The address a resource names is made of its namespace, kind, version and name. -/
theorem parts_of_read {r : Value} {a : Address} (h : Address.read r = .ok a) :
    a.ns = (r.getD "metadata").getD "namespace" ∧ a.kind = r.getD "kind" ∧
      a.apiVersion = r.getD "apiVersion" ∧ a.name = (r.getD "metadata").getD "name" := by
  have hmd := metadata_isObj_of_read h
  rw [getD_metadata_of_read h]
  cases r with
  | obj fs =>
    simp only [metadataOf, Value.get?] at hmd ⊢
    cases hm : (Fields.get? fs "metadata").getD (.obj []) with
    | obj ms =>
      simp only [Address.read, Value.fieldOr, Value.field, hm, bind, Except.bind] at h
      split at h
      · cases h
      · cases h
        exact ⟨rfl, rfl, rfl, rfl⟩
    | _ => simp [hm, Value.isObj] at hmd
  | _ => simp [Address.read, Value.fieldOr, bind, Except.bind] at h

/-- An object of a well-formed store names an address equal to the one it is found at. -/
theorem WF.named_of_objectAt {s : Store} (hs : s.WF) {b : Address} {o : Value}
    (h : s.objectAt b = some o) : ∃ a, Address.read o = .ok a ∧ a.Equiv b := by
  obtain ⟨c, hf, hcb⟩ := exists_filed_of_objectAt h
  obtain ⟨a, hr, hn, hk, hv, hnm⟩ := hs.filedUnder c o hf
  have hc := Filed.hashable hs.keyed hf
  have hname : c.name.heldEquiv a.name = true := hnm.elim id fun e => by
    rw [← e]
    exact Value.heldEquiv_self hc.2.2.2
  have hac := Address.Equiv.symm hc ⟨hn, hk, hv, hname⟩
  exact ⟨a, hr, hac.trans (hac.hashable_left hc) hcb⟩

/-- A version asked for as a text fits only that version. -/
theorem versionFits_str_iff {t : String} {version : Value} :
    versionFits (.str t) version = true ↔ version = .str t := by
  simp [versionFits, Value.isNull, Value.equiv_str_iff]

/-- What a lookup finds is the object at the address it asks for, on a shelf whose version
fits. -/
theorem found_of_get {s : Store} (hs : s.Keyed) {kind name ns v o : Value}
    (h : s.get kind name ns v = .ok (some o)) :
    ∃ version, versionFits v version = true ∧ s.objectAt ⟨ns, kind, version, name⟩ = some o := by
  unfold get at h
  cases hsh : s.shelvesOf ns kind with
  | error e => simp [hsh] at h
  | ok shelves =>
    have hpick : o ∈ shelves.filterMap
        (fun p => if versionFits v p.1 then p.2.lookup name else none) := by
      simp only [hsh, except_ok_bind] at h
      -- only a single fitting object is answered
      generalize shelves.filterMap _ = l at h
      rcases l with _ | ⟨x, _ | ⟨y, rest⟩⟩ <;> cases hk : requireKey name <;>
        by_cases he : shelves = [] <;> simp_all [pure, Except.pure]
    obtain ⟨p, hp, hq⟩ := List.mem_filterMap.1 hpick
    have ⟨hfits, hlook⟩ : versionFits v p.1 = true ∧ p.2.lookup name = some o := by
      split at hq
      · exact ⟨‹_›, hq⟩
      · cases hq
    have hat := shelvesAt_of_shelvesOf hsh hp
    have hkeyed := shelvesKeyed_of_shelvesAt hs hat
    refine ⟨p.1, hfits, ?_⟩
    simp [objectAt, hat, Table.lookup_of_mem hkeyed.1 hp
      (Value.heldEquiv_self (hkeyed.1.hashable _ hp)), hlook]

/-! ### Footprints -/

/-- Where a run may write. -/
structure Footprint where
  /-- The addresses whose objects may change in any way. -/
  free : Address → Prop
  /-- The addresses whose objects may change only in their status and resource version. -/
  own : Address → Prop
  /-- The kinds of the objects a run may write. -/
  kinds : Value → Prop

/-- What a run that writes only within the footprint `F` may leave of the store `s₀`. -/
structure Within (F : Footprint) (s₀ s : Store) : Prop where
  wf : s.WF
  frame : ∀ b, ¬ F.free b → ¬ F.own b → s.objectAt b = s₀.objectAt b
  status : ∀ b, ¬ F.free b → (s.objectAt b).map withoutStatus = (s₀.objectAt b).map withoutStatus
  keeps : Keeps s₀ s
  finalizers : ∀ b o, s.objectAt b = some o →
    (∃ o₀, s₀.objectAt b = some o₀ ∧ Kept o₀ o) ∨ Unfinalized o
  listings : ∀ K, K.hashable = true → (∀ k, F.kinds k → K.heldEquiv k = false) →
    SameKind K s₀ s

namespace Within

variable {F : Footprint} {s₀ s s' : Store}

theorem refl (hs : s.WF) : Within F s s where
  wf := hs
  frame _ _ _ := rfl
  status _ _ := rfl
  keeps := Keeps.refl s
  finalizers _ o h := .inl ⟨o, h, Kept.refl o⟩
  listings K _ _ := SameKind.refl K s

theorem trans (h₁ : Within F s₀ s) (h₂ : Within F s s') : Within F s₀ s' where
  wf := h₂.wf
  frame b hf ho := (h₂.frame b hf ho).trans (h₁.frame b hf ho)
  status b hf := (h₂.status b hf).trans (h₁.status b hf)
  keeps := h₁.keeps.trans h₂.keeps
  finalizers b o h := by
    rcases h₂.finalizers b o h with ⟨o₁, h₁b, hk⟩ | hu
    · rcases h₁.finalizers b o₁ h₁b with ⟨o₀, h₀b, hk₀⟩ | hu₁
      · exact .inl ⟨o₀, h₀b, hk₀.trans hk⟩
      · exact .inr (hu₁.of_kept hk)
    · exact .inr hu
  listings K hK hF := (h₁.listings K hK hF).trans (h₂.listings K hK hF)

/-- Opening the groups on the way to an address of a kind the footprint names stays within
it. -/
theorem of_opened {a : Address} (h : Opened s s' a) (hwf : s'.WF) (hkind : F.kinds a.kind) :
    Within F s s' where
  wf := hwf
  frame b _ _ := h.2 b
  status b _ := by rw [h.2 b]
  keeps b o hb := .inl ⟨o, (h.2 b).trans hb, Kept.refl o⟩
  finalizers b o hb := .inl ⟨o, (h.2 b).symm.trans hb, Kept.refl o⟩
  listings K _ hF := h.1.sameKind K (hF _ hkind)

/-- A step confined to an address `a` of a kind the footprint names, all of whose equals the
footprint allows, stays within it when what it leaves at `a` is a change the footprint allows
there. -/
theorem at_address {a : Address} (hc : Confined s s' a) (hwf : s'.WF) (ha : a.Hashable)
    (hallowed : ∀ b, b.Equiv a → F.free b ∨ F.own b) (hkind : F.kinds a.kind)
    (hstatus : ∀ b, b.Equiv a → ¬ F.free b →
      (s'.objectAt a).map withoutStatus = (s.objectAt a).map withoutStatus)
    (hkeeps : ∀ cur, s.objectAt a = some cur →
      (∃ o, s'.objectAt a = some o ∧ Kept cur o) ∨ Pending cur)
    (hfin : ∀ o, s'.objectAt a = some o →
      (∃ cur, s.objectAt a = some cur ∧ Kept cur o) ∨ Unfinalized o) :
    Within F s s' := by
  -- every address equal to `a` finds what `a` finds, before and after
  have hsame : ∀ b, b.Equiv a → s.objectAt b = s.objectAt a ∧ s'.objectAt b = s'.objectAt a :=
    fun b hb => ⟨objectAt_congr s (hb.hashable_left ha) hb,
      objectAt_congr s' (hb.hashable_left ha) hb⟩
  refine ⟨hwf, fun b hf ho => hc.frame b fun hb => (hallowed b hb).elim hf ho, fun b hf => ?_,
    fun b o hb => ?_, fun b o hb => ?_, fun K _ hF => hc.sameKind K (hF _ hkind)⟩
  · by_cases hba : b.Equiv a
    · rw [(hsame b hba).1, (hsame b hba).2]
      exact hstatus b hba hf
    · rw [hc.frame b hba]
  · by_cases hba : b.Equiv a
    · rw [(hsame b hba).1] at hb
      rcases hkeeps o hb with ⟨o', h', hk⟩ | hp
      · exact .inl ⟨o', (hsame b hba).2.trans h', hk⟩
      · exact .inr hp
    · exact .inl ⟨o, (hc.frame b hba).trans hb, Kept.refl o⟩
  · by_cases hba : b.Equiv a
    · rw [(hsame b hba).2] at hb
      rcases hfin o hb with ⟨cur, h', hk⟩ | hu
      · exact .inl ⟨cur, (hsame b hba).1.trans h', hk⟩
      · exact .inr hu
    · exact .inl ⟨o, (hc.frame b hba).symm.trans hb, Kept.refl o⟩

end Within

/-! ### Each call of the store within a footprint -/

section Calls

variable {F : Footprint} {s : Store}

theorem confined_settle_write (hs : s.Keyed) {a : Address} (ha : a.Hashable) (n : Nat)
    (o : Value) : Confined s (settle ({ s with issued := n }.write a o) a o) a := by
  have h₁ := confined_of_content_eq hs (show ({ s with issued := n } : Store).content = _ from rfl) a
  have h₂ := h₁.trans (confined_write h₁.keyed ha o)
  unfold settle
  split
  · exact (h₂.trans (confined_remove h₂.keyed a)).trans
      (confined_prune (keyed_remove h₂.keyed a) a)
  · exact h₂

/-- A create stays within a footprint whose free addresses and kinds cover the address its
resource names, when the resource carries no finalizers. -/
theorem within_create (hs : s.WF) {res : Value}
    (hres : ∀ a, Address.read res = .ok a → F.kinds a.kind ∧ ∀ b, b.Equiv a → F.free b)
    (hun : Unfinalized res) (uid : String) (now : Stamp) :
    Within F s ((Call.create res uid now).after s) := by
  have hwf := wf_after_create hs res uid now
  rcases after_create (s := s) res uid now with h | ⟨a, hr, hns, h⟩
  · rw [h]
    exact Within.refl hs
  obtain ⟨hkind, hfree⟩ := hres a hr
  rcases h with ⟨h, -⟩ | ⟨h, hk, -⟩ | ⟨h, hk, hv, -⟩ | ⟨ha, hnot, h⟩ <;> rw [h] at hwf ⊢
  · exact Within.of_opened (opened_namespace hs.keyed hns) hwf hkind
  · have h₁ := opened_namespace hs.keyed hns
    exact Within.of_opened (h₁.trans (opened_kind h₁.1.keyed hk)) hwf hkind
  · exact Within.of_opened (opened_openAll hs.keyed hns hk hv) hwf hkind
  -- the stamped resource is filed at its free address, where nothing was
  have hopen := opened_openAll hs.keyed ha.1 ha.2.1 ha.2.2.1
  have h₁ := confined_of_content_eq hopen.1.keyed
    (show ({ s.openAll a with issued := s.issued + 1 } : Store).content = _ from rfl) a
  have hc := (hopen.1.trans h₁).trans (confined_write h₁.keyed ha
    (stamped res uid now (toString (s.issued + 1))))
  obtain ⟨-, hat⟩ := create_fresh hs hr ha (read_stamped hr uid now _) hnot (s.issued + 1)
  refine Within.at_address hc hwf ha (fun b hb => .inl (hfree b hb)) hkind
    (fun b hb hf => absurd (hfree b hb) hf) (fun cur hcur => ?_) (fun o ho => ?_)
  · have hnone := (hat (hashable_of_objectAt hs.keyed hcur).2).1
    rw [hnone] at hcur
    cases hcur
  · rw [(hat (hashable_of_objectAt hwf.keyed ho).2).2] at ho
    cases ho
    exact .inr (unfinalized_stamped hun uid now _)

/-- An update stays within a footprint whose free addresses and kinds cover the address its
resource names, when the resource keeps the life of the object it replaces. -/
theorem within_update (hs : s.WF) {res : Value}
    (hres : ∀ a cur, Address.read res = .ok a → s.objectAt a = some cur →
      Kept cur res ∧ F.kinds a.kind ∧ ∀ b, b.Equiv a → F.free b) :
    Within F s ((Call.update res).after s) := by
  rcases after_update (s := s) res with h | ⟨a, cur, ⟨hr, ha, hcur, -⟩, h⟩
  · rw [h]
    exact Within.refl hs
  obtain ⟨hkept, hkind, hfree⟩ := hres a cur hr hcur
  have hself := (hashable_of_objectAt hs.keyed hcur).2
  rw [h, afterUpdate]
  generalize hn : (if updateChanges cur res then s.issued + 1 else s.issued) = n
  generalize hv : s.updateVersion cur res = v
  have hrw : Rewritten cur res (updated cur res v) := ⟨_, _, rfl⟩
  have hko := hrw.kept hr hkept
  have hat := objectAt_settle_write hs.keyed hcur n (updated cur res v) a
  rw [if_pos hself] at hat
  refine Within.at_address (confined_settle_write hs.keyed ha n _)
    (hs.settle_write ha.2.2.2 (hrw.read hr) n) ha (fun b hb => .inl (hfree b hb)) hkind
    (fun b hb hf => absurd (hfree b hb) hf) (fun cur' hcur' => ?_) (fun o ho => ?_)
  · rw [hcur] at hcur'
    cases hcur'
    by_cases hp : Pending (updated cur res v)
    · exact .inr (hp.of_kept hko)
    · exact .inl ⟨_, by rw [hat, if_neg hp], hko⟩
  · by_cases hp : Pending (updated cur res v)
    · rw [hat, if_pos hp] at ho
      cases ho
    · rw [hat, if_neg hp] at ho
      cases ho
      exact .inl ⟨cur, hcur, hko⟩

/-- An update of an object a lookup found, by a resource that names the same address and keeps
the object's life, stays within a footprint whose kinds and free addresses cover what the
lookup asks for. -/
theorem Within.update_found {s₀ : Store} (hw : Within F s₀ s) {kind name ns v cur res : Value}
    (hget : s.get kind name ns v = .ok (some cur))
    (hread : ∀ a, Address.read cur = .ok a → Address.read res = .ok a) (hkept : Kept cur res)
    (hkind : ∀ k, k.heldEquiv kind = true → F.kinds k)
    (hfree : ∀ (b : Address) version, versionFits v version = true →
      b.Equiv ⟨ns, kind, version, name⟩ → F.free b) :
    Within F s₀ ((Call.update res).after s) := by
  obtain ⟨version, hfits, hat⟩ := found_of_get hw.wf.keyed hget
  obtain ⟨a₀, hr₀, hq⟩ := hw.wf.named_of_objectAt hat
  have ha₀ := hq.hashable_left (hashable_of_objectAt hw.wf.keyed hat).1
  refine hw.trans (within_update hw.wf fun a c hr hc => ?_)
  rw [hread a₀ hr₀] at hr
  cases hr
  rw [objectAt_congr s ha₀ hq, hat] at hc
  cases hc
  refine ⟨hkept, hkind _ hq.2.1, fun b hb => ?_⟩
  -- an address equal to the one the object names is equal to the one it was found at
  exact hfree b version hfits (hb.trans (hb.hashable_left ha₀) hq)

/-- A create of a resource without finalizers, of a kind the footprint names, stays within a
footprint that frees every address of that kind, equal in version and namespace to the
resource's. -/
theorem Within.create_named {s₀ : Store} (hw : Within F s₀ s) {res : Value} {kind : String}
    (hk : res.getD "kind" = .str kind) (hkind : F.kinds (.str kind)) (hun : Unfinalized res)
    (hfree : ∀ b : Address, b.kind = .str kind →
      b.apiVersion.heldEquiv (res.getD "apiVersion") = true →
      b.ns.heldEquiv ((res.getD "metadata").getD "namespace") = true → F.free b)
    (uid : String) (now : Stamp) : Within F s₀ ((Call.create res uid now).after s) := by
  refine hw.trans (within_create hw.wf (fun a hr => ?_) hun uid now)
  obtain ⟨hns, hak, hv, -⟩ := parts_of_read hr
  rw [hk] at hak
  refine ⟨hak ▸ hkind, fun b hb => hfree b ?_ ?_ ?_⟩
  · exact Value.heldEquiv_str_iff.1 (hak ▸ hb.2.1)
  · exact hv ▸ hb.2.2.1
  · exact hns ▸ hb.1

/-- A status write stays within a footprint whose own or free addresses cover every address of
the namespace, kind and name it writes, and whose kinds name the kind. -/
theorem within_setStatus (hs : s.WF) {kind name ns status v : Value}
    (hallowed : ∀ b : Address, b.ns.heldEquiv ns = true → b.kind.heldEquiv kind = true →
      b.name.heldEquiv name = true → F.free b ∨ F.own b)
    (hkind : F.kinds kind) :
    Within F s ((Call.setStatus kind name ns status v).after s) := by
  have hwf : ((Call.setStatus kind name ns status v).after s).WF :=
    state_of_triple (setStatus_spec s kind name ns status v)
      (fun _ _ h => h.elim (· ▸ hs) (·.wf hs)) fun _ _ h => h ▸ hs
  rcases after_setStatus hs.keyed kind name ns status v with h | ⟨a, cur, ha, rfl, rfl, rfl, hcur, h⟩
  · rw [h]
    exact Within.refl hs
  rw [h] at hwf ⊢
  have hself := (hashable_of_objectAt hs.keyed hcur).2
  obtain ⟨shelf, hslot, -⟩ := Option.bind_eq_some_iff.1 hcur
  have h₁ := confined_of_content_eq hs.keyed
    (show ({ s with issued := s.issued + 1 } : Store).content = _ from rfl) a
  have hat := objectAt_write h₁.keyed ha
    (statusWritten cur status (toString (s.issued + 1))) hslot a
  rw [if_pos hself] at hat
  have hk := kept_statusWritten cur status (toString (s.issued + 1))
  refine Within.at_address (h₁.trans (confined_write h₁.keyed ha _)) hwf ha
    (fun b hb => hallowed b hb.1 hb.2.1 hb.2.2.2) hkind (fun _ _ _ => ?_) (fun cur' hcur' => ?_)
    (fun o ho => ?_)
  · rw [hat, hcur, Option.map_some, Option.map_some, withoutStatus_statusWritten]
  · rw [hcur] at hcur'
    cases hcur'
    exact .inl ⟨_, hat, hk⟩
  · rw [hat] at ho
    cases ho
    exact .inl ⟨cur, hcur, hk⟩

end Calls

end Store

end OperandLifecycle.Cluster

import OperandLifecycle.Proofs.Calls
/-!
# The life of an object in the store

Every store that calls build from an empty one files each object under the address it names,
with the metadata fields the store writes (`Store.HasServerFields`), and with a resource version
of its own among those issued so far (`Store.Sound`).

One call changes what an address holds in one of four ways (`Store.Change`): not at all; to a
new object with a version issued by the call; to the same object later in its life, with its
version or one issued by the call; or to nothing, when the call is one that may remove the
object (`Store.Call.Removes`). `Store.Call.moves` says this of each call, from the outcome of
its operation; the invariant is kept by each such move (`Store.Sound.step`) and so by every run
of calls (`Store.sound_runCalls`).

`Store.runCalls_lifecycle` collects what holds of every store built by calls and of every call
on the way: objects filed where they say, with the server's fields; no empty group when every
create names keys; distinct versions, each one issued past every one before; uid, creation time
and deletion time kept through an object's life; an object removed only by a deletion when it
has no finalizers, or by an update that leaves it marked and without finalizers; and no status
changed by an update.
-/

namespace OperandLifecycle.Cluster.Store

open Json

/-! ### Objects as the store writes them -/

/-- An object carries the metadata the store writes: uid, creation time, generation and resource
version. -/
def HasServerFields (o : Value) : Prop :=
  ∀ k ∈ serverFields, ((o.getD "metadata").get? k).isSome = true

/-- `o'` is `o` later in its life at one address: the same uid and creation time, and the
deletion time of `o` when it has one. -/
structure SameLife (o o' : Value) : Prop where
  uid : (o'.getD "metadata").get? "uid" = (o.getD "metadata").get? "uid"
  creationTimestamp :
    (o'.getD "metadata").get? "creationTimestamp" = (o.getD "metadata").get? "creationTimestamp"
  deletionTimestamp : ∀ t, (o.getD "metadata").get? "deletionTimestamp" = some t →
    (o'.getD "metadata").get? "deletionTimestamp" = some t

theorem SameLife.refl (o : Value) : SameLife o o := ⟨rfl, rfl, fun _ h => h⟩

/-- An object whose version was issued after the `n`-th one and no later than the `n'`-th. -/
def Fresh (n n' : Nat) (o : Value) : Prop := ∃ m, n < m ∧ m ≤ n' ∧ rvOf o = .str (toString m)

theorem not_fresh_of_le {n n' k : Nat} {o : Value} (hk : k ≤ n)
    (hv : rvOf o = .str (toString k)) : ¬ Fresh n n' o := by
  rintro ⟨m, hm, -, hv'⟩
  rw [hv] at hv'
  simp only [Value.str.injEq, Nat.toString_eq_repr, Nat.repr_inj] at hv'
  omega

/-- Which objects a call may take out of the store: a deletion, each one without finalizers; an
update, the one whose metadata it leaves with a deletion time and without finalizers. -/
def Call.Removes : Call → Value → Prop
  | .deleteAll .., o => ((o.getD "metadata").getD "finalizers").truthy = false
  | .update res, o => ((restoredMetadata o res).getD "deletionTimestamp").truthy = true ∧
      ((restoredMetadata o res).getD "finalizers").truthy = false
  | _, _ => False

/-- Every object of a well-formed store names an address. -/
theorem WF.read_of_objectAt {s : Store} (hs : s.WF) {b : Address} {o : Value}
    (h : s.objectAt b = some o) : ∃ a, Address.read o = .ok a := by
  obtain ⟨c, hf, -⟩ := exists_filed_of_objectAt h
  obtain ⟨a, hr, -⟩ := hs.filedUnder c o hf
  exact ⟨a, hr⟩

/-- The metadata of a resource that names an address is an object. -/
theorem metadata_isObj {r : Value} {a : Address} (hr : Address.read r = .ok a) :
    ((r.get? "metadata").getD .null).isObj = true := by
  rw [← Value.getD_eq, getD_metadata_of_read hr]
  exact metadata_isObj_of_read hr

section Written

variable {res cur : Value} {a : Address}

theorem hasServerFields_stamped (hr : Address.read res = .ok a) (uid : String) (now : Stamp)
    (version : String) : HasServerFields (stamped res uid now version) := by
  intro k hk
  simp only [serverFields, List.mem_cons, List.not_mem_nil, or_false] at hk
  rcases hk with rfl | rfl | rfl | rfl <;>
    simp [stamped, Value.getD_eq, isObj_of_read hr, metadata_isObj hr]

theorem rvOf_stamped (hr : Address.read res = .ok a) (uid : String) (now : Stamp)
    (version : String) : rvOf (stamped res uid now version) = .str version := by
  simp [rvOf, stamped, Value.getD_eq, isObj_of_read hr, metadata_isObj hr]

theorem metadata_updated (hr : Address.read res = .ok a) (v : Value) :
    (updated cur res v).getD "metadata" = ((restoredMetadata cur res).set "generation"
      (nextGeneration (((cur.getD "metadata").get? "generation").getD (.int 1))
        (!(cur.getD "spec").equiv ((withStatusOf cur res).getD "spec")))).set
      "resourceVersion" v :=
  getD_metadata_rewritten hr _

/-- The metadata members an update restores are those of the object it replaces. -/
theorem get?_updated_of_restored (hr : Address.read res = .ok a) (v : Value) {k : String}
    (hk : k ∈ ["uid", "creationTimestamp", "deletionTimestamp"]) {t : Value}
    (ht : (cur.getD "metadata").get? k = some t) :
    ((updated cur res v).getD "metadata").get? k = some t := by
  have hk' : k ≠ "generation" ∧ k ≠ "resourceVersion" := by
    simp only [List.mem_cons, List.not_mem_nil, or_false] at hk
    rcases hk with rfl | rfl | rfl <;> decide
  rw [metadata_updated hr, Value.get?_set, if_neg (fun h => hk'.2 h.2), Value.get?_set,
    if_neg (fun h => hk'.1 h.2), get?_restoredMetadata hr, if_pos hk, ht, Option.some_or]

theorem hasServerFields_updated (hr : Address.read res = .ok a) (hcur : HasServerFields cur)
    (v : Value) : HasServerFields (updated cur res v) := by
  have hobj : (restoredMetadata cur res).isObj = true := isObj_restoredMetadata hr
  intro k hk
  simp only [serverFields, List.mem_cons, List.not_mem_nil, or_false] at hk
  rcases hk with rfl | rfl | rfl | rfl
  · simp [metadata_updated hr, hobj]
  · obtain ⟨t, ht⟩ := Option.isSome_iff_exists.1 (hcur "uid" (by decide))
    rw [get?_updated_of_restored hr v (by decide) ht]
    rfl
  · obtain ⟨t, ht⟩ := Option.isSome_iff_exists.1 (hcur "creationTimestamp" (by decide))
    rw [get?_updated_of_restored hr v (by decide) ht]
    rfl
  · simp [metadata_updated hr, hobj]

theorem sameLife_updated (hr : Address.read res = .ok a) (hcur : HasServerFields cur)
    (v : Value) : SameLife cur (updated cur res v) := by
  obtain ⟨u, hu⟩ := Option.isSome_iff_exists.1 (hcur "uid" (by decide))
  obtain ⟨c, hc⟩ := Option.isSome_iff_exists.1 (hcur "creationTimestamp" (by decide))
  exact ⟨(get?_updated_of_restored hr v (by decide) hu).trans hu.symm,
    (get?_updated_of_restored hr v (by decide) hc).trans hc.symm,
    fun t ht => get?_updated_of_restored hr v (by decide) ht⟩

theorem rvOf_updated (hr : Address.read res = .ok a) (v : Value) : rvOf (updated cur res v) = v := by
  simp [rvOf, metadata_updated hr, Value.getD_eq, isObj_restoredMetadata hr]

/-- An update files the status of the object it replaces. -/
theorem status_updated (hr : Address.read res = .ok a) (v : Value) :
    (updated cur res v).get? "status" = cur.get? "status" := by
  have hobj := isObj_of_read hr
  unfold updated withStatusOf
  split <;> simp_all

/-- An update removes what it files exactly when it leaves the object marked and without
finalizers. -/
theorem pending_updated_iff (hr : Address.read res = .ok a) (v : Value) :
    Pending (updated cur res v) ↔ (Call.update res).Removes cur := by
  simp [Pending, Call.Removes, metadata_updated hr, Value.getD_eq, isObj_restoredMetadata hr]

end Written

section StatusWritten

variable {cur : Value} {a : Address}

theorem metadata_statusWritten (hr : Address.read cur = .ok a) (status : Value) (rv : String) :
    (statusWritten cur status rv).getD "metadata" =
      (cur.getD "metadata").set "resourceVersion" (.str rv) := by
  simp [statusWritten, Value.getD_eq, isObj_of_read hr]

theorem get?_statusWritten (hr : Address.read cur = .ok a) (status : Value) (rv : String)
    {k : String} (hk : k ≠ "resourceVersion") :
    ((statusWritten cur status rv).getD "metadata").get? k = (cur.getD "metadata").get? k := by
  rw [metadata_statusWritten hr, Value.get?_set, if_neg (fun h => hk h.2)]

theorem hasServerFields_statusWritten (hr : Address.read cur = .ok a)
    (hcur : HasServerFields cur) (status : Value) (rv : String) :
    HasServerFields (statusWritten cur status rv) := by
  intro k hk
  by_cases hrv : k = "resourceVersion"
  · subst hrv
    simp [metadata_statusWritten hr, Value.getD_eq, metadata_isObj hr]
  · rw [get?_statusWritten hr status rv hrv]
    exact hcur k hk

theorem sameLife_statusWritten (hr : Address.read cur = .ok a) (status : Value) (rv : String) :
    SameLife cur (statusWritten cur status rv) :=
  ⟨get?_statusWritten hr status rv (by decide), get?_statusWritten hr status rv (by decide),
    fun t ht => (get?_statusWritten hr status rv (by decide)).trans ht⟩

theorem rvOf_statusWritten (hr : Address.read cur = .ok a) (status : Value) (rv : String) :
    rvOf (statusWritten cur status rv) = .str rv := by
  simp [rvOf, metadata_statusWritten hr, Value.getD_eq, metadata_isObj hr]

end StatusWritten

section Marked

variable {o o' : Value}

theorem Marked.hasServerFields (h : Marked o o') (ho : HasServerFields o) : HasServerFields o' := by
  intro k hk
  have hne : k ≠ "deletionTimestamp" := by
    simp only [serverFields, List.mem_cons, List.not_mem_nil, or_false] at hk
    rcases hk with rfl | rfl | rfl | rfl <;> decide
  rw [h k fun e => absurd e hne]
  exact ho k hk

theorem Marked.sameLife (h : Marked o o') : SameLife o o' :=
  ⟨h _ fun e => absurd e (by decide), h _ fun e => absurd e (by decide),
    fun t ht => (h _ fun _ => by rw [ht]; rfl).trans ht⟩

theorem Marked.rvOf (h : Marked o o') : rvOf o' = rvOf o := h.getD (by decide)

end Marked

/-! ### What one call changes at an address -/

/-- How one call may change what an address holds, while the store's count of versions goes from
`n` to `n'`: not at all; to a new object with a version issued in between; to the same object
later in its life, with its version or one issued in between; or to nothing, when the call may
remove the object. -/
inductive Change (n n' : Nat) (removes : Value → Prop) : Option Value → Option Value → Prop
  | same (x : Option Value) : Change n n' removes x x
  | filed {o' : Value} : HasServerFields o' → Fresh n n' o' → Change n n' removes none (some o')
  | rewritten {o o' : Value} : HasServerFields o' → SameLife o o' →
      (rvOf o' = rvOf o ∨ Fresh n n' o') → Change n n' removes (some o) (some o')
  | removed {o : Value} : removes o → Change n n' removes (some o) none

section Change

variable {n n' : Nat} {removes : Value → Prop} {x : Option Value} {o' : Value}

/-- What an address holds after a change has the version of what it held, or a fresh one. -/
theorem Change.version (h : Change n n' removes x (some o')) :
    (∃ o, x = some o ∧ rvOf o' = rvOf o) ∨ Fresh n n' o' := by
  cases h with
  | same => exact .inl ⟨o', rfl, rfl⟩
  | filed _ hf => exact .inr hf
  | rewritten _ _ hv => exact hv.imp_left fun hv => ⟨_, rfl, hv⟩

theorem Change.fields (h : Change n n' removes x (some o')) :
    x = some o' ∨ HasServerFields o' := by
  cases h with
  | same => exact .inl rfl
  | filed hf _ => exact .inr hf
  | rewritten hf _ _ => exact .inr hf

theorem Change.life {o : Value} (h : Change n n' removes (some o) (some o')) : SameLife o o' := by
  cases h with
  | same => exact SameLife.refl _
  | rewritten _ hl _ => exact hl

theorem Change.removes_of_none {o : Value} (h : Change n n' removes (some o) none) : removes o := by
  cases h with
  | removed hr => exact hr

end Change

/-- What one call does, from `s` to `s'`: the store stays well formed and as strict, no version
is taken back, every address holds what one call may leave of its object, and the versions the
call issues go to one address. -/
structure Moves (s s' : Store) (removes : Value → Prop) : Prop where
  wf : s'.WF
  strict : s'.strict = s.strict
  issued : s.issued ≤ s'.issued
  change : ∀ b, Change s.issued s'.issued removes (s.objectAt b) (s'.objectAt b)
  oneFresh : ∀ b b' o o', s'.objectAt b = some o → s'.objectAt b' = some o' →
    Fresh s.issued s'.issued o → Fresh s.issued s'.issued o' → b.Equiv b'

/-! ### The invariant -/

/-- The invariant of every store that calls build from an empty one: well formed, every object
with the server's fields and a version issued so far, and no two objects at different addresses
with one version. -/
structure Sound (s : Store) : Prop where
  wf : s.WF
  fields : ∀ b o, s.objectAt b = some o → HasServerFields o
  versioned : ∀ b o, s.objectAt b = some o →
    ∃ n, 0 < n ∧ n ≤ s.issued ∧ rvOf o = .str (toString n)
  distinct : ∀ b b' o o', s.objectAt b = some o → s.objectAt b' = some o' →
    rvOf o = rvOf o' → b.Equiv b'

theorem objectAt_empty (strict : Bool) (b : Address) : (empty strict).objectAt b = none := rfl

theorem sound_empty (strict : Bool) : (empty strict).Sound where
  wf := ⟨⟨Table.keyed_nil, by simp [empty]⟩, fun b o hf => by
    obtain ⟨_, _, _, h, -⟩ := hf
    simp [empty] at h⟩
  fields b o h := by simp [objectAt_empty] at h
  versioned b o h := by simp [objectAt_empty] at h
  distinct b _ o _ h := by simp [objectAt_empty] at h

/-- An object the store held before a call keeps a version no later than the count before it,
so it is no object the call filed. -/
theorem Sound.not_fresh {s : Store} (hs : s.Sound) {b : Address} {o : Value}
    (h : s.objectAt b = some o) (n' : Nat) : ¬ Fresh s.issued n' o := by
  obtain ⟨k, -, hk, hv⟩ := hs.versioned b o h
  exact not_fresh_of_le hk hv

/-- One move keeps the invariant. -/
theorem Sound.step {s s' : Store} {removes : Value → Prop} (hs : s.Sound)
    (h : Moves s s' removes) : s'.Sound where
  wf := h.wf
  fields b o' hb := by
    rcases (hb ▸ h.change b).fields with hb' | hf
    · exact hs.fields b o' hb'
    · exact hf
  versioned b o' hb := by
    rcases (hb ▸ h.change b).version with ⟨o, hb', hv⟩ | ⟨m, hm, hm', hv⟩
    · obtain ⟨k, hk, hk', hvk⟩ := hs.versioned b o hb'
      exact ⟨k, hk, le_trans hk' h.issued, hv.trans hvk⟩
    · exact ⟨m, by omega, hm', hv⟩
  distinct b b' o₁ o₂ h₁ h₂ heq := by
    -- an object keeps its version or gets a fresh one, which goes to one address only
    rcases (h₁ ▸ h.change b).version with ⟨o, hb, hv⟩ | hf₁ <;>
      rcases (h₂ ▸ h.change b').version with ⟨o', hb', hv'⟩ | hf₂
    · exact hs.distinct b b' o o' hb hb' (hv.symm.trans (heq.trans hv'))
    · exact absurd (show Fresh s.issued s'.issued o by
        obtain ⟨m, hm, hm', hvm⟩ := hf₂
        exact ⟨m, hm, hm', hv.symm.trans (heq.trans hvm)⟩) (hs.not_fresh hb _)
    · exact absurd (show Fresh s.issued s'.issued o' by
        obtain ⟨m, hm, hm', hvm⟩ := hf₁
        exact ⟨m, hm, hm', hv'.symm.trans (heq.symm.trans hvm)⟩) (hs.not_fresh hb' _)
    · exact h.oneFresh b b' o₁ o₂ h₁ h₂ hf₁ hf₂

/-! ### Each call moves the store -/

section Moves

variable {s s' : Store} {removes : Value → Prop}

theorem Moves.refl (hs : s.WF) : Moves s s removes :=
  ⟨hs, rfl, le_rfl, fun _ => .same _, fun _ _ _ _ _ _ ⟨_, hm, hm', _⟩ => by omega⟩

/-- A step that changes no object and issues no version moves the store. -/
theorem Moves.of_objectAt_eq (hwf : s'.WF) (hst : s'.strict = s.strict)
    (hi : s'.issued = s.issued) (h : ∀ b, s'.objectAt b = s.objectAt b) : Moves s s' removes :=
  ⟨hwf, hst, hi.ge, fun b => h b ▸ .same _, fun _ _ _ _ _ _ ⟨_, hm, hm', _⟩ => by omega⟩

/-- A step that changes only what addresses equal to `a` hold moves the store when it changes
`a` as one call may. -/
theorem Moves.at_address (hs : s.Sound) (hwf : s'.WF) (hst : s'.strict = s.strict)
    (hi : s.issued ≤ s'.issued) {a : Address} (ha : a.Hashable)
    (hframe : ∀ b, ¬ b.Equiv a → s'.objectAt b = s.objectAt b)
    (hat : Change s.issued s'.issued removes (s.objectAt a) (s'.objectAt a)) :
    Moves s s' removes := by
  -- every address equal to `a` holds what `a` holds, before and after
  have hsame : ∀ b, b.Equiv a → s.objectAt b = s.objectAt a ∧ s'.objectAt b = s'.objectAt a :=
    fun b hb => ⟨(objectAt_congr s ha (hb.symm (hb.hashable_left ha))).symm,
      (objectAt_congr s' ha (hb.symm (hb.hashable_left ha))).symm⟩
  -- a fresh object can only be at an address equal to `a`
  have hfresh : ∀ b o, s'.objectAt b = some o → Fresh s.issued s'.issued o → b.Equiv a := by
    intro b o hb hf
    by_contra hba
    rw [hframe b hba] at hb
    exact hs.not_fresh hb _ hf
  refine ⟨hwf, hst, hi, fun b => ?_, fun b b' o o' hb hb' hf hf' => ?_⟩
  · by_cases hba : b.Equiv a
    · rw [(hsame b hba).1, (hsame b hba).2]
      exact hat
    · rw [hframe b hba]
      exact .same _
  · have h₁ := hfresh b o hb hf
    have h₂ := hfresh b' o' hb' hf'
    exact h₁.trans (h₁.hashable_left ha) (h₂.symm (h₂.hashable_left ha))

end Moves

/-! ### Writing over an object and settling it -/

section Settle

variable {s : Store} {a : Address} {cur : Value}

theorem issued_settle (w : Store) (a : Address) (o : Value) : (settle w a o).issued = w.issued := by
  unfold settle
  split <;> rfl

theorem strict_settle (w : Store) (a : Address) (o : Value) : (settle w a o).strict = w.strict := by
  unfold settle
  split <;> rfl

/-- Writing over an object at its address and settling what was written: addresses equal to
`a` find the written object unless it was pending, every other address what it found. -/
theorem objectAt_settle_write (hs : s.Keyed) (hcur : s.objectAt a = some cur) (n : Nat)
    (o : Value) (b : Address) :
    (settle ({ s with issued := n }.write a o) a o).objectAt b =
      if b.Equiv a then (if Pending o then none else some o) else s.objectAt b := by
  obtain ⟨ha, -⟩ := hashable_of_objectAt hs hcur
  obtain ⟨shelf, hslot, -⟩ := Option.bind_eq_some_iff.1 hcur
  have hk : ({ s with issued := n } : Store).Keyed := hs
  have hw := objectAt_write hk ha o hslot
  unfold settle
  split
  · rw [objectAt_prune (keyed_remove (keyed_write hk ha.2.2.2 o) a),
      objectAt_remove (keyed_write hk ha.2.2.2 o), hw]
    split <;> rfl
  · rw [hw]
    split <;> rfl

theorem WF.settle_write (hs : s.WF) (hname : a.name.hashable = true) {o : Value}
    (ho : Address.read o = .ok a) (n : Nat) : (settle ({ s with issued := n }.write a o) a o).WF := by
  have h₀ : ({ s with issued := n } : Store).WF := hs.of_content_eq rfl
  have hw : ({ s with issued := n }.write a o).WF := h₀.write hname ho
  unfold settle
  split
  · exact (hw.remove a).prune _ _ _
  · exact hw

theorem Compact.settle_write (hk : s.Keyed) (hc : s.Compact) (hname : a.name.hashable = true)
    (n : Nat) (o : Value) : (settle ({ s with issued := n }.write a o) a o).Compact := by
  have hw : ({ s with issued := n }.write a o).Compact := Compact.write hc a o
  unfold settle
  split
  · exact hw.remove_prune (keyed_write hk hname o) a
  · exact hw

end Settle

/-! ### Each call moves the store -/

section Calls

variable {s : Store}

/-- A create opens groups, which changes no object, or files a new object with the next version
where nothing was. -/
theorem moves_create (hs : s.Sound) (res : Value) (uid : String) (now : Stamp) :
    Moves s ((Call.create res uid now).after s) (Call.create res uid now).Removes := by
  have hwf := wf_after_create hs.wf res uid now
  rcases after_create (s := s) res uid now with h | ⟨a, hr, hns, h⟩
  · rw [h]
    exact Moves.refl hs.wf
  rcases h with ⟨h, -⟩ | ⟨h, hkind, -⟩ | ⟨h, hkind, hv, -⟩ | ⟨ha, hfree, h⟩ <;> rw [h] at hwf ⊢
  · exact Moves.of_objectAt_eq hwf rfl rfl (objectAt_openNamespace hns)
  · exact Moves.of_objectAt_eq hwf rfl rfl
      ((opened_namespace hs.wf.keyed hns).trans (opened_kind (keyed_openNamespace hs.wf.keyed hns)
        hkind)).2
  · exact Moves.of_objectAt_eq hwf rfl rfl (opened_openAll hs.wf.keyed hns hkind hv).2
  · -- the fresh object is filed where nothing was, and no other address changes
    have hopen := opened_openAll hs.wf.keyed ha.1 ha.2.1 ha.2.2.1
    obtain ⟨-, hat⟩ := create_fresh hs.wf hr ha (read_stamped hr uid now _) hfree (s.issued + 1)
    obtain ⟨hnone, hsome⟩ := hat (Address.Equiv.refl ha)
    refine Moves.at_address hs hwf rfl (Nat.le_succ _) ha (fun b hb => ?_) ?_
    · rw [objectAt_write_frame (s := { s.openAll a with issued := s.issued + 1 }) hopen.1.keyed ha
        _ hb]
      exact hopen.2 b
    · rw [hnone, hsome]
      exact .filed (hasServerFields_stamped hr uid now _)
        ⟨s.issued + 1, Nat.lt_succ_self _, le_rfl, rvOf_stamped hr uid now _⟩

/-- An accepted update files the updated object at its address, with the version it had or the
next one, or removes it as pending. -/
theorem moves_update (hs : s.Sound) (res : Value) :
    Moves s ((Call.update res).after s) (Call.update res).Removes := by
  rcases after_update (s := s) res with h | ⟨a, cur, ⟨hr, ha, hcur, -⟩, h⟩
  · rw [h]
    exact Moves.refl hs.wf
  rw [h, afterUpdate]
  have hfields := hs.fields a cur hcur
  have hat := objectAt_settle_write hs.wf.keyed hcur
    (if updateChanges cur res then s.issued + 1 else s.issued)
    (updated cur res (s.updateVersion cur res))
  refine Moves.at_address hs (hs.wf.settle_write ha.2.2.2 (Rewritten.read hr ⟨_, _, rfl⟩) _)
    (strict_settle _ _ _) ?_ ha (fun b hb => by rw [hat, if_neg hb]) ?_
  · rw [issued_settle]
    show s.issued ≤ if updateChanges cur res then s.issued + 1 else s.issued
    split <;> omega
  rw [hcur, hat, if_pos (Address.Equiv.refl ha)]
  by_cases hp : Pending (updated cur res (s.updateVersion cur res))
  · rw [if_pos hp]
    exact .removed ((pending_updated_iff hr _).1 hp)
  rw [if_neg hp]
  refine .rewritten (hasServerFields_updated hr hfields _) (sameLife_updated hr hfields _) ?_
  rw [rvOf_updated hr, issued_settle]
  show _ ∨ Fresh s.issued (if updateChanges cur res then s.issued + 1 else s.issued) _
  unfold updateVersion
  split
  · exact .inr ⟨s.issued + 1, Nat.lt_succ_self _, le_rfl, rvOf_updated hr _⟩
  · exact .inl rfl

/-- A status write gives the object it finds the next version. -/
theorem moves_setStatus (hs : s.Sound) (kind name ns status v : Value) :
    Moves s ((Call.setStatus kind name ns status v).after s)
      (Call.setStatus kind name ns status v).Removes := by
  rcases after_setStatus hs.wf.keyed kind name ns status v with h | ⟨a, cur, ha, -, -, -, hcur, h⟩
  · rw [h]
    exact Moves.refl hs.wf
  rw [h]
  obtain ⟨a₀, hr₀⟩ := hs.wf.read_of_objectAt hcur
  obtain ⟨shelf, hslot, -⟩ := Option.bind_eq_some_iff.1 hcur
  have hk : ({ s with issued := s.issued + 1 } : Store).Keyed := hs.wf.keyed
  have hat := objectAt_write hk ha (statusWritten cur status (toString (s.issued + 1))) hslot
  have h₀ : ({ s with issued := s.issued + 1 } : Store).WF := hs.wf.of_content_eq rfl
  have hwf : ({ s with issued := s.issued + 1 }.write a
      (statusWritten cur status (toString (s.issued + 1)))).WF :=
    h₀.write_same ha (Address.Equiv.refl ha).2.2.2 fun _ =>
      ⟨cur, hcur, fun _ hr => read_statusWritten hr status _⟩
  refine Moves.at_address hs hwf rfl (Nat.le_succ _) ha (fun b hb => by rw [hat, if_neg hb]; rfl) ?_
  rw [hcur, hat, if_pos (Address.Equiv.refl ha)]
  exact .rewritten (hasServerFields_statusWritten hr₀ (hs.fields a cur hcur) status _)
    (sameLife_statusWritten hr₀ status _)
    (.inr ⟨s.issued + 1, Nat.lt_succ_self _, le_rfl, rvOf_statusWritten hr₀ status _⟩)

/-- What deleting leaves at an address is a change a deletion may make. -/
theorem Change.of_deletes {n n' : Nat} {x y : Option Value} (hd : Deletes x y)
    (hx : ∀ o, x = some o → HasServerFields o) :
    Change n n' (fun o => ((o.getD "metadata").getD "finalizers").truthy = false) x y := by
  cases hd with
  | kept => exact .same _
  | marked _ hm => exact .rewritten (hm.hasServerFields (hx _ rfl)) hm.sameLife (.inl hm.rvOf)
  | removed hfin => exact .removed hfin

/-- A deletion marks or removes objects and issues no version. -/
theorem moves_deleteAll (hs : s.Sound) (kind ns v l f : Value) (now : Stamp) :
    Moves s ((Call.deleteAll kind ns v l f now).after s)
      (Call.deleteAll kind ns v l f now).Removes := by
  have h := after_deleteAll hs.wf kind ns v l f now
  refine ⟨h.wf, h.strict, h.issued.ge, fun b => Change.of_deletes (h.deletes b) fun o ho =>
    hs.fields b o ho, fun _ _ _ _ _ _ ⟨_, hm, hm', _⟩ => ?_⟩
  rw [h.issued] at hm'
  omega

/-- Every call moves a sound store. -/
theorem Call.moves (hs : s.Sound) : ∀ c : Call, Moves s (c.after s) c.Removes
  | .create res uid now => moves_create hs res uid now
  | .update res => moves_update hs res
  | .deleteAll kind ns v l f now => moves_deleteAll hs kind ns v l f now
  | .setStatus kind name ns status v => moves_setStatus hs kind name ns status v

theorem Sound.after (hs : s.Sound) (c : Call) : (c.after s).Sound := hs.step (c.moves hs)

/-- Calls keep a store sound; so every store calls build from an empty one is. -/
theorem sound_runCalls (hs : s.Sound) (cs : List Call) : (s.runCalls cs).Sound := by
  induction cs generalizing s with
  | nil => exact hs
  | cons c cs ih => exact ih (hs.after c)

end Calls

/-! ### No empty group -/

/-- A call names keys when, being a create whose namespace can serve as a key, it names a kind,
version and name that can too. -/
def Call.NamesKeys : Call → Prop
  | .create res _ _ => ∀ a, Address.read res = .ok a → a.ns.hashable = true → a.Hashable
  | _ => True

section Compact

variable {s : Store}

/-- A create that names keys opens no group it does not fill, so it leaves no group empty. -/
theorem compact_after_create (hs : s.WF) (hc : s.Compact) {res : Value} (uid : String)
    (now : Stamp) (hk : (Call.create res uid now).NamesKeys) :
    ((Call.create res uid now).after s).Compact := by
  rcases after_create (s := s) res uid now with h | ⟨a, hr, hns, h⟩
  · rw [h]
    exact hc
  have ha := hk a hr hns
  rcases h with ⟨-, hkind⟩ | ⟨-, -, hv⟩ | ⟨h, hkind, hv, hname | htaken⟩ | ⟨-, -, h⟩
  · simp [ha.2.1] at hkind
  · simp [ha.2.2.1] at hv
  · simp [ha.2.2.2] at hname
  · -- a taken name was found on a shelf, so every group on the way was there already
    obtain ⟨o, ho⟩ := Option.ne_none_iff_exists'.1 (create_taken hs hr hns hkind hv htaken).2
    rw [h, openAll_of_objectAt hs.keyed ho]
    exact hc
  · rw [h]
    exact hc.openAll_write ha _ _

theorem compact_after (hs : s.Sound) (hc : s.Compact) :
    ∀ c : Call, c.NamesKeys → (c.after s).Compact
  | .create res uid now, hk => compact_after_create hs.wf hc uid now hk
  | .update res, _ => by
    rcases after_update (s := s) res with h | ⟨a, cur, ⟨-, ha, -, -⟩, h⟩
    · rw [h]
      exact hc
    · rw [h, afterUpdate]
      exact hc.settle_write hs.wf.keyed ha.2.2.2 _ _
  | .setStatus kind name ns status v, _ => by
    rcases after_setStatus hs.wf.keyed kind name ns status v with h | ⟨a, _, -, -, -, -, -, h⟩
    · rw [h]
      exact hc
    · rw [h]
      exact Compact.write (s := { s with issued := s.issued + 1 }) hc a _
  | .deleteAll kind ns v l f now, _ => (after_deleteAll hs.wf kind ns v l f now).compact hc

theorem compact_runCalls (hs : s.Sound) (hc : s.Compact) (cs : List Call)
    (hk : ∀ c ∈ cs, c.NamesKeys) : (s.runCalls cs).Compact := by
  induction cs generalizing s with
  | nil => exact hc
  | cons c cs ih =>
    exact ih (hs.after c) (compact_after hs hc c (hk c List.mem_cons_self))
      fun c' hc' => hk c' (List.mem_cons_of_mem c hc')

end Compact

/-! ### The laws of a run of calls -/

/-- The laws a call obeys from a store. -/
structure Call.Laws (c : Call) (s : Store) : Prop where
  /-- No version is taken back. -/
  issued : s.issued ≤ (c.after s).issued
  /-- Every object keeps the version its address had, or has one issued past every version
  before. -/
  versions : ∀ b o', (c.after s).objectAt b = some o' →
    (∃ o, s.objectAt b = some o ∧ rvOf o' = rvOf o) ∨
      ∃ m, s.issued < m ∧ rvOf o' = .str (toString m)
  /-- An object that stays at its address keeps its uid, creation time and deletion time. -/
  life : ∀ b o o', s.objectAt b = some o → (c.after s).objectAt b = some o' → SameLife o o'
  /-- An object leaves only when the call may remove it. -/
  removal : ∀ b o, s.objectAt b = some o → (c.after s).objectAt b = none → c.Removes o
  /-- An update changes no status. -/
  status : ∀ res, c = .update res → ∀ b o o', s.objectAt b = some o →
    (c.after s).objectAt b = some o' → o'.get? "status" = o.get? "status"

section Laws

variable {s : Store}

/-- An update files at each address the status found there. -/
theorem status_after_update (hs : s.WF) (res : Value) {b : Address} {o o' : Value}
    (h : s.objectAt b = some o) (h' : ((Call.update res).after s).objectAt b = some o') :
    o'.get? "status" = o.get? "status" := by
  rcases after_update (s := s) res with he | ⟨a, cur, ⟨hr, ha, hcur, -⟩, he⟩
  · rw [he, h] at h'
    cases h'
    rfl
  rw [he, afterUpdate, objectAt_settle_write hs.keyed hcur] at h'
  by_cases hba : b.Equiv a
  · rw [if_pos hba] at h'
    split at h'
    · cases h'
    · cases h'
      rw [objectAt_congr s (hba.hashable_left ha) hba, hcur] at h
      cases h
      exact status_updated hr _
  · rw [if_neg hba, h] at h'
    cases h'
    rfl

theorem Call.laws (hs : s.Sound) (c : Call) : c.Laws s := by
  have h := c.moves hs
  refine ⟨h.issued, fun b o' hb => ?_, fun b o o' hb hb' => ?_, fun b o hb hb' => ?_, ?_⟩
  · rcases (hb ▸ h.change b).version with hv | ⟨m, hm, -, hv⟩
    · exact .inl hv
    · exact .inr ⟨m, hm, hv⟩
  · have hc := h.change b
    rw [hb, hb'] at hc
    exact hc.life
  · have hc := h.change b
    rw [hb, hb'] at hc
    exact hc.removes_of_none
  · rintro res rfl b o o' hb hb'
    exact status_after_update hs.wf res hb hb'

end Laws

/-- The laws of every store that calls build from an empty one: every object is filed under the
address it names and carries the server's fields; no group is empty when every create names
keys; no two objects share a version, and every version is one issued so far; and every call on
the way obeys the laws of one call. -/
theorem runCalls_lifecycle (strict : Bool) (cs : List Call) :
    let s := (empty strict).runCalls cs
    (∀ b o, s.Filed b o → FiledUnder o b ∧ HasServerFields o) ∧
    ((∀ c ∈ cs, c.NamesKeys) → s.Compact) ∧
    (∀ b b' o o', s.objectAt b = some o → s.objectAt b' = some o' → rvOf o = rvOf o' →
      b.Equiv b') ∧
    (∀ b o, s.objectAt b = some o → ∃ n, 0 < n ∧ n ≤ s.issued ∧ rvOf o = .str (toString n)) ∧
    ∀ pre c post, cs = pre ++ c :: post → c.Laws ((empty strict).runCalls pre) := by
  intro s
  have hs : s.Sound := sound_runCalls (sound_empty strict) cs
  refine ⟨fun b o hf => ⟨hs.wf.filedUnder b o hf, hs.fields b o ?_⟩,
    compact_runCalls (sound_empty strict) (compact_empty strict) cs, hs.distinct, hs.versioned,
    fun pre c _ _ => Call.laws (sound_runCalls (sound_empty strict) pre) c⟩
  exact objectAt_of_filed hs.wf.keyed hf (Address.Equiv.refl (Filed.hashable hs.wf.keyed hf))

/-- A create whose name cannot serve as a key stops after opening the groups on its way, and
leaves them empty. -/
theorem create_of_unkeyed_name_leaves_empty_group :
    ¬ ((empty false).runCalls [.create (.obj [("kind", .str "K"),
      ("metadata", .obj [("name", .arr [.str "x"])])]) "1" (Stamp.ofSeconds 0)]).Compact := by
  intro h
  have hc : ((empty false).runCalls [.create (.obj [("kind", .str "K"),
      ("metadata", .obj [("name", .arr [.str "x"])])]) "1" (Stamp.ofSeconds 0)]).content =
      [(.null, [(.str "K", [(.null, [])])])] := rfl
  unfold Compact at h
  rw [hc] at h
  exact ((h _ List.mem_cons_self).2 _ List.mem_cons_self).2 _ List.mem_cons_self rfl

end OperandLifecycle.Cluster.Store

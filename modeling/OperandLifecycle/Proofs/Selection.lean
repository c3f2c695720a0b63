import OperandLifecycle.Proofs.Footprint
/-!
# What a deletion by selectors reaches

A deletion asks the store for the objects of a kind that a label and a field selector select,
and deletes each object listed where it is filed. A listing finds exactly the objects filed
under the kind, in the namespace asked for (in every namespace for `null`), on a shelf whose
version fits, that pass both selectors: `Store.mem_list` says where a listed object is, and
`Store.mem_list_of_filed` that every such object is listed. Deleting the listed objects marks
or removes them and leaves every other address as it was (`Store.deleteListed_spares`).
-/

set_option mvcgen.warning false

namespace OperandLifecycle.Cluster

open Json Std.Do

namespace Store

/-! ### Filters and maps that may fail -/

section Monadic

variable {α β ε : Type}

theorem mem_filterAuxM {p : α → Except ε Bool} :
    ∀ {l acc res : List α}, List.filterAuxM p l acc = .ok res →
      ∀ x, x ∈ res ↔ x ∈ acc ∨ (x ∈ l ∧ p x = .ok true)
  | [], acc, res, h, x => by
    simp only [List.filterAuxM, except_pure, Except.ok.injEq] at h
    subst h
    simp
  | y :: l, acc, res, h, x => by
    simp only [List.filterAuxM] at h
    cases hy : p y with
    | error e => simp [hy] at h
    | ok b =>
      simp only [hy, except_ok_bind] at h
      rw [mem_filterAuxM h x]
      cases b with
      | true =>
        simp only [cond_true, List.mem_cons]
        constructor
        · rintro ((rfl | hx) | hx)
          · exact .inr ⟨.inl rfl, hy⟩
          · exact .inl hx
          · exact .inr ⟨.inr hx.1, hx.2⟩
        · rintro (hx | ⟨rfl | hx, hp⟩)
          · exact .inl (.inr hx)
          · exact .inl (.inl rfl)
          · exact .inr ⟨hx, hp⟩
      | false =>
        simp only [cond_false, List.mem_cons]
        constructor
        · rintro (hx | hx)
          · exact .inl hx
          · exact .inr ⟨.inr hx.1, hx.2⟩
        · rintro (hx | ⟨rfl | hx, hp⟩)
          · exact .inl hx
          · rw [hy] at hp
            cases hp
          · exact .inr ⟨hx, hp⟩

/-- What a filter that answers keeps: the items that pass it. -/
theorem mem_filterM {p : α → Except ε Bool} {l res : List α} (h : l.filterM p = .ok res)
    (x : α) : x ∈ res ↔ x ∈ l ∧ p x = .ok true := by
  unfold List.filterM at h
  cases hf : List.filterAuxM p l [] with
  | error e => simp [hf] at h
  | ok acc =>
    simp only [hf, except_ok_bind, except_pure, Except.ok.injEq] at h
    subst h
    rw [List.mem_reverse, mem_filterAuxM hf x]
    simp

/-- Every result of a map that answers comes from an item. -/
theorem exists_of_mem_mapM {f : α → Except ε β} :
    ∀ {xs : List α} {ys : List β}, xs.mapM f = .ok ys → ∀ y ∈ ys, ∃ x ∈ xs, f x = .ok y
  | [], ys, h, y, hy => by
    simp only [List.mapM_nil, except_pure, Except.ok.injEq] at h
    subst h
    cases hy
  | x :: xs, ys, h, y, hy => by
    rw [List.mapM_cons] at h
    cases hx : f x with
    | error e => simp [hx] at h
    | ok z =>
      cases hxs : xs.mapM f with
      | error e => simp [hx, hxs] at h
      | ok zs =>
        simp only [hx, hxs, except_ok_bind, except_pure, Except.ok.injEq] at h
        subst h
        rcases List.mem_cons.1 hy with rfl | hy
        · exact ⟨x, List.mem_cons_self .., hx⟩
        · obtain ⟨x', hx', hfx'⟩ := exists_of_mem_mapM hxs y hy
          exact ⟨x', List.mem_cons_of_mem _ hx', hfx'⟩

/-- Every item of a map that answers has its result among the results. -/
theorem exists_mem_of_mapM {f : α → Except ε β} :
    ∀ {xs : List α} {ys : List β}, xs.mapM f = .ok ys → ∀ x ∈ xs, ∃ y ∈ ys, f x = .ok y
  | [], _, _, x, hx => by cases hx
  | x :: xs, ys, h, x', hx' => by
    rw [List.mapM_cons] at h
    cases hx : f x with
    | error e => simp [hx] at h
    | ok z =>
      cases hxs : xs.mapM f with
      | error e => simp [hx, hxs] at h
      | ok zs =>
        simp only [hx, hxs, except_ok_bind, except_pure, Except.ok.injEq] at h
        subst h
        rcases List.mem_cons.1 hx' with rfl | hx'
        · exact ⟨z, List.mem_cons_self .., hx⟩
        · obtain ⟨y, hy, hfy⟩ := exists_mem_of_mapM hxs x' hx'
          exact ⟨y, List.mem_cons_of_mem _ hy, hfy⟩

end Monadic

/-! ### What a listing finds -/

/-- A version asked for fits versions equal as keys alike. -/
theorem versionFits_congr (v : Value) {x y : Value} (hx : x.hashable = true)
    (h : x.heldEquiv y = true) : versionFits v x = versionFits v y := by
  unfold versionFits
  rcases Value.heldEquiv_iff.1 h with ⟨hnx, hny⟩ | he
  · rw [Value.equiv_eq_false_of_isNaN_left hnx, Value.equiv_eq_false_of_isNaN_left hny]
  · rw [Value.equiv_congr_left v hx he]

/-- The objects filed under a kind in one namespace, on the shelves whose version fits. -/
def chunkAt (s : Store) (kind v n : Value) : Except Failure (List Value) := do
  let shelves ← s.shelvesOf n kind
  pure ((shelves.filter (fun p => versionFits v p.1)).flatMap (fun p => p.2.entries))

/-- The objects a listing gathers before it filters them by the selectors. -/
def gathered (s : Store) (kind ns v : Value) : Except Failure (List Value) := do
  let found ← (if ns.isNull then s.content.keys else [ns]).mapM (s.chunkAt kind v)
  pure found.flatten

theorem list_eq_gathered (s : Store) (kind ns v l f : Value) :
    s.list kind ns v l f = (s.gathered kind ns v >>= (·.filterM (selects l f))) := by
  simp only [list, gathered, bind_assoc, pure_bind]
  rfl

/-- Where a listing finds an object: filed under the kind, in the namespace asked for, on a
shelf whose version fits; and the object passes both selectors. -/
theorem mem_list {s : Store} {kind ns v l f : Value} {listed : List Value}
    (h : s.list kind ns v l f = .ok listed) {m : Value} (hm : m ∈ listed) :
    ∃ b : Address, s.Filed b m ∧ b.kind.heldEquiv kind = true ∧
      (ns.isNull = true ∨ b.ns.heldEquiv ns = true) ∧ versionFits v b.apiVersion = true ∧
      selects l f m = .ok true := by
  rw [list_eq_gathered] at h
  cases hg : s.gathered kind ns v with
  | error e => simp [hg] at h
  | ok all =>
    simp only [hg, except_ok_bind] at h
    obtain ⟨hmem, hsel⟩ := (mem_filterM h m).1 hm
    unfold gathered at hg
    cases hfound : (if ns.isNull then s.content.keys else [ns]).mapM (s.chunkAt kind v) with
    | error e => simp [hfound] at hg
    | ok found =>
      simp only [hfound, except_ok_bind, except_pure, Except.ok.injEq] at hg
      subst hg
      obtain ⟨chunk, hchunk, hmc⟩ := List.mem_flatten.1 hmem
      obtain ⟨n, hn, hgn⟩ := exists_of_mem_mapM hfound chunk hchunk
      cases hsh : s.shelvesOf n kind with
      | error e => simp [chunkAt, hsh] at hgn
      | ok shelves =>
        simp only [chunkAt, hsh, except_ok_bind, except_pure, Except.ok.injEq] at hgn
        subst hgn
        obtain ⟨p, hp, hmp⟩ := List.mem_flatMap.1 hmc
        obtain ⟨hpmem, hfits⟩ := List.mem_filter.1 hp
        obtain ⟨q, hq, rfl⟩ := List.mem_map.1 hmp
        -- the shelves a lookup answers are the entry filed under a key equal to the one asked for
        obtain ⟨hnh, hkh⟩ := hashable_of_shelvesOf hsh
        have hat := shelvesAt_of_shelvesOf hsh hpmem
        simp only [shelvesAt, Option.bind_eq_some_iff] at hat
        obtain ⟨kinds, hkinds, hshelves⟩ := hat
        obtain ⟨n₀, hn₀, hnn⟩ := Table.exists_mem_of_lookup hkinds
        obtain ⟨k₀, hk₀, hkk⟩ := Table.exists_mem_of_lookup hshelves
        refine ⟨⟨n₀, k₀, p.1, q.1⟩, ⟨kinds, shelves, p.2, hn₀, hk₀, hpmem, hq⟩, hkk, ?_, hfits,
          hsel⟩
        by_cases hnull : ns.isNull = true
        · exact .inl hnull
        · simp only [hnull, Bool.false_eq_true, if_false, List.mem_singleton] at hn
          subst hn
          exact .inr hnn

/-- A listing that answers lists every object filed under the kind, in the namespace asked for,
on a shelf whose version fits, that passes both selectors. -/
theorem mem_list_of_filed {s : Store} (hs : s.Keyed) {kind ns v l f : Value}
    {listed : List Value} (h : s.list kind ns v l f = .ok listed) {b : Address} {m : Value}
    (hf : s.Filed b m) (hkind : b.kind.heldEquiv kind = true)
    (hns : ns.isNull = true ∨ b.ns.heldEquiv ns = true) (hv : versionFits v b.apiVersion = true)
    (hsel : selects l f m = .ok true) : m ∈ listed := by
  obtain ⟨kinds, shelves, shelf, h₁, h₂, h₃, h₄⟩ := hf
  have hkk : KindsKeyed kinds := hs.2 _ h₁
  have hb := Filed.hashable hs ⟨kinds, shelves, shelf, h₁, h₂, h₃, h₄⟩
  rw [list_eq_gathered] at h
  cases hg : s.gathered kind ns v with
  | error e => simp [hg] at h
  | ok all =>
    simp only [hg, except_ok_bind] at h
    refine (mem_filterM h m).2 ⟨?_, hsel⟩
    unfold gathered at hg
    cases hfound : (if ns.isNull then s.content.keys else [ns]).mapM (s.chunkAt kind v) with
    | error e => simp [hfound] at hg
    | ok found =>
      simp only [hfound, except_ok_bind, except_pure, Except.ok.injEq] at hg
      subst hg
      -- the namespace the listing asks for leads to the namespace the object is filed under
      obtain ⟨n, hn, hnb⟩ : ∃ n ∈ (if ns.isNull then s.content.keys else [ns]),
          n.heldEquiv b.ns = true := by
        by_cases hnull : ns.isNull = true
        · exact ⟨b.ns, by simpa [hnull, Table.keys] using ⟨kinds, h₁⟩,
            Value.heldEquiv_self hb.1⟩
        · simp only [hnull, Bool.false_eq_true, if_false, List.mem_singleton, exists_eq_left]
          exact Value.heldEquiv_symm hb.1 (hns.resolve_left hnull)
      obtain ⟨chunk, hchunk, hgn⟩ := exists_mem_of_mapM hfound n hn
      have hnh : n.hashable = true := Value.hashable_of_heldEquiv_left hb.1 hnb
      have hkindh : kind.hashable = true := Value.hashable_of_heldEquiv hb.2.1 hkind
      have hsh : s.shelvesOf n kind = .ok shelves := by
        rw [shelvesOf_eq]
        have hlook : (s.content.lookup n).bind (·.lookup kind) = some shelves := by
          rw [Table.lookup_of_mem hs.1 h₁ (Value.heldEquiv_symm hnh hnb), Option.bind_some,
            Table.lookup_of_mem hkk.1 h₂ hkind]
        simp [requireKey, hnh, hkindh, shelvesAt, hlook]
      simp only [chunkAt, hsh, except_ok_bind, except_pure, Except.ok.injEq] at hgn
      subst hgn
      refine List.mem_flatten.2 ⟨_, hchunk, List.mem_flatMap.2 ⟨(b.apiVersion, shelf),
        List.mem_filter.2 ⟨h₃, hv⟩, List.mem_map.2 ⟨(b.name, m), h₄, rfl⟩⟩⟩

/-! ### What deleting listed objects touches -/

/-- Deleting listed objects of a kind leaves `b` alone: no listed object is looked for at an
address equal to `b`. -/
def Spared (kind : Value) (listed : List Value) (b : Address) : Prop :=
  ∀ m ∈ listed, ∀ a, Address.read m = .ok a → ¬ b.Equiv ⟨a.ns, kind, a.apiVersion, a.name⟩

/-- Removing at an address, and pruning the groups this leaves empty, leaves every address not
equal to it as it was. -/
theorem objectAt_remove_prune_frame {s : Store} (hs : s.Keyed) {a b : Address}
    (hb : ¬ b.Equiv a) : ((s.remove a).prune a.ns a.kind a.apiVersion).objectAt b = s.objectAt b := by
  rw [objectAt_prune (keyed_remove hs a), objectAt_remove hs, if_neg hb]

/-- What deleting listed objects of a kind leaves of `s₀`: what deleting may leave, every
address no listed object is looked for at as it was, and the shelves of every other kind as they
were. -/
structure SparedDeletion (kind : Value) (listed : List Value) (s₀ s : Store) : Prop where
  outcome : DeleteOutcome s₀ s
  spared : ∀ b, Spared kind listed b → s.objectAt b = s₀.objectAt b
  others : ∀ K, K.heldEquiv kind = false → SameKind K s₀ s

namespace SparedDeletion

variable {kind : Value} {listed : List Value} {s₀ s : Store} {a : Address} {stored : Value}

theorem refl (hs : s.WF) : SparedDeletion kind listed s s :=
  ⟨DeleteOutcome.refl hs, fun _ _ => rfl, fun K _ => SameKind.refl K s⟩

/-- Marking a listed object, found where the deletion looks for it. -/
theorem mark (h : SparedDeletion kind listed s₀ s) {m : Value} (hm : m ∈ listed)
    (hr : Address.read m = .ok a) (hat : s.objectAt ⟨a.ns, kind, a.apiVersion, a.name⟩ = some stored)
    (hfin : ((stored.getD "metadata").getD "finalizers").truthy = true) (now : Stamp) :
    SparedDeletion kind listed s₀ (s.write ⟨a.ns, kind, a.apiVersion, a.name⟩ (markedAt stored now)) := by
  have hk := h.outcome.wf.keyed
  refine ⟨h.outcome.mark hat hfin now, fun b hb => ?_, fun K hK => ?_⟩
  · have hframe := objectAt_write_frame hk (hashable_of_objectAt hk hat).1
      (markedAt stored now) (hb m hm a hr)
    rw [← h.spared b hb]
    exact hframe
  · exact (h.others K hK).trans (sameKind_withShelves hk a.ns hK _)

/-- Removing a listed object, found where the deletion looks for it, with the groups this leaves
empty. -/
theorem remove (h : SparedDeletion kind listed s₀ s) {m : Value} (hm : m ∈ listed)
    (hr : Address.read m = .ok a) (hat : s.objectAt ⟨a.ns, kind, a.apiVersion, a.name⟩ = some stored)
    (hfin : ((stored.getD "metadata").getD "finalizers").truthy = false) :
    SparedDeletion kind listed s₀
      ((s.remove ⟨a.ns, kind, a.apiVersion, a.name⟩).prune a.ns kind a.apiVersion) := by
  have hk := h.outcome.wf.keyed
  refine ⟨h.outcome.remove hat hfin, fun b hb => ?_, fun K hK => ?_⟩
  · rw [objectAt_remove_prune_frame hk (hb m hm a hr), h.spared b hb]
  · have hrem : SameKind K s (s.remove ⟨a.ns, kind, a.apiVersion, a.name⟩) :=
      sameKind_withShelves hk a.ns hK _
    exact ((h.others K hK).trans hrem).trans
      (sameKind_prune (keyed_remove hk _) a.ns hK a.apiVersion)

end SparedDeletion

/-- Deleting listed objects marks or removes each where the deletion looks for it, and touches
nothing else. -/
theorem deleteListed_spares (s₀ : Store) (hs : s₀.WF) (kind : Value) (listed : List Value)
    (now : Stamp) :
    ⦃fun s => ⌜s = s₀⌝⦄ Store.deleteListed kind listed now
    ⦃post⟨fun _ s => ⌜SparedDeletion kind listed s₀ s⌝,
      fun _ s => ⌜SparedDeletion kind listed s₀ s⌝⟩⦄ := by
  mvcgen [Store.deleteListed, check_eq, Store.alterShelves, Store.removeAt, Store.pruneAt]
    invariants
    · post⟨fun _ s => ⌜SparedDeletion kind listed s₀ s⌝,
        fun _ s => ⌜SparedDeletion kind listed s₀ s⌝⟩
  -- each step marks or removes the current object, which is listed
  case vc1 =>
    rename_i pref cur suff hlisted _ _ h a ha stored hlook _ hfin _ _
    have hcur : cur ∈ listed := by simp [hlisted]
    exact h.mark hcur ha (objectAt_of_lookups hlook) hfin now
  case vc2 =>
    rename_i pref cur suff hlisted _ _ h a ha stored hlook _ hfin _ _
    have hcur : cur ∈ listed := by simp [hlisted]
    exact h.remove hcur ha (objectAt_of_lookups hlook) (by simpa using hfin)
  case vc5 =>
    subst_vars
    exact SparedDeletion.refl hs

/-- An object at `b` that a listing of `kind` in `ns` at version `v` with the selectors `l` and
`f` selects: `b` is of the kind, in the namespace (any for `null`), of a version that fits, and
the object passes both selectors. -/
def Selected (kind ns v l f : Value) (b : Address) (o : Value) : Prop :=
  b.kind.heldEquiv kind = true ∧ (ns.isNull = true ∨ b.ns.heldEquiv ns = true) ∧
    versionFits v b.apiVersion = true ∧ selects l f o = .ok true

/-- An object of a well-formed store names an address equal to the one it is filed at. -/
theorem equiv_filed_of_read {s : Store} (hs : s.WF) {c : Address} {m : Value} (hf : s.Filed c m)
    {a : Address} (hr : Address.read m = .ok a) : a.Equiv c := by
  have hc := Filed.hashable hs.keyed hf
  obtain ⟨a', hr', ha'⟩ := hs.named_of_objectAt (objectAt_of_filed hs.keyed hf (Address.Equiv.refl hc))
  rw [hr] at hr'
  cases hr'
  exact ha'

/-- Every address that deleting what a listing found changes holds an object the listing
selects there. -/
theorem SparedDeletion.touches {s₀ s : Store} (hs : s₀.WF) {kind ns v l f : Value}
    {listed : List Value} (hl : s₀.list kind ns v l f = .ok listed)
    (h : SparedDeletion kind listed s₀ s) (b : Address) :
    s.objectAt b = s₀.objectAt b ∨ ∃ m, s₀.objectAt b = some m ∧ Selected kind ns v l f b m := by
  by_cases hb : Spared kind listed b
  · exact .inl (h.spared b hb)
  right
  simp only [Spared, not_forall, not_not] at hb
  obtain ⟨m, hm, a, hr, hba⟩ := hb
  obtain ⟨c, hfc, hkind, hns, hv, hsel⟩ := mem_list hl hm
  have hc := Filed.hashable hs.keyed hfc
  have hac := equiv_filed_of_read hs hfc hr
  have ha := hac.hashable_left hc
  have hb := hba.hashable_left ⟨ha.1, Value.hashable_of_heldEquiv hc.2.1 hkind, ha.2.2.1, ha.2.2.2⟩
  -- `b` equals the filed address part by part: through `a`, and through the kind listed
  have hbc : b.Equiv c := ⟨Value.heldEquiv_trans hb.1 hba.1 hac.1,
    Value.heldEquiv_trans hb.2.1 hba.2.1 (Value.heldEquiv_symm hc.2.1 hkind),
    Value.heldEquiv_trans hb.2.2.1 hba.2.2.1 hac.2.2.1,
    Value.heldEquiv_trans hb.2.2.2 hba.2.2.2 hac.2.2.2⟩
  refine ⟨m, objectAt_of_filed hs.keyed hfc (hbc.symm hb), hba.2.1, ?_, ?_, hsel⟩
  · exact hns.imp id fun hn => Value.heldEquiv_trans hb.1 hbc.1 hn
  · rw [versionFits_congr v hb.2.2.1 hbc.2.2.1]
    exact hv

end Store

end OperandLifecycle.Cluster

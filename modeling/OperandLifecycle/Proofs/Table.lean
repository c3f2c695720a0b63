import OperandLifecycle.Proofs.Equality
import OperandLifecycle.Cluster.Store
/-!
# Laws of tables

A `Table` finds an entry by the first key equal to the one asked for, and changes every entry
whose key is equal to it. In a table whose keys are hashable and pairwise unequal
(`Table.Keyed`), at most one entry answers a key, so the table behaves as a map: a lookup
finds the entry of any key equal to its own (`Table.lookup_of_mem`), and each operation is
described by the entries it leaves (`Table.mem_alter`, `Table.mem_ensure`, `Table.mem_put`,
`Table.mem_drop`). Every operation keeps a table keyed.
-/

namespace OperandLifecycle.Cluster.Table

open Json

variable {α : Type}

/-- The keys of a table are hashable and no two are equal. -/
structure Keyed (t : Table α) : Prop where
  hashable : ∀ p ∈ t, p.1.hashable = true
  nodup : t.Pairwise (fun p q => p.1.heldEquiv q.1 = false)

theorem keyed_nil : Keyed ([] : Table α) := ⟨by simp, List.Pairwise.nil⟩

/-- Two entries answering one key are the same entry. -/
theorem Keyed.unique {t : Table α} (ht : Keyed t) {p q : Value × α} {k : Value}
    (hp : p ∈ t) (hq : q ∈ t) (hpk : p.1.heldEquiv k = true) (hqk : q.1.heldEquiv k = true) : p = q := by
  have hpq : p.1.heldEquiv q.1 = true :=
    Value.heldEquiv_trans (ht.hashable p hp) hpk (Value.heldEquiv_symm (ht.hashable q hq) hqk)
  have hqp : q.1.heldEquiv p.1 = true := Value.heldEquiv_symm (ht.hashable p hp) hpq
  -- distinct places of the list hold unequal keys
  induction t with
  | nil => simp at hp
  | cons a t ih =>
    have ht' : Keyed t :=
      ⟨fun r hr => ht.hashable r (List.mem_cons_of_mem a hr), (List.pairwise_cons.1 ht.nodup).2⟩
    have hhead := (List.pairwise_cons.1 ht.nodup).1
    rcases List.mem_cons.1 hp with rfl | hp' <;> rcases List.mem_cons.1 hq with rfl | hq'
    · rfl
    · simp [hhead q hq'] at hpq
    · simp [hhead p hp'] at hqp
    · exact ih ht' hp' hq'

theorem exists_mem_of_lookup {t : Table α} {k : Value} {x : α} (h : t.lookup k = some x) :
    ∃ k₀, (k₀, x) ∈ t ∧ k₀.heldEquiv k = true := by
  simp only [lookup, Option.map_eq_some_iff] at h
  obtain ⟨p, hp, rfl⟩ := h
  exact ⟨p.1, List.mem_of_find?_eq_some hp, by simpa using List.find?_some hp⟩

theorem lookup_eq_none_iff {t : Table α} {k : Value} :
    t.lookup k = none ↔ ∀ p ∈ t, p.1.heldEquiv k = false := by
  simp [lookup, List.find?_eq_none]

/-- In a keyed table the entry of a key is found by any key equal to it. -/
theorem lookup_of_mem {t : Table α} (ht : Keyed t) {k₀ k : Value} {x : α} (hp : (k₀, x) ∈ t)
    (hk : k₀.heldEquiv k = true) : t.lookup k = some x := by
  cases hl : t.lookup k with
  | none => simp [(lookup_eq_none_iff.1 hl) _ hp] at hk
  | some y =>
    obtain ⟨k₁, hm, hk₁⟩ := exists_mem_of_lookup hl
    have := ht.unique hm hp hk₁ hk
    simp only [Prod.mk.injEq] at this
    rw [this.2]

theorem holds_iff {t : Table α} {k : Value} : t.holds k = true ↔ ∃ p ∈ t, p.1.heldEquiv k = true := by
  simp [holds]

theorem holds_eq_false_iff {t : Table α} {k : Value} :
    t.holds k = false ↔ ∀ p ∈ t, p.1.heldEquiv k = false := by
  simp [holds]

theorem lookup_isSome_iff {t : Table α} {k : Value} : (t.lookup k).isSome = t.holds k := by
  cases h : t.lookup k with
  | none =>
    simp only [Option.isSome_none]
    exact (holds_eq_false_iff.2 (lookup_eq_none_iff.1 h)).symm
  | some x =>
    obtain ⟨k₀, hm, hk⟩ := exists_mem_of_lookup h
    simp only [Option.isSome_some]
    exact (holds_iff.2 ⟨_, hm, hk⟩).symm

/-- Keys equal to each other find the same entry. -/
theorem lookup_congr (t : Table α) {k k' : Value} (hk : k.hashable = true)
    (h : k.heldEquiv k' = true) : t.lookup k = t.lookup k' := by
  have hp : (fun p : Value × α => p.1.heldEquiv k) = (fun p => p.1.heldEquiv k') :=
    funext fun p => Value.heldEquiv_congr_right p.1 hk h
  simp only [lookup, hp]

theorem holds_congr (t : Table α) {k k' : Value} (hk : k.hashable = true)
    (h : k.heldEquiv k' = true) : t.holds k = t.holds k' := by
  rw [← lookup_isSome_iff, ← lookup_isSome_iff, lookup_congr t hk h]

/-! ### Lookups after each operation

On hashable keys equality is symmetric and transitive, so a lookup sees an operation exactly
when the key it asks for is equal to the operation's.
-/

theorem lookup_nil (k : Value) : Table.lookup ([] : Table α) k = none := rfl

theorem lookup_cons (k₀ : Value) (x : α) (t : Table α) (k : Value) :
    Table.lookup ((k₀, x) :: t) k = if k₀.heldEquiv k then some x else t.lookup k := by
  simp only [lookup, List.find?_cons]
  split <;> simp_all

theorem lookup_append (t u : Table α) (k : Value) :
    (t ++ u).lookup k = (t.lookup k).or (u.lookup k) := by
  induction t with
  | nil => simp [lookup_nil]
  | cons p t ih =>
    rw [List.cons_append, lookup_cons, lookup_cons, ih]
    split <;> simp

theorem lookup_alter {t : Table α} (ht : Keyed t) (k k' : Value) (f : α → α) :
    (t.alter k f).lookup k' = if k'.heldEquiv k then (t.lookup k').map f else t.lookup k' := by
  induction t with
  | nil => simp [alter, lookup_nil]
  | cons p t ih =>
    obtain ⟨k₀, x⟩ := p
    have ih := ih ⟨fun q hq => ht.hashable q (List.mem_cons_of_mem _ hq),
      (List.pairwise_cons.1 ht.nodup).2⟩
    have h₀ : k₀.hashable = true := ht.hashable _ List.mem_cons_self
    simp only [alter, List.map_cons] at ih ⊢
    by_cases hk₀ : k₀.heldEquiv k' = true
    · -- the head answers `k'`, and was changed exactly when `k'` is equal to `k`
      have hiff := Value.heldEquiv_congr_left k h₀ hk₀
      split <;> simp_all [lookup_cons]
    · split <;> (simp only [lookup_cons, hk₀, Bool.false_eq_true, if_false]; exact ih)

theorem lookup_drop {t : Table α} (ht : Keyed t) (k k' : Value) :
    (t.drop k).lookup k' = if k'.heldEquiv k then none else t.lookup k' := by
  induction t with
  | nil => simp [drop, lookup_nil]
  | cons p t ih =>
    obtain ⟨k₀, x⟩ := p
    have ih := ih ⟨fun q hq => ht.hashable q (List.mem_cons_of_mem _ hq),
      (List.pairwise_cons.1 ht.nodup).2⟩
    have h₀ : k₀.hashable = true := ht.hashable _ List.mem_cons_self
    simp only [drop, List.filter_cons] at ih ⊢
    by_cases hk₀ : k₀.heldEquiv k' = true
    · have hiff := Value.heldEquiv_congr_left k h₀ hk₀
      split <;> simp_all [lookup_cons]
    · split <;> simp_all [lookup_cons]

theorem lookup_ensure (t : Table α) (k k' : Value) (x : α) :
    (t.ensure k x).lookup k' =
      if t.holds k then t.lookup k' else (t.lookup k').or (if k.heldEquiv k' then some x else none) := by
  unfold ensure
  split
  · rfl
  · rw [lookup_append, lookup_cons, lookup_nil]

theorem lookup_put {t : Table α} (ht : Keyed t) (k k' : Value) (x : α) :
    (t.put k x).lookup k' =
      if t.holds k then (if k'.heldEquiv k then (t.lookup k').map (fun _ => x) else t.lookup k')
      else (t.lookup k').or (if k.heldEquiv k' then some x else none) := by
  unfold put
  split
  · exact lookup_alter ht k k' _
  · rw [lookup_append, lookup_cons, lookup_nil]

/-- Putting under a hashable key: the key and every key equal to it find the new entry. -/
theorem lookup_put_eq {t : Table α} (ht : Keyed t) {k : Value} (hk : k.hashable = true)
    (k' : Value) (x : α) : (t.put k x).lookup k' = if k'.heldEquiv k then some x else t.lookup k' := by
  rw [lookup_put ht]
  by_cases hk' : k'.heldEquiv k = true
  · have hkk' : k.heldEquiv k' = true :=
      Value.heldEquiv_symm (Value.hashable_of_heldEquiv_left hk hk') hk'
    have hsame := lookup_congr t hk hkk'
    cases hh : t.holds k
    · have hnone : t.lookup k = none := lookup_eq_none_iff.2 (holds_eq_false_iff.1 hh)
      simp [hk', hkk', ← hsame, hnone]
    · obtain ⟨y, hy⟩ := Option.isSome_iff_exists.1 (lookup_isSome_iff ▸ hh)
      simp [hk', ← hsame, hy]
  · have hkk' : k.heldEquiv k' = false := by
      cases h : k.heldEquiv k'
      · rfl
      · exact absurd (Value.heldEquiv_symm hk h) hk'
    cases hh : t.holds k <;> simp [hk', hkk']

/-- Dropping a key whose entry is empty changes no lookup that reads inside the entries. -/
theorem lookup_bind_drop_of_empty {γ β : Type} {t : Table (List γ)} (ht : Keyed t) {k : Value}
    (hk : (t.lookup k).getD [] = []) {F : List γ → Option β} (hF : F [] = none) (k' : Value) :
    ((t.drop k).lookup k').bind F = (t.lookup k').bind F := by
  rw [lookup_drop ht]
  split
  · rename_i hk'
    cases hl : t.lookup k' with
    | none => rfl
    | some x =>
      obtain ⟨k₀, hm, hk₀⟩ := exists_mem_of_lookup hl
      have hkk : k₀.heldEquiv k = true := Value.heldEquiv_trans (ht.hashable _ hm) hk₀ hk'
      rw [lookup_of_mem ht hm hkk] at hk
      simp only [Option.getD_some] at hk
      simp [hk, hF]
  · rfl

/-- Dropping a key when its entry is empty changes no lookup that reads inside the entries. -/
theorem lookup_bind_dropIfEmpty {γ β : Type} {t : Table (List γ)} (ht : Keyed t) (k : Value)
    {F : List γ → Option β} (hF : F [] = none) (k' : Value) :
    ((if ((t.lookup k).getD []).isEmpty then t.drop k else t).lookup k').bind F =
      (t.lookup k').bind F := by
  split
  · rename_i he
    exact lookup_bind_drop_of_empty ht (List.isEmpty_iff.1 he) hF k'
  · rfl

/-- Changing entries in a way no inner lookup sees changes no lookup that reads inside them. -/
theorem lookup_bind_alter {t : Table α} {β : Type} (ht : Keyed t) (k : Value) {g : α → α}
    {F : α → Option β} (hg : ∀ p ∈ t, F (g p.2) = F p.2) (k' : Value) :
    ((t.alter k g).lookup k').bind F = (t.lookup k').bind F := by
  rw [lookup_alter ht]
  split
  · cases hl : t.lookup k' with
    | none => rfl
    | some x =>
      obtain ⟨k₀, hm, -⟩ := exists_mem_of_lookup hl
      exact hg _ hm
  · rfl

theorem lookup_ensure_isSome (t : Table α) {k : Value} (hk : k.heldEquiv k = true) (x : α) :
    ((t.ensure k x).lookup k).isSome = true := by
  rw [lookup_ensure]
  cases hh : t.holds k
  · simp [hk]
  · simpa [lookup_isSome_iff] using hh

/-! ### What each operation leaves -/

theorem mem_alter {t : Table α} {k : Value} {f : α → α} {q : Value × α} :
    q ∈ t.alter k f ↔ ∃ p ∈ t, q = if p.1.heldEquiv k then (p.1, f p.2) else p := by
  simp only [alter, List.mem_map]
  exact ⟨fun ⟨p, hp, h⟩ => ⟨p, hp, h.symm⟩, fun ⟨p, hp, h⟩ => ⟨p, hp, h.symm⟩⟩

theorem keys_alter (t : Table α) (k : Value) (f : α → α) : (t.alter k f).keys = t.keys := by
  simp only [alter, keys, List.map_map]
  congr 1
  funext p
  simp only [Function.comp]
  split <;> rfl

theorem keys_drop (t : Table α) (k : Value) : (t.drop k).keys = t.keys.filter (fun n => !n.heldEquiv k) := by
  simp only [drop, keys, List.filter_map]
  rfl

theorem mem_drop {t : Table α} {k : Value} {q : Value × α} :
    q ∈ t.drop k ↔ q ∈ t ∧ q.1.heldEquiv k = false := by
  simp [drop]

theorem mem_ensure {t : Table α} {k : Value} {x : α} {q : Value × α} :
    q ∈ t.ensure k x ↔ q ∈ t ∨ (t.holds k = false ∧ q = (k, x)) := by
  unfold ensure
  cases h : t.holds k <;> simp

theorem mem_put {t : Table α} {k : Value} {x : α} {q : Value × α} :
    q ∈ t.put k x ↔ (∃ p ∈ t, q = if p.1.heldEquiv k then (p.1, x) else p) ∨
      (t.holds k = false ∧ q = (k, x)) := by
  unfold put
  cases h : t.holds k
  · simp only [Bool.false_eq_true, if_false, List.mem_append, List.mem_singleton, true_and]
    constructor
    · rintro (hq | rfl)
      · refine .inl ⟨q, hq, ?_⟩
        simp [holds_eq_false_iff.1 h q hq]
      · exact .inr rfl
    · rintro (⟨p, hp, rfl⟩ | rfl)
      · simp [holds_eq_false_iff.1 h p hp, hp]
      · exact .inr rfl
  · simp only [if_true, mem_alter, Bool.true_eq_false, false_and, or_false]

/-! ### Keyed tables stay keyed -/

theorem Keyed.alter {t : Table α} (ht : Keyed t) (k : Value) (f : α → α) :
    Keyed (t.alter k f) := by
  constructor
  · intro q hq
    obtain ⟨p, hp, rfl⟩ := mem_alter.1 hq
    split <;> exact ht.hashable p hp
  · unfold Table.alter
    refine List.pairwise_map.2 (ht.nodup.imp fun {p q} h => ?_)
    split <;> split <;> exact h

theorem Keyed.sublist {t u : Table α} (ht : Keyed t) (h : u.Sublist t) : Keyed u :=
  ⟨fun p hp => ht.hashable p (h.subset hp), ht.nodup.sublist h⟩

theorem Keyed.drop {t : Table α} (ht : Keyed t) (k : Value) : Keyed (t.drop k) :=
  ht.sublist List.filter_sublist

/-- A hashable key, added where no equal key is, keeps a table keyed. -/
theorem Keyed.append {t : Table α} (ht : Keyed t) {k : Value} (x : α)
    (hk : k.hashable = true) (hnew : t.holds k = false) :
    Keyed (t ++ [(k, x)]) := by
  constructor
  · intro p hp
    rcases List.mem_append.1 hp with hp | hp
    · exact ht.hashable p hp
    · rw [List.mem_singleton.1 hp]; exact hk
  · refine List.pairwise_append.2 ⟨ht.nodup, List.pairwise_singleton _ _, ?_⟩
    intro p hp q hq
    rw [List.mem_singleton.1 hq]
    exact holds_eq_false_iff.1 hnew p hp

theorem Keyed.ensure {t : Table α} (ht : Keyed t) {k : Value} (x : α)
    (hk : k.hashable = true) : Keyed (t.ensure k x) := by
  unfold Table.ensure
  cases h : t.holds k
  · exact ht.append x hk h
  · exact ht

theorem Keyed.put {t : Table α} (ht : Keyed t) {k : Value} (x : α)
    (hk : k.hashable = true) : Keyed (t.put k x) := by
  unfold Table.put
  cases h : t.holds k
  · exact ht.append x hk h
  · exact ht.alter k (fun _ => x)

end OperandLifecycle.Cluster.Table

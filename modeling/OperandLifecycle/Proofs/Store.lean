import OperandLifecycle.Proofs.Table
import OperandLifecycle.Proofs.Members
/-!
# Objects of the store by address

`Store.objectAt` is the object a store files at an address, found by looking up each part in
turn. Every change the store makes is a change at one address (`Store.objectAt_write`,
`Store.objectAt_remove`); dropping the groups a removal leaves empty changes no object
(`Store.objectAt_prune`). These laws need only a keyed store (`Store.Keyed`): each table on the
way to an object has hashable keys, no two of them equal.
-/

namespace OperandLifecycle.Cluster

open Json

/-- Two addresses name one place: their parts are equal as keys. -/
def Address.Equiv (a b : Address) : Prop :=
  a.ns.heldEquiv b.ns = true ∧ a.kind.heldEquiv b.kind = true ∧ a.apiVersion.heldEquiv b.apiVersion = true ∧
    a.name.heldEquiv b.name = true

instance (a b : Address) : Decidable (a.Equiv b) := inferInstanceAs (Decidable (_ ∧ _ ∧ _ ∧ _))

/-- Every part of an address can serve as a key. -/
def Address.Hashable (a : Address) : Prop :=
  a.ns.hashable = true ∧ a.kind.hashable = true ∧ a.apiVersion.hashable = true ∧
    a.name.hashable = true

theorem Address.Equiv.hashable_left {a b : Address} (h : a.Equiv b) (hb : b.Hashable) :
    a.Hashable :=
  ⟨Value.hashable_of_heldEquiv_left hb.1 h.1, Value.hashable_of_heldEquiv_left hb.2.1 h.2.1,
    Value.hashable_of_heldEquiv_left hb.2.2.1 h.2.2.1, Value.hashable_of_heldEquiv_left hb.2.2.2 h.2.2.2⟩

theorem Address.Equiv.symm {a b : Address} (ha : a.Hashable) (h : a.Equiv b) : b.Equiv a :=
  ⟨Value.heldEquiv_symm ha.1 h.1, Value.heldEquiv_symm ha.2.1 h.2.1, Value.heldEquiv_symm ha.2.2.1 h.2.2.1,
    Value.heldEquiv_symm ha.2.2.2 h.2.2.2⟩

theorem Address.Equiv.trans {a b c : Address} (ha : a.Hashable) (hab : a.Equiv b)
    (hbc : b.Equiv c) : a.Equiv c :=
  ⟨Value.heldEquiv_trans ha.1 hab.1 hbc.1, Value.heldEquiv_trans ha.2.1 hab.2.1 hbc.2.1,
    Value.heldEquiv_trans ha.2.2.1 hab.2.2.1 hbc.2.2.1, Value.heldEquiv_trans ha.2.2.2 hab.2.2.2 hbc.2.2.2⟩

namespace Store

/-- The shelves of a kind in a namespace, found by lookup. -/
def shelvesAt (s : Store) (ns kind : Value) : Option KindShelves :=
  (s.content.lookup ns).bind (·.lookup kind)

/-- The object filed at an address, found by lookup of each part. -/
def objectAt (s : Store) (a : Address) : Option Value :=
  ((s.shelvesAt a.ns a.kind).bind (·.lookup a.apiVersion)).bind (·.lookup a.name)

/-- Every table of the shelves of a kind is keyed. -/
def ShelvesKeyed (shelves : KindShelves) : Prop := shelves.Keyed ∧ ∀ p ∈ shelves, p.2.Keyed

/-- Every table of a namespace is keyed. -/
def KindsKeyed (kinds : Table KindShelves) : Prop := kinds.Keyed ∧ ∀ p ∈ kinds, ShelvesKeyed p.2

/-- Every table of the store is keyed. -/
def Keyed (s : Store) : Prop := s.content.Keyed ∧ ∀ p ∈ s.content, KindsKeyed p.2

/-- The store with the shelves of a kind in a namespace changed. -/
def withShelves (s : Store) (ns kind : Value) (f : KindShelves → KindShelves) : Store :=
  { s with content := s.content.alter ns (·.alter kind f) }

/-- The store with an object put under a name, on the shelf of an address's version. -/
def write (s : Store) (a : Address) (o : Value) : Store :=
  s.withShelves a.ns a.kind (·.alter a.apiVersion (·.put a.name o))

theorem run_alterShelves (s : Store) (ns kind : Value) (f : KindShelves → KindShelves) :
    (alterShelves ns kind f).run.run s = (.ok (), s.withShelves ns kind f) := rfl

theorem issued_withShelves (s : Store) (ns kind : Value) (f : KindShelves → KindShelves) :
    (s.withShelves ns kind f).issued = s.issued := rfl

theorem strict_withShelves (s : Store) (ns kind : Value) (f : KindShelves → KindShelves) :
    (s.withShelves ns kind f).strict = s.strict := rfl

/-! ### Lookups see only equal keys -/

theorem kindsKeyed_of_lookup {s : Store} (hs : s.Keyed) {ns : Value} {kinds : Table KindShelves}
    (h : s.content.lookup ns = some kinds) : KindsKeyed kinds := by
  obtain ⟨k₀, hm, -⟩ := Table.exists_mem_of_lookup h
  exact hs.2 _ hm

theorem shelvesKeyed_of_shelvesAt {s : Store} (hs : s.Keyed) {ns kind : Value}
    {shelves : KindShelves} (h : s.shelvesAt ns kind = some shelves) : ShelvesKeyed shelves := by
  simp only [shelvesAt, Option.bind_eq_some_iff] at h
  obtain ⟨kinds, hk, hsh⟩ := h
  obtain ⟨k₀, hm, -⟩ := Table.exists_mem_of_lookup hsh
  exact (kindsKeyed_of_lookup hs hk).2 _ hm

theorem shelvesAt_withShelves {s : Store} (hs : s.Keyed) (ns kind n k : Value)
    (f : KindShelves → KindShelves) :
    (s.withShelves ns kind f).shelvesAt n k =
      if n.heldEquiv ns ∧ k.heldEquiv kind then (s.shelvesAt n k).map f else s.shelvesAt n k := by
  simp only [shelvesAt, withShelves, Table.lookup_alter hs.1]
  cases h : s.content.lookup n with
  | none => simp
  | some kinds =>
    have hk := (kindsKeyed_of_lookup hs h).1
    by_cases hn : n.heldEquiv ns = true
    · simp [hn, Table.lookup_alter hk]
    · simp [hn]

theorem shelvesAt_congr (s : Store) {n n' k k' : Value} (hn : n.hashable = true)
    (hk : k.hashable = true) (h₁ : n.heldEquiv n' = true) (h₂ : k.heldEquiv k' = true) :
    s.shelvesAt n k = s.shelvesAt n' k' := by
  have e : ∀ t : Table KindShelves, t.lookup k = t.lookup k' := fun t => Table.lookup_congr t hk h₂
  simp only [shelvesAt, Table.lookup_congr s.content hn h₁, e]

theorem objectAt_congr (s : Store) {a b : Address} (ha : a.Hashable) (h : a.Equiv b) :
    s.objectAt a = s.objectAt b := by
  have e₃ : ∀ t : KindShelves, t.lookup a.apiVersion = t.lookup b.apiVersion :=
    fun t => Table.lookup_congr t ha.2.2.1 h.2.2.1
  have e₄ : ∀ t : Shelf, t.lookup a.name = t.lookup b.name :=
    fun t => Table.lookup_congr t ha.2.2.2 h.2.2.2
  simp only [objectAt, s.shelvesAt_congr ha.1 ha.2.1 h.1 h.2.1, e₃, e₄]

/-! ### Objects as they are filed

`Filed` reads the tables as lists: an object is filed under the keys its entries carry, whether
or not a lookup reaches it. In a keyed store, lookups reach exactly the objects filed under keys
equal to the ones asked for.
-/

/-- An object filed under the keys of an address, as the entries spell them. -/
def Filed (s : Store) (a : Address) (o : Value) : Prop :=
  ∃ kinds shelves shelf, (a.ns, kinds) ∈ s.content ∧ (a.kind, shelves) ∈ kinds ∧
    (a.apiVersion, shelf) ∈ shelves ∧ (a.name, o) ∈ shelf

theorem Filed.hashable {s : Store} (hs : s.Keyed) {a : Address} {o : Value} (hf : s.Filed a o) :
    a.Hashable := by
  obtain ⟨kinds, shelves, shelf, h₁, h₂, h₃, h₄⟩ := hf
  have hk : KindsKeyed kinds := hs.2 _ h₁
  have hsh : ShelvesKeyed shelves := hk.2 _ h₂
  exact ⟨hs.1.hashable _ h₁, hk.1.hashable _ h₂, hsh.1.hashable _ h₃, (hsh.2 _ h₃).hashable _ h₄⟩

theorem objectAt_of_filed {s : Store} (hs : s.Keyed) {a b : Address} {o : Value}
    (hf : s.Filed a o) (h : a.Equiv b) : s.objectAt b = some o := by
  obtain ⟨kinds, shelves, shelf, h₁, h₂, h₃, h₄⟩ := hf
  have hk : KindsKeyed kinds := hs.2 _ h₁
  have hsh : ShelvesKeyed shelves := hk.2 _ h₂
  simp only [objectAt, shelvesAt, Table.lookup_of_mem hs.1 h₁ h.1, Option.bind_some,
    Table.lookup_of_mem hk.1 h₂ h.2.1, Table.lookup_of_mem hsh.1 h₃ h.2.2.1,
    Table.lookup_of_mem (hsh.2 _ h₃) h₄ h.2.2.2]

theorem exists_filed_of_objectAt {s : Store} {b : Address} {o : Value}
    (h : s.objectAt b = some o) : ∃ a, s.Filed a o ∧ a.Equiv b := by
  simp only [objectAt, shelvesAt, Option.bind_eq_some_iff] at h
  obtain ⟨shelf, ⟨shelves, ⟨kinds, h₁, h₂⟩, h₃⟩, h₄⟩ := h
  obtain ⟨n, m₁, e₁⟩ := Table.exists_mem_of_lookup h₁
  obtain ⟨k, m₂, e₂⟩ := Table.exists_mem_of_lookup h₂
  obtain ⟨v, m₃, e₃⟩ := Table.exists_mem_of_lookup h₃
  obtain ⟨x, m₄, e₄⟩ := Table.exists_mem_of_lookup h₄
  exact ⟨⟨n, k, v, x⟩, ⟨kinds, shelves, shelf, m₁, m₂, m₃, m₄⟩, e₁, e₂, e₃, e₄⟩

/-- In a keyed store, the object a lookup reaches is filed under keys equal to the address. -/
theorem objectAt_eq_some_iff {s : Store} (hs : s.Keyed) {b : Address} {o : Value} :
    s.objectAt b = some o ↔ ∃ a, s.Filed a o ∧ a.Equiv b :=
  ⟨exists_filed_of_objectAt, fun ⟨_, hf, h⟩ => objectAt_of_filed hs hf h⟩

/-! ### What each step of an operation does to the objects

The operations of the store are made of a few steps: opening the groups on the way to an
address (`openNamespace`, `openKind`, `withShelves` with `Table.ensure`), writing an object
(`write`), removing one (`remove`), and dropping the groups a removal leaves empty (`prune`).
-/

/-- The store with a namespace opened. -/
def openNamespace (s : Store) (ns : Value) : Store := { s with content := s.content.ensure ns [] }

/-- The store with a kind opened in a namespace. -/
def openKind (s : Store) (ns kind : Value) : Store :=
  { s with content := s.content.alter ns (·.ensure kind []) }

/-- The store with the object under an address's name taken off its shelf. -/
def remove (s : Store) (a : Address) : Store :=
  s.withShelves a.ns a.kind (·.alter a.apiVersion (·.drop a.name))

/-- The store after dropping the groups left empty on the way to a shelf. -/
def prune (s : Store) (ns kind apiVersion : Value) : Store := ((pruneAt ns kind apiVersion).run.run s).2

@[simp] theorem content_openNamespace (s : Store) (ns : Value) :
    (s.openNamespace ns).content = s.content.ensure ns [] := rfl

@[simp] theorem content_openKind (s : Store) (ns kind : Value) :
    (s.openKind ns kind).content = s.content.alter ns (·.ensure kind []) := rfl

@[simp] theorem content_withShelves (s : Store) (ns kind : Value) (f : KindShelves → KindShelves) :
    (s.withShelves ns kind f).content = s.content.alter ns (·.alter kind f) := rfl

theorem objectAt_withShelves {s : Store} (hs : s.Keyed) (ns kind : Value)
    (f : KindShelves → KindShelves) (b : Address) :
    (s.withShelves ns kind f).objectAt b =
      if b.ns.heldEquiv ns ∧ b.kind.heldEquiv kind then
        (((s.shelvesAt b.ns b.kind).map f).bind (·.lookup b.apiVersion)).bind (·.lookup b.name)
      else s.objectAt b := by
  simp only [objectAt, shelvesAt_withShelves hs]
  split <;> rfl

theorem shelvesAt_openNamespace {s : Store} {ns : Value} (hns : ns.hashable = true)
    (n k : Value) : (s.openNamespace ns).shelvesAt n k = s.shelvesAt n k := by
  simp only [shelvesAt, openNamespace, Table.lookup_ensure]
  cases hh : s.content.holds ns
  · by_cases hn : ns.heldEquiv n = true
    · have hnone : s.content.lookup n = none := by
        rw [← Table.lookup_congr s.content hns hn]
        exact Table.lookup_eq_none_iff.2 (Table.holds_eq_false_iff.1 hh)
      simp [hnone, hn, Table.lookup_nil]
    · simp [hn]
  · rfl

theorem objectAt_openNamespace {s : Store} {ns : Value} (hns : ns.hashable = true) (b : Address) :
    (s.openNamespace ns).objectAt b = s.objectAt b := by
  simp only [objectAt, shelvesAt_openNamespace hns]

theorem objectAt_openKind {s : Store} (hs : s.Keyed) {ns kind : Value}
    (hkind : kind.hashable = true) (b : Address) :
    (s.openKind ns kind).objectAt b = s.objectAt b := by
  simp only [objectAt, shelvesAt, openKind, Table.lookup_alter hs.1]
  split
  · cases h : s.content.lookup b.ns with
    | none => rfl
    | some kinds =>
      simp only [Option.map_some, Option.bind_some, Table.lookup_ensure]
      cases hh : kinds.holds kind
      · by_cases hk : kind.heldEquiv b.kind = true
        · have hnone : kinds.lookup b.kind = none := by
            rw [← Table.lookup_congr kinds hkind hk]
            exact Table.lookup_eq_none_iff.2 (Table.holds_eq_false_iff.1 hh)
          simp [hnone, hk, Table.lookup_nil]
        · simp [hk]
      · rfl
  · rfl

theorem objectAt_openVersion {s : Store} (hs : s.Keyed) (ns kind : Value) {v : Value}
    (hv : v.hashable = true) (b : Address) :
    (s.withShelves ns kind (·.ensure v [])).objectAt b = s.objectAt b := by
  rw [objectAt_withShelves hs]
  split
  · simp only [objectAt]
    cases h : s.shelvesAt b.ns b.kind with
    | none => rfl
    | some shelves =>
      simp only [Option.map_some, Option.bind_some, Table.lookup_ensure]
      cases hh : shelves.holds v
      · by_cases hk : v.heldEquiv b.apiVersion = true
        · have hnone : shelves.lookup b.apiVersion = none := by
            rw [← Table.lookup_congr shelves hv hk]
            exact Table.lookup_eq_none_iff.2 (Table.holds_eq_false_iff.1 hh)
          simp [hnone, hk, Table.lookup_nil]
        · simp [hk]
      · rfl
  · rfl

theorem keyed_of_shelfAt {s : Store} (hs : s.Keyed) {ns kind v : Value} {shelf : Shelf}
    (h : (s.shelvesAt ns kind).bind (·.lookup v) = some shelf) : shelf.Keyed := by
  obtain ⟨shelves, hsh, hsf⟩ := Option.bind_eq_some_iff.1 h
  obtain ⟨k, hm, -⟩ := Table.exists_mem_of_lookup hsf
  exact (shelvesKeyed_of_shelvesAt hs hsh).2 _ hm

/-- Writing at an address whose shelf exists: every address equal to it finds the object, every
other address what it found before. -/
theorem objectAt_write {s : Store} (hs : s.Keyed) {a : Address} (ha : a.Hashable) (o : Value)
    {shelf : Shelf} (hslot : (s.shelvesAt a.ns a.kind).bind (·.lookup a.apiVersion) = some shelf)
    (b : Address) : (s.write a o).objectAt b = if b.Equiv a then some o else s.objectAt b := by
  rw [write, objectAt_withShelves hs]
  by_cases hnk : b.ns.heldEquiv a.ns = true ∧ b.kind.heldEquiv a.kind = true
  · rw [if_pos hnk]
    obtain ⟨shelves, hsh, hsf⟩ := Option.bind_eq_some_iff.1 hslot
    have hat : s.shelvesAt b.ns b.kind = some shelves := by
      rw [s.shelvesAt_congr (Value.hashable_of_heldEquiv_left ha.1 hnk.1)
        (Value.hashable_of_heldEquiv_left ha.2.1 hnk.2) hnk.1 hnk.2, hsh]
    have hkeyed := shelvesKeyed_of_shelvesAt hs hat
    have hshelf : shelf.Keyed := keyed_of_shelfAt hs hslot
    simp only [hat, Option.map_some, Option.bind_some, Table.lookup_alter hkeyed.1]
    by_cases hv : b.apiVersion.heldEquiv a.apiVersion = true
    · have hfound : shelves.lookup b.apiVersion = some shelf := by
        rw [Table.lookup_congr shelves (Value.hashable_of_heldEquiv_left ha.2.2.1 hv) hv, hsf]
      simp only [hv, if_true, hfound, Option.map_some, Option.bind_some,
        Table.lookup_put_eq hshelf ha.2.2.2]
      by_cases hn : b.name.heldEquiv a.name = true
      · have hba : b.Equiv a := ⟨hnk.1, hnk.2, hv, hn⟩
        simp [hn, hba]
      · have hba : ¬ b.Equiv a := fun h => hn h.2.2.2
        simp [hn, hba, objectAt, hat, hfound]
    · have hba : ¬ b.Equiv a := fun h => hv h.2.2.1
      simp [hv, hba, objectAt, hat]
  · have hba : ¬ b.Equiv a := fun h => hnk ⟨h.1, h.2.1⟩
    rw [if_neg hnk, if_neg hba]

/-- Writing leaves every address not equal to the written one as it was, whether or not the
shelf of the written address exists. -/
theorem objectAt_write_frame {s : Store} (hs : s.Keyed) {a : Address} (ha : a.Hashable)
    (o : Value) {b : Address} (hb : ¬ b.Equiv a) : (s.write a o).objectAt b = s.objectAt b := by
  cases hslot : (s.shelvesAt a.ns a.kind).bind (·.lookup a.apiVersion) with
  | some shelf => rw [objectAt_write hs ha o hslot, if_neg hb]
  | none =>
    rw [write, objectAt_withShelves hs]
    split
    · rename_i hnk
      have hat : s.shelvesAt b.ns b.kind = s.shelvesAt a.ns a.kind :=
        s.shelvesAt_congr (Value.hashable_of_heldEquiv_left ha.1 hnk.1)
          (Value.hashable_of_heldEquiv_left ha.2.1 hnk.2) hnk.1 hnk.2
      simp only [objectAt, hat]
      cases hsh : s.shelvesAt a.ns a.kind with
      | none => rfl
      | some shelves =>
        have hkeyed := shelvesKeyed_of_shelvesAt hs hsh
        have hnone : shelves.lookup a.apiVersion = none := by simpa [hsh] using hslot
        simp only [Option.map_some, Option.bind_some, Table.lookup_alter hkeyed.1]
        split
        · rename_i hv
          rw [Table.lookup_congr shelves (Value.hashable_of_heldEquiv_left ha.2.2.1 hv) hv, hnone]
          rfl
        · rfl
    · rfl

/-- Removing at an address: every address equal to it finds nothing, every other address what it
found before. -/
theorem objectAt_remove {s : Store} (hs : s.Keyed) (a b : Address) :
    (s.remove a).objectAt b = if b.Equiv a then none else s.objectAt b := by
  rw [remove, objectAt_withShelves hs]
  by_cases hnk : b.ns.heldEquiv a.ns = true ∧ b.kind.heldEquiv a.kind = true
  · rw [if_pos hnk]
    simp only [objectAt]
    cases hat : s.shelvesAt b.ns b.kind with
    | none => simp
    | some shelves =>
      have hkeyed := shelvesKeyed_of_shelvesAt hs hat
      simp only [Option.map_some, Option.bind_some, Table.lookup_alter hkeyed.1]
      by_cases hv : b.apiVersion.heldEquiv a.apiVersion = true
      · cases hsf : shelves.lookup b.apiVersion with
        | none => simp [hv]
        | some shelf =>
          have hslot : (s.shelvesAt b.ns b.kind).bind (·.lookup b.apiVersion) = some shelf := by
            simp [hat, hsf]
          have hshelf : shelf.Keyed := keyed_of_shelfAt hs hslot
          simp only [hv, if_true, Option.map_some, Option.bind_some, Table.lookup_drop hshelf]
          by_cases hn : b.name.heldEquiv a.name = true
          · have hba : b.Equiv a := ⟨hnk.1, hnk.2, hv, hn⟩
            simp [hn, hba]
          · have hba : ¬ b.Equiv a := fun h => hn h.2.2.2
            simp [hn, hba]
      · have hba : ¬ b.Equiv a := fun h => hv h.2.2.1
        simp [hv, hba]
  · have hba : ¬ b.Equiv a := fun h => hnk ⟨h.1, h.2.1⟩
    rw [if_neg hnk, if_neg hba]

/-! ### Keyed stores stay keyed -/

theorem keyed_openNamespace {s : Store} (hs : s.Keyed) {ns : Value} (hns : ns.hashable = true) :
    (s.openNamespace ns).Keyed := by
  refine ⟨hs.1.ensure [] hns, fun p hp => ?_⟩
  rcases Table.mem_ensure.1 hp with hp | ⟨-, rfl⟩
  · exact hs.2 p hp
  · exact ⟨Table.keyed_nil, by simp⟩

theorem keyed_openKind {s : Store} (hs : s.Keyed) (ns : Value) {kind : Value}
    (hkind : kind.hashable = true) : (s.openKind ns kind).Keyed := by
  refine ⟨hs.1.alter ns (·.ensure kind []), fun p hp => ?_⟩
  rw [content_openKind] at hp
  obtain ⟨q, hq, rfl⟩ := Table.mem_alter.1 hp
  have hk := hs.2 q hq
  split
  · refine ⟨hk.1.ensure [] hkind, fun r hr => ?_⟩
    rcases Table.mem_ensure.1 hr with hr | ⟨-, rfl⟩
    · exact hk.2 r hr
    · exact ⟨Table.keyed_nil, by simp⟩
  · exact hk

theorem keyed_withShelves {s : Store} (hs : s.Keyed) (ns kind : Value)
    {f : KindShelves → KindShelves} (hf : ∀ shelves, ShelvesKeyed shelves → ShelvesKeyed (f shelves)) :
    (s.withShelves ns kind f).Keyed := by
  refine ⟨hs.1.alter ns _, fun p hp => ?_⟩
  obtain ⟨q, hq, rfl⟩ := Table.mem_alter.1 hp
  have hk := hs.2 q hq
  split
  · refine ⟨hk.1.alter kind f, fun r hr => ?_⟩
    obtain ⟨t, ht, rfl⟩ := Table.mem_alter.1 hr
    split
    · exact hf _ (hk.2 t ht)
    · exact hk.2 t ht
  · exact hk

theorem shelvesKeyed_ensure {shelves : KindShelves} (h : ShelvesKeyed shelves) {v : Value}
    (hv : v.hashable = true) : ShelvesKeyed (shelves.ensure v []) := by
  refine ⟨h.1.ensure [] hv, fun r hr => ?_⟩
  rcases Table.mem_ensure.1 hr with hr | ⟨-, rfl⟩
  · exact h.2 r hr
  · exact Table.keyed_nil

theorem shelvesKeyed_alter {shelves : KindShelves} (h : ShelvesKeyed shelves) (v : Value)
    {g : Shelf → Shelf} (hg : ∀ shelf : Shelf, shelf.Keyed → (g shelf).Keyed) :
    ShelvesKeyed (shelves.alter v g) := by
  refine ⟨h.1.alter v g, fun r hr => ?_⟩
  obtain ⟨t, ht, rfl⟩ := Table.mem_alter.1 hr
  split
  · exact hg _ (h.2 t ht)
  · exact h.2 t ht

theorem keyed_write {s : Store} (hs : s.Keyed) {a : Address} (hname : a.name.hashable = true)
    (o : Value) : (s.write a o).Keyed :=
  keyed_withShelves hs _ _ fun _ h => shelvesKeyed_alter h _ fun _ hsh => hsh.put o hname

theorem keyed_remove {s : Store} (hs : s.Keyed) (a : Address) : (s.remove a).Keyed :=
  keyed_withShelves hs _ _ fun _ h => shelvesKeyed_alter h _ fun _ hsh => hsh.drop _

/-! ### Dropping empty groups changes no object -/

/-- The shelves of a kind with a version dropped when its shelf is empty. -/
def pruneShelves (apiVersion : Value) (shelves : KindShelves) : KindShelves :=
  if ((shelves.lookup apiVersion).getD []).isEmpty then shelves.drop apiVersion else shelves

/-- The kinds of a namespace with the shelves pruned, and the kind dropped when it has none. -/
def pruneKinds (kind apiVersion : Value) (kinds : Table KindShelves) : Table KindShelves :=
  let kinds := kinds.alter kind (pruneShelves apiVersion)
  if ((kinds.lookup kind).getD []).isEmpty then kinds.drop kind else kinds

theorem content_prune (s : Store) (ns kind apiVersion : Value) :
    (s.prune ns kind apiVersion).content =
      let content := s.content.alter ns (pruneKinds kind apiVersion)
      if ((content.lookup ns).getD []).isEmpty then content.drop ns else content := rfl

theorem objectAt_eq_bind (s : Store) (b : Address) :
    s.objectAt b = (s.content.lookup b.ns).bind (fun kinds => (kinds.lookup b.kind).bind
      (fun shelves => (shelves.lookup b.apiVersion).bind (·.lookup b.name))) := by
  simp only [objectAt, shelvesAt, Option.bind_assoc]

theorem objectAt_prune {s : Store} (hs : s.Keyed) (ns kind apiVersion : Value) (b : Address) :
    (s.prune ns kind apiVersion).objectAt b = s.objectAt b := by
  -- each level drops only an entry with nothing in it, and the level below changes no lookup
  have hshelves : ∀ shelves : KindShelves, ShelvesKeyed shelves →
      ((pruneShelves apiVersion shelves).lookup b.apiVersion).bind (·.lookup b.name) =
        (shelves.lookup b.apiVersion).bind (·.lookup b.name) := fun shelves h =>
    Table.lookup_bind_dropIfEmpty h.1 _ rfl _
  have hkinds : ∀ kinds : Table KindShelves, KindsKeyed kinds →
      ((pruneKinds kind apiVersion kinds).lookup b.kind).bind
          (fun shelves => (shelves.lookup b.apiVersion).bind (·.lookup b.name)) =
        (kinds.lookup b.kind).bind
          (fun shelves => (shelves.lookup b.apiVersion).bind (·.lookup b.name)) := by
    intro kinds h
    rw [pruneKinds, Table.lookup_bind_dropIfEmpty (h.1.alter _ _) _ (by rfl),
      Table.lookup_bind_alter h.1 _ (fun p hp => hshelves p.2 (h.2 p hp))]
  rw [objectAt_eq_bind, objectAt_eq_bind, content_prune,
    Table.lookup_bind_dropIfEmpty (hs.1.alter _ _) _ (by rfl),
    Table.lookup_bind_alter hs.1 _ (fun p hp => hkinds p.2 (hs.2 p hp))]

theorem keyed_prune {s : Store} (hs : s.Keyed) (ns kind apiVersion : Value) :
    (s.prune ns kind apiVersion).Keyed := by
  have hshelves : ∀ shelves : KindShelves, ShelvesKeyed shelves →
      ShelvesKeyed (pruneShelves apiVersion shelves) := by
    intro shelves h
    unfold pruneShelves
    split
    · exact ⟨h.1.drop _, fun p hp => h.2 p (Table.mem_drop.1 hp).1⟩
    · exact h
  have hkinds : ∀ kinds : Table KindShelves, KindsKeyed kinds →
      KindsKeyed (pruneKinds kind apiVersion kinds) := by
    intro kinds h
    have halter : KindsKeyed (kinds.alter kind (pruneShelves apiVersion)) := by
      refine ⟨h.1.alter _ _, fun p hp => ?_⟩
      obtain ⟨q, hq, rfl⟩ := Table.mem_alter.1 hp
      split
      · exact hshelves _ (h.2 q hq)
      · exact h.2 q hq
    unfold pruneKinds
    dsimp only
    split
    · exact ⟨halter.1.drop _, fun p hp => halter.2 p (Table.mem_drop.1 hp).1⟩
    · exact halter
  have halter : Keyed { s with content := s.content.alter ns (pruneKinds kind apiVersion) } := by
    refine ⟨hs.1.alter _ _, fun p hp => ?_⟩
    obtain ⟨q, hq, rfl⟩ := Table.mem_alter.1 hp
    split
    · exact hkinds _ (hs.2 q hq)
    · exact hs.2 q hq
  unfold Keyed
  rw [content_prune]
  dsimp only
  split
  · exact ⟨halter.1.drop _, fun p hp => halter.2 p (Table.mem_drop.1 hp).1⟩
  · exact halter

/-! ### Which objects each step can file

Raw membership is what a listing sees. Opening groups, removing and pruning file no new object;
a write files only its own object, under keys equal to its address, or spelled as the address
when the name was not yet on the shelf.
-/

theorem filed_withShelves {s : Store} {ns kind : Value} {f : KindShelves → KindShelves}
    {b : Address} {o : Value} (h : (s.withShelves ns kind f).Filed b o) :
    s.Filed b o ∨ (b.ns.heldEquiv ns = true ∧ b.kind.heldEquiv kind = true ∧
      ∃ kinds shelves shelf, (b.ns, kinds) ∈ s.content ∧ (b.kind, shelves) ∈ kinds ∧
        (b.apiVersion, shelf) ∈ f shelves ∧ (b.name, o) ∈ shelf) := by
  obtain ⟨kinds', shelves', shelf, h₁, h₂, h₃, h₄⟩ := h
  rw [content_withShelves] at h₁
  obtain ⟨⟨n, kinds⟩, hm₁, e₁⟩ := Table.mem_alter.1 h₁
  split_ifs at e₁ with hn
  · simp only [Prod.mk.injEq] at e₁
    obtain ⟨rfl, rfl⟩ := e₁
    obtain ⟨⟨k, shelves⟩, hm₂, e₂⟩ := Table.mem_alter.1 h₂
    split_ifs at e₂ with hk
    · simp only [Prod.mk.injEq] at e₂
      obtain ⟨rfl, rfl⟩ := e₂
      exact .inr ⟨hn, hk, kinds, shelves, shelf, hm₁, hm₂, h₃, h₄⟩
    · exact .inl ⟨kinds, shelves', shelf, hm₁, e₂ ▸ hm₂, h₃, h₄⟩
  · exact .inl ⟨kinds', shelves', shelf, e₁ ▸ hm₁, h₂, h₃, h₄⟩

theorem filed_openNamespace {s : Store} {ns : Value} {b : Address} {o : Value}
    (h : (s.openNamespace ns).Filed b o) : s.Filed b o := by
  obtain ⟨kinds, shelves, shelf, h₁, h₂, h₃, h₄⟩ := h
  rw [content_openNamespace] at h₁
  rcases Table.mem_ensure.1 h₁ with h₁ | ⟨-, e⟩
  · exact ⟨kinds, shelves, shelf, h₁, h₂, h₃, h₄⟩
  · simp only [Prod.mk.injEq] at e
    simp [e.2] at h₂

theorem filed_openKind {s : Store} {ns kind : Value} {b : Address} {o : Value}
    (h : (s.openKind ns kind).Filed b o) : s.Filed b o := by
  obtain ⟨kinds', shelves, shelf, h₁, h₂, h₃, h₄⟩ := h
  rw [content_openKind] at h₁
  obtain ⟨⟨n, kinds⟩, hm₁, e₁⟩ := Table.mem_alter.1 h₁
  split_ifs at e₁
  · simp only [Prod.mk.injEq] at e₁
    obtain ⟨rfl, rfl⟩ := e₁
    rcases Table.mem_ensure.1 h₂ with h₂ | ⟨-, e⟩
    · exact ⟨kinds, shelves, shelf, hm₁, h₂, h₃, h₄⟩
    · simp only [Prod.mk.injEq] at e
      simp [e.2] at h₃
  · exact ⟨kinds', shelves, shelf, e₁ ▸ hm₁, h₂, h₃, h₄⟩

theorem filed_openVersion {s : Store} {ns kind v : Value} {b : Address} {o : Value}
    (h : (s.withShelves ns kind (·.ensure v [])).Filed b o) : s.Filed b o := by
  rcases filed_withShelves h with h | ⟨-, -, kinds, shelves, shelf, h₁, h₂, h₃, h₄⟩
  · exact h
  · rcases Table.mem_ensure.1 h₃ with h₃ | ⟨-, e⟩
    · exact ⟨kinds, shelves, shelf, h₁, h₂, h₃, h₄⟩
    · simp only [Prod.mk.injEq] at e
      simp [e.2] at h₄

/-- A write files its object under keys equal to its address (the name spelled as the address
when it was new), and leaves every other object where it was. -/
theorem filed_write {s : Store} {a : Address} {o : Value} {b : Address} {o' : Value}
    (h : (s.write a o).Filed b o') :
    s.Filed b o' ∨ (o' = o ∧ b.ns.heldEquiv a.ns = true ∧ b.kind.heldEquiv a.kind = true ∧
      b.apiVersion.heldEquiv a.apiVersion = true ∧ (b.name.heldEquiv a.name = true ∨ b.name = a.name)) := by
  rcases filed_withShelves h with h | ⟨hn, hk, kinds, shelves, shelf, h₁, h₂, h₃, h₄⟩
  · exact .inl h
  obtain ⟨⟨v, sh⟩, hm₃, e₃⟩ := Table.mem_alter.1 h₃
  split_ifs at e₃ with hv
  · simp only [Prod.mk.injEq] at e₃
    obtain ⟨rfl, rfl⟩ := e₃
    rcases Table.mem_put.1 h₄ with ⟨⟨x, y⟩, hq, e₄⟩ | ⟨-, e₄⟩
    · split_ifs at e₄ with hx
      · simp only [Prod.mk.injEq] at e₄
        obtain ⟨rfl, rfl⟩ := e₄
        exact .inr ⟨rfl, hn, hk, hv, .inl hx⟩
      · exact .inl ⟨kinds, shelves, sh, h₁, h₂, hm₃, e₄ ▸ hq⟩
    · simp only [Prod.mk.injEq] at e₄
      exact .inr ⟨e₄.2, hn, hk, hv, .inr e₄.1⟩
  · exact .inl ⟨kinds, shelves, shelf, h₁, h₂, e₃ ▸ hm₃, h₄⟩

theorem filed_remove {s : Store} {a b : Address} {o : Value} (h : (s.remove a).Filed b o) :
    s.Filed b o := by
  rcases filed_withShelves h with h | ⟨-, -, kinds, shelves, shelf, h₁, h₂, h₃, h₄⟩
  · exact h
  obtain ⟨⟨v, sh⟩, hm₃, e₃⟩ := Table.mem_alter.1 h₃
  split_ifs at e₃
  · simp only [Prod.mk.injEq] at e₃
    obtain ⟨rfl, rfl⟩ := e₃
    exact ⟨kinds, shelves, sh, h₁, h₂, hm₃, (Table.mem_drop.1 h₄).1⟩
  · exact ⟨kinds, shelves, shelf, h₁, h₂, e₃ ▸ hm₃, h₄⟩

theorem mem_pruneShelves {v : Value} {shelves : KindShelves} {p : Value × Shelf}
    (h : p ∈ pruneShelves v shelves) : p ∈ shelves := by
  unfold pruneShelves at h
  split at h
  · exact (Table.mem_drop.1 h).1
  · exact h

theorem mem_pruneKinds {kind v : Value} {kinds : Table KindShelves} {p : Value × KindShelves}
    (h : p ∈ pruneKinds kind v kinds) :
    ∃ shelves, (p.1, shelves) ∈ kinds ∧ ∀ q ∈ p.2, q ∈ shelves := by
  have h' : p ∈ kinds.alter kind (pruneShelves v) := by
    unfold pruneKinds at h
    dsimp only at h
    split at h
    · exact (Table.mem_drop.1 h).1
    · exact h
  obtain ⟨⟨k, shelves⟩, hm, e⟩ := Table.mem_alter.1 h'
  split_ifs at e
  · subst e
    exact ⟨shelves, hm, fun q hq => mem_pruneShelves hq⟩
  · subst e
    exact ⟨shelves, hm, fun q hq => hq⟩

theorem filed_prune {s : Store} {ns kind v : Value} {b : Address} {o : Value}
    (h : (s.prune ns kind v).Filed b o) : s.Filed b o := by
  obtain ⟨kinds', shelves', shelf, h₁, h₂, h₃, h₄⟩ := h
  rw [content_prune] at h₁
  have h₁' : (b.ns, kinds') ∈ s.content.alter ns (pruneKinds kind v) := by
    dsimp only at h₁
    split at h₁
    · exact (Table.mem_drop.1 h₁).1
    · exact h₁
  obtain ⟨⟨n, kinds⟩, hm₁, e₁⟩ := Table.mem_alter.1 h₁'
  split_ifs at e₁
  · simp only [Prod.mk.injEq] at e₁
    obtain ⟨rfl, rfl⟩ := e₁
    obtain ⟨shelves, hm₂, hsub⟩ := mem_pruneKinds h₂
    exact ⟨kinds, shelves, shelf, hm₁, hm₂, hsub _ h₃, h₄⟩
  · exact ⟨kinds', shelves', shelf, e₁ ▸ hm₁, h₂, h₃, h₄⟩

/-! ### What lookups and listings of one kind see

`Store.get` and `Store.list` read a kind through its shelves in each namespace and, for a
listing of all namespaces, through the order of the namespaces. A step about another kind
changes neither (`SameKind`).
-/

/-- Two stores show lookups and listings of a kind the same objects: the same shelves of the
kind in every namespace, and the namespaces holding the kind in the same order. -/
def SameKind (K : Value) (s s' : Store) : Prop :=
  (∀ n, s.shelvesAt n K = s'.shelvesAt n K) ∧
    s.content.keys.filter (fun n => (s.shelvesAt n K).isSome) =
      s'.content.keys.filter (fun n => (s'.shelvesAt n K).isSome)

theorem SameKind.refl (K : Value) (s : Store) : SameKind K s s := ⟨fun _ => rfl, rfl⟩

theorem SameKind.trans {K : Value} {s₁ s₂ s₃ : Store} (h₁ : SameKind K s₁ s₂)
    (h₂ : SameKind K s₂ s₃) : SameKind K s₁ s₃ :=
  ⟨fun n => (h₁.1 n).trans (h₂.1 n), h₁.2.trans h₂.2⟩

theorem SameKind.symm {K : Value} {s s' : Store} (h : SameKind K s s') : SameKind K s' s :=
  ⟨fun n => (h.1 n).symm, h.2.symm⟩

theorem sameKind_of_content_eq (K : Value) {s s' : Store} (h : s.content = s'.content) :
    SameKind K s s' := by
  simp only [SameKind, shelvesAt, h]
  exact ⟨fun _ => trivial, trivial⟩

theorem shelvesOf_eq (s : Store) (ns kind : Value) :
    s.shelvesOf ns kind = (do requireKey ns; requireKey kind; pure ((s.shelvesAt ns kind).getD [])) :=
  rfl

theorem get_eq_of_sameKind {K : Value} {s s' : Store} (h : SameKind K s s') (name ns v : Value) :
    s.get K name ns v = s'.get K name ns v := by
  simp only [get, shelvesOf_eq, h.1 ns]

theorem mapM_shelvesOf (s : Store) {K : Value} (hK : K.hashable = true)
    (g : KindShelves → List Value) (ks : List Value) (hks : ∀ n ∈ ks, n.hashable = true) :
    ks.mapM (fun n => do let shelves ← s.shelvesOf n K; pure (g shelves)) =
      .ok (ks.map (fun n => g ((s.shelvesAt n K).getD []))) := by
  induction ks with
  | nil => rfl
  | cons n ks ih =>
    rw [List.mapM_cons, ih (fun m hm => hks m (List.mem_cons_of_mem _ hm))]
    simp [shelvesOf_eq, requireKey, hks n List.mem_cons_self, hK]
    rfl

theorem flatten_map_filter {ks : List Value} {G : Value → List Value} {P : Value → Bool}
    (h : ∀ n, P n = false → G n = []) : (ks.map G).flatten = ((ks.filter P).map G).flatten := by
  induction ks with
  | nil => rfl
  | cons n ks ih =>
    cases hn : P n
    · simp [hn, h n hn, ih]
    · simp [hn, ih]

theorem keys_hashable {s : Store} (hs : s.Keyed) : ∀ n ∈ s.content.keys, n.hashable = true := by
  intro n hn
  obtain ⟨p, hp, rfl⟩ := List.mem_map.1 hn
  exact hs.1.hashable p hp

/-- Stores that show a kind alike answer the same listings of it. -/
theorem list_eq_of_sameKind {K : Value} (hK : K.hashable = true) {s s' : Store} (hs : s.Keyed)
    (hs' : s'.Keyed) (h : SameKind K s s') (ns v l f : Value) :
    s.list K ns v l f = s'.list K ns v l f := by
  have hof : ∀ n, s.shelvesOf n K = s'.shelvesOf n K := fun n => by
    simp only [shelvesOf_eq, h.1 n]
  unfold list
  -- namespaces without shelves of the kind add nothing to a listing of all namespaces
  have hdrop : ∀ t : Store, (t.content.keys.map (fun n =>
      (((t.shelvesAt n K).getD []).filter (fun p => versionFits v p.1)).flatMap
        (fun p => p.2.entries))).flatten =
      ((t.content.keys.filter (fun n => (t.shelvesAt n K).isSome)).map (fun n =>
      (((t.shelvesAt n K).getD []).filter (fun p => versionFits v p.1)).flatMap
        (fun p => p.2.entries))).flatten := by
    intro t
    refine flatten_map_filter (fun n hn => ?_)
    cases hx : t.shelvesAt n K <;> simp_all
  by_cases hn : ns.isNull = true
  · simp only [hn, if_true]
    rw [mapM_shelvesOf s hK _ _ (keys_hashable hs), mapM_shelvesOf s' hK _ _ (keys_hashable hs')]
    simp only [bind, Except.bind]
    rw [hdrop s, hdrop s', h.2]
    simp only [h.1]
  · simp only [hn, Bool.false_eq_true, if_false, hof]

theorem sameKind_openNamespace {s : Store} {ns : Value} (hns : ns.hashable = true) (K : Value) :
    SameKind K s (s.openNamespace ns) := by
  refine ⟨fun n => (shelvesAt_openNamespace hns n K).symm, ?_⟩
  simp only [shelvesAt_openNamespace hns, content_openNamespace, Table.ensure]
  split
  · rfl
  · rename_i hh
    have hnone : s.shelvesAt ns K = none := by
      simp [shelvesAt, Table.lookup_eq_none_iff.2 (Table.holds_eq_false_iff.1 (by simpa using hh))]
    simp [Table.keys, hnone]

theorem shelvesAt_openKind {s : Store} (hs : s.Keyed) (ns : Value) {kind K : Value}
    (hK : kind.heldEquiv K = false) (n : Value) :
    (s.openKind ns kind).shelvesAt n K = s.shelvesAt n K := by
  simp only [shelvesAt, content_openKind, Table.lookup_alter hs.1]
  split
  · cases s.content.lookup n with
    | none => rfl
    | some kinds =>
      simp only [Option.map_some, Option.bind_some, Table.lookup_ensure, hK]
      split <;> simp
  · rfl

theorem sameKind_openKind {s : Store} (hs : s.Keyed) (ns : Value) {kind K : Value}
    (hK : kind.heldEquiv K = false) : SameKind K s (s.openKind ns kind) := by
  refine ⟨fun n => (shelvesAt_openKind hs ns hK n).symm, ?_⟩
  simp only [shelvesAt_openKind hs ns hK, content_openKind, Table.keys_alter]

theorem sameKind_withShelves {s : Store} (hs : s.Keyed) (ns : Value) {kind K : Value}
    (hK : K.heldEquiv kind = false) (f : KindShelves → KindShelves) :
    SameKind K s (s.withShelves ns kind f) := by
  have hat : ∀ n, (s.withShelves ns kind f).shelvesAt n K = s.shelvesAt n K := fun n => by
    simp [shelvesAt_withShelves hs, hK]
  refine ⟨fun n => (hat n).symm, ?_⟩
  simp only [hat, content_withShelves, Table.keys_alter]

theorem lookup_pruneKinds {kind K : Value} (hK : K.heldEquiv kind = false) (v : Value)
    {kinds : Table KindShelves} (hkinds : kinds.Keyed) :
    (pruneKinds kind v kinds).lookup K = kinds.lookup K := by
  unfold pruneKinds
  dsimp only
  split
  · rw [Table.lookup_drop (hkinds.alter _ _), Table.lookup_alter hkinds]
    simp [hK]
  · rw [Table.lookup_alter hkinds]
    simp [hK]

theorem shelvesAt_prune {s : Store} (hs : s.Keyed) (ns : Value) {kind K : Value}
    (hK : K.heldEquiv kind = false) (v n : Value) :
    (s.prune ns kind v).shelvesAt n K = s.shelvesAt n K := by
  simp only [shelvesAt, content_prune]
  rw [Table.lookup_bind_dropIfEmpty (hs.1.alter _ _) _ rfl,
    Table.lookup_bind_alter hs.1 _ (fun p hp => by rw [lookup_pruneKinds hK v (hs.2 p hp).1])]

theorem sameKind_prune {s : Store} (hs : s.Keyed) (ns : Value) {kind K : Value}
    (hK : K.heldEquiv kind = false) (v : Value) : SameKind K s (s.prune ns kind v) := by
  refine ⟨fun n => (shelvesAt_prune hs ns hK v n).symm, ?_⟩
  simp only [shelvesAt_prune hs ns hK, content_prune]
  split
  · -- the namespace dropped holds nothing, so it shows no shelves of the kind
    rename_i he
    rw [Table.keys_drop, Table.keys_alter, List.filter_filter]
    refine List.filter_congr (fun n hn => ?_)
    cases hat : (s.shelvesAt n K).isSome
    · rfl
    · have hnk : n.heldEquiv ns = false := by
        cases h : n.heldEquiv ns
        · rfl
        · have hsame := Table.lookup_congr (s.content.alter ns (pruneKinds kind v))
            (keys_hashable hs n hn) h
          obtain ⟨shelves, hsh⟩ := Option.isSome_iff_exists.1 hat
          have hlook : ((s.content.alter ns (pruneKinds kind v)).lookup n).bind (·.lookup K) =
              some shelves := by
            rw [Table.lookup_bind_alter hs.1 _
              (fun p hp => by rw [lookup_pruneKinds hK v (hs.2 p hp).1])]
            exact hsh
          rw [hsame] at hlook
          cases hl : (s.content.alter ns (pruneKinds kind v)).lookup ns with
          | none => simp [hl] at hlook
          | some kinds =>
            rw [hl] at he hlook
            simp only [Option.getD_some, List.isEmpty_iff] at he
            simp [he, Table.lookup_nil] at hlook
      simp [hnk]
  · rw [Table.keys_alter]

end Store

end OperandLifecycle.Cluster

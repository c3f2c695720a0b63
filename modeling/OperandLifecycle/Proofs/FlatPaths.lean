import OperandLifecycle.Proofs.ValidationPaths
/-!
# Flat maps of nested objects

A field selector is evaluated on an object flattened to a map of dotted names (`flatten`):
every value of the object that is no object, reached through objects (`leafPaths`), under the
names of its keys joined with dots, where a key under the empty prefix is written without a
dot. The prefix is tested for being empty, not for being the top: a walk on from an empty key at
the top stays under the empty prefix, so the leading empty keys of a path are dropped from its
name (`flatten_eq_insertAll`).

When no empty key at the top holds an object, in an object with distinct keys none of which has
a dot, every leaf has its own name, its dotted key path; the flat map lists exactly these names,
and under each one the value that a dotted lookup (`Value.getPath`) finds at it
(`flatten_lists_leaves`).
-/

namespace OperandLifecycle.Cluster

open Json Config

/-- The values of a nested object that are no objects, with their key paths, in the object's
order: an object is walked, any other value is a leaf. -/
def leafPaths : Fields → List (List String × Value)
  | [] => []
  | (k, .obj inner) :: rest => (leafPaths inner).map (fun r => (k :: r.1, r.2)) ++ leafPaths rest
  | (k, v) :: rest => ([k], v) :: leafPaths rest

/-- The flattening inserts the leaves under the names its prefixes give their key paths. -/
theorem flattenInto_eq (acc : Fields) (pfx : String) (fs : Fields) :
    flattenInto acc pfx fs =
      insertAll acc ((leafPaths fs).map (fun r => (r.1.foldl joinKey pfx, r.2))) := by
  -- the walk of the flattening is the walk of `leafPaths`: into a subtree, and on to the members
  induction fs using leafPaths.induct generalizing acc pfx with
  | case1 =>
    rw [flattenInto]
    simp [leafPaths, insertAll]
  | case2 k inner rest ih_inner ih_rest =>
    rw [flattenInto, ih_rest]
    simp only [ih_inner, leafPaths, List.map_append, List.map_map, insertAll, List.foldl_append]
    rfl
  | case3 k v rest hv ih =>
    rw [flattenInto, ih, leafPaths.eq_3 k v rest hv]
    · simp [insertAll, joinKey]
    · exact hv

/-- Under the empty prefix a key path is named by its dotted name without its leading empty
keys. -/
theorem foldl_joinKey_empty_eq (p : List String) :
    p.foldl joinKey "" = dotted (p.dropWhile (· == "")) := by
  induction p with
  | nil => rfl
  | cons k rest ih =>
    rw [List.foldl_cons]
    by_cases hk : k = ""
    · subst hk
      simpa [joinKey] using ih
    · have hjoin : joinKey "" k = k := rfl
      rw [hjoin, foldl_joinKey_of_ne hk, List.dropWhile_cons_of_neg (by simpa using hk)]
      by_cases hrest : rest = []
      · simp [hrest, dotted]
      · rw [if_neg hrest]
        unfold dotted
        rw [String.intercalate_cons_of_ne_nil hrest]

/-- The flat map of a nested object: its leaves inserted in order, each under its dotted key
path without the leading empty keys. -/
theorem flatten_eq_insertAll (fs : Fields) :
    flatten fs = insertAll [] ((leafPaths fs).map fun r => (dotted (r.1.dropWhile (· == "")), r.2)) := by
  rw [flatten, flattenInto_eq]
  simp only [foldl_joinKey_empty_eq]

/-! ### Where the leaves are -/

theorem isObj_eq_false_of_mem_leafPaths {fs : Fields} {r : List String × Value}
    (hr : r ∈ leafPaths fs) : r.2.isObj = false := by
  induction fs using leafPaths.induct generalizing r with
  | case1 => simp [leafPaths] at hr
  | case2 k inner rest ih_inner ih_rest =>
    rw [leafPaths, List.mem_append] at hr
    rcases hr with hr | hr
    · obtain ⟨r', hr', rfl⟩ := List.mem_map.1 hr
      exact ih_inner (r := r') hr'
    · exact ih_rest hr
  | case3 k v rest hv ih =>
    rw [leafPaths.eq_3 k v rest hv, List.mem_cons] at hr
    rcases hr with rfl | hr
    · cases v <;> simp_all [Value.isObj]
    · exact ih hr

/-- Every leaf lies under a key of the object's top. -/
theorem exists_head_of_mem_leafPaths {fs : Fields} {r : List String × Value}
    (hr : r ∈ leafPaths fs) : ∃ k more, r.1 = k :: more ∧ k ∈ Fields.keys fs := by
  induction fs using leafPaths.induct with
  | case1 => simp [leafPaths] at hr
  | case2 k inner rest _ ih_rest =>
    rw [leafPaths, List.mem_append] at hr
    rcases hr with hr | hr
    · obtain ⟨r', _, rfl⟩ := List.mem_map.1 hr
      exact ⟨k, r'.1, rfl, by simp [Fields.keys]⟩
    · obtain ⟨k', more, h, hk'⟩ := ih_rest hr
      exact ⟨k', more, h, List.mem_cons_of_mem _ hk'⟩
  | case3 k v rest hv ih =>
    rw [leafPaths.eq_3 k v rest hv, List.mem_cons] at hr
    rcases hr with rfl | hr
    · exact ⟨k, [], rfl, by simp [Fields.keys]⟩
    · obtain ⟨k', more, h, hk'⟩ := ih hr
      exact ⟨k', more, h, List.mem_cons_of_mem _ hk'⟩

/-- The keys on a leaf's path are keys of the object, at their depths. -/
theorem keysAll_of_mem_leafPaths {P : String → Prop} {fs : Fields} (h : (Value.obj fs).KeysAll P)
    {r : List String × Value} (hr : r ∈ leafPaths fs) : ∀ k ∈ r.1, P k := by
  induction fs using leafPaths.induct generalizing r with
  | case1 => simp [leafPaths] at hr
  | case2 k inner rest ih_inner ih_rest =>
    have htop := h.member (List.mem_cons_self ..)
    have hrest : (Value.obj rest).KeysAll P :=
      .obj (fun q hq => (h.member (List.mem_cons_of_mem _ hq)).1)
        fun q hq => (h.member (List.mem_cons_of_mem _ hq)).2
    rw [leafPaths, List.mem_append] at hr
    rcases hr with hr | hr
    · obtain ⟨r', hr', rfl⟩ := List.mem_map.1 hr
      intro k' hk'
      rcases List.mem_cons.1 hk' with rfl | hk'
      · exact htop.1
      · exact ih_inner htop.2 hr' k' hk'
    · exact ih_rest hrest hr
  | case3 k v rest hv ih =>
    have hrest : (Value.obj rest).KeysAll P :=
      .obj (fun q hq => (h.member (List.mem_cons_of_mem _ hq)).1)
        fun q hq => (h.member (List.mem_cons_of_mem _ hq)).2
    rw [leafPaths.eq_3 k v rest hv, List.mem_cons] at hr
    rcases hr with rfl | hr
    · simpa using (h.member (List.mem_cons_self ..)).1
    · exact ih hrest hr

/-- A path through objects to a value that is no object is a leaf's path. -/
theorem mem_leafPaths_of_atPath {fs : Fields} {p : List String} {v : Value} (hp : p ≠ [])
    (hat : (Value.obj fs).atPath p = some v) (hv : v.isObj = false) : (p, v) ∈ leafPaths fs := by
  induction fs using leafPaths.induct generalizing p with
  | case1 =>
    obtain ⟨k, more, rfl⟩ := List.exists_cons_of_ne_nil hp
    simp [Value.atPath, Value.get?_obj, Fields.get?] at hat
  | case2 k₀ inner rest ih_inner ih_rest =>
    obtain ⟨k, more, rfl⟩ := List.exists_cons_of_ne_nil hp
    rw [leafPaths, List.mem_append]
    by_cases hk : k₀ = k
    · -- the path enters the subtree of its first key
      subst hk
      have hinner : (Value.obj inner).atPath more = some v := by
        simpa [Value.atPath, Value.get?_obj, Fields.get?_cons] using hat
      have hmore : more ≠ [] := by
        rintro rfl
        simp only [Value.atPath, Option.some.injEq] at hinner
        simp [← hinner, Value.isObj] at hv
      exact .inl (List.mem_map.2 ⟨(more, v), ih_inner hmore hinner, rfl⟩)
    · have hrest : (Value.obj rest).atPath (k :: more) = some v := by
        simpa [Value.atPath, Value.get?_obj, Fields.get?_cons, hk] using hat
      exact .inr (ih_rest (List.cons_ne_nil _ _) hrest)
  | case3 k₀ v₀ rest hv₀ ih =>
    obtain ⟨k, more, rfl⟩ := List.exists_cons_of_ne_nil hp
    rw [leafPaths.eq_3 k₀ v₀ rest hv₀, List.mem_cons]
    by_cases hk : k₀ = k
    · -- a value that is no object ends every path through it
      subst hk
      have hleaf : v₀.atPath more = some v := by
        simpa [Value.atPath, Value.get?_obj, Fields.get?_cons] using hat
      rcases more with _ | ⟨m, ms⟩
      · simp only [Value.atPath, Option.some.injEq] at hleaf
        exact .inl (by rw [hleaf])
      · cases v₀ <;> simp_all [Value.atPath, Value.get?]
    · have hrest : (Value.obj rest).atPath (k :: more) = some v := by
        simpa [Value.atPath, Value.get?_obj, Fields.get?_cons, hk] using hat
      exact .inr (ih (List.cons_ne_nil _ _) hrest)

/-- In an object with distinct keys, each leaf is what its key path leads to, and the object can
be read along that path. -/
theorem located_of_mem_leafPaths {fs : Fields} (h : (Value.obj fs).WellKeyed)
    {r : List String × Value} (hr : r ∈ leafPaths fs) :
    (Value.obj fs).atPath r.1 = some r.2 ∧ Walkable (.obj fs) r.1 := by
  induction fs using leafPaths.induct generalizing r with
  | case1 => simp [leafPaths] at hr
  | case2 k inner rest ih_inner ih_rest =>
    have hk : k ∉ Fields.keys rest := (List.nodup_cons.1 h.keys_nodup).1
    have hget : (Value.obj ((k, .obj inner) :: rest)).get? k = some (.obj inner) := by
      simp [Value.get?_obj, Fields.get?_cons]
    rw [leafPaths, List.mem_append] at hr
    rcases hr with hr | hr
    · -- a leaf of the subtree, under the subtree's key
      obtain ⟨r', hr', rfl⟩ := List.mem_map.1 hr
      obtain ⟨hat, hwalk⟩ := ih_inner (h.member (List.mem_cons_self ..)) hr'
      exact ⟨by simpa [Value.atPath, hget] using hat, Walkable.cons hget hwalk⟩
    · exact located_cons hk (exists_head_of_mem_leafPaths hr) (ih_rest (wellKeyed_tail h) hr)
  | case3 k v rest hv ih =>
    rw [leafPaths.eq_3 k v rest hv, List.mem_cons] at hr
    rcases hr with rfl | hr
    · have hget : (Value.obj ((k, v) :: rest)).get? k = some v := by
        simp [Value.get?_obj, Fields.get?_cons]
      exact ⟨by simp [Value.atPath, hget], Walkable.cons hget (Walkable.nil _)⟩
    · exact located_cons (List.nodup_cons.1 h.keys_nodup).1 (exists_head_of_mem_leafPaths hr)
        (ih (wellKeyed_tail h) hr)

/-- In an object with distinct keys, the leaves have distinct key paths. -/
theorem nodup_leafPaths {fs : Fields} (h : (Value.obj fs).WellKeyed) :
    ((leafPaths fs).map (·.1)).Nodup := by
  induction fs using leafPaths.induct with
  | case1 => simp [leafPaths]
  | case2 k inner rest ih_inner ih_rest =>
    have hk : k ∉ Fields.keys rest := (List.nodup_cons.1 h.keys_nodup).1
    rw [leafPaths, List.map_append, List.nodup_append]
    refine ⟨?_, ih_rest (wellKeyed_tail h), ?_⟩
    · have hinner := ih_inner (h.member (List.mem_cons_self ..))
      convert hinner.map (List.cons_injective (a := k)) using 1
      simp [List.map_map, Function.comp_def]
    · -- the paths of this member start with its key, the later ones with later keys
      intro a ha b hb hab
      obtain ⟨ra, hra, rfl⟩ := List.mem_map.1 ha
      obtain ⟨r', _, rfl⟩ := List.mem_map.1 hra
      obtain ⟨rb, hrb, rfl⟩ := List.mem_map.1 hb
      obtain ⟨k', more, hrb1, hk'⟩ := exists_head_of_mem_leafPaths hrb
      rw [hrb1] at hab
      exact hk ((List.cons.inj hab).1 ▸ hk')
  | case3 k v rest hv ih =>
    have hk : k ∉ Fields.keys rest := (List.nodup_cons.1 h.keys_nodup).1
    rw [leafPaths.eq_3 k v rest hv, List.map_cons, List.nodup_cons]
    refine ⟨fun hmem => ?_, ih (wellKeyed_tail h)⟩
    obtain ⟨rb, hrb, hrb1⟩ := List.mem_map.1 hmem
    obtain ⟨k', more, hrb1', hk'⟩ := exists_head_of_mem_leafPaths hrb
    rw [hrb1', List.cons.injEq] at hrb1
    exact hk (hrb1.1 ▸ hk')

/-! ### The names of the leaves -/

/-- A leaf under an empty key at the top is that key's own value when no empty key at the top
holds an object. -/
theorem top_of_mem_leafPaths {fs : Fields} (h : (Value.obj fs).WellKeyed)
    (htop : ∀ v, Fields.get? fs "" = some v → v.isObj = false) {r : List String × Value}
    (hr : r ∈ leafPaths fs) : r.1.head? = some "" → r.1 = [""] := by
  intro hhead
  obtain ⟨k, more, hr1, -⟩ := exists_head_of_mem_leafPaths hr
  rw [hr1, List.head?_cons, Option.some.injEq] at hhead
  subst hhead
  rw [hr1]
  rcases more with _ | ⟨m, ms⟩
  · rfl
  -- a longer path goes on from the value of the empty key, which is then an object
  have hat := (located_of_mem_leafPaths h hr).1
  rw [hr1] at hat
  cases hw : Fields.get? fs "" with
  | none => simp [Value.atPath, Value.get?_obj, hw] at hat
  | some w =>
    have hw' := htop w hw
    cases w <;> simp_all [Value.atPath, Value.get?, Value.isObj]

/-- A key path that does not walk on from an empty key at the top keeps its dotted name when
its leading empty keys are dropped. -/
theorem dotted_dropWhile {p : List String} (htop : p.head? = some "" → p = [""]) :
    dotted (p.dropWhile (· == "")) = dotted p := by
  rcases p with _ | ⟨k, rest⟩
  · rfl
  · by_cases hk : k = ""
    · subst hk
      rw [htop rfl]
      rfl
    · rw [List.dropWhile_cons_of_neg (by simpa using hk)]

section Names

variable {fs : Fields} (hwk : (Value.obj fs).WellKeyed)
  (hdot : (Value.obj fs).KeysAll (fun k => '.' ∉ k.toList))
  (htop : ∀ v, Fields.get? fs "" = some v → v.isObj = false)
include hwk hdot htop

theorem nameable_of_mem_leafPaths {r : List String × Value} (hr : r ∈ leafPaths fs) :
    Nameable r.1 :=
  ⟨keysAll_of_mem_leafPaths hdot hr, top_of_mem_leafPaths hwk htop hr⟩

/-- The leaves have distinct dotted names. -/
theorem nodup_dotted_leafPaths : ((leafPaths fs).map (dotted ·.1)).Nodup := by
  have hcomp : (leafPaths fs).map (dotted ·.1) = ((leafPaths fs).map (·.1)).map dotted := by
    simp [List.map_map, Function.comp_def]
  rw [hcomp]
  refine (nodup_leafPaths hwk).map_on ?_
  intro p hp q hq hpq
  obtain ⟨rp, hrp, rfl⟩ := List.mem_map.1 hp
  obtain ⟨rq, hrq, rfl⟩ := List.mem_map.1 hq
  obtain ⟨_, _, hp1, _⟩ := exists_head_of_mem_leafPaths hrp
  obtain ⟨_, _, hq1, _⟩ := exists_head_of_mem_leafPaths hrq
  exact dotted_inj (by simp [hp1]) (by simp [hq1])
    (nameable_of_mem_leafPaths hwk hdot htop hrp).no_dot
    (nameable_of_mem_leafPaths hwk hdot htop hrq).no_dot hpq

/-- The flat map lists each leaf under its dotted key path, in the object's order. -/
theorem flatten_eq_map : flatten fs = (leafPaths fs).map (fun r => (dotted r.1, r.2)) := by
  have hnames : (leafPaths fs).map (fun r => (dotted (r.1.dropWhile (· == "")), r.2)) =
      (leafPaths fs).map (fun r => (dotted r.1, r.2)) :=
    List.map_congr_left fun r hr => by
      rw [dotted_dropWhile (nameable_of_mem_leafPaths hwk hdot htop hr).top]
  rw [flatten_eq_insertAll, hnames, insertAll_of_nodup, List.nil_append]
  simpa [Fields.keys, List.map_map, Function.comp_def] using
    nodup_dotted_leafPaths hwk hdot htop

end Names

/-- The flat map of a nested object names each leaf by its dotted key path without the leading
empty keys, inserting the leaves in the object's order. In an object with distinct keys none of
which has a dot, where no empty key at the top holds an object, its names are exactly the dotted
key paths of the values that are no objects, reached through objects, and under each name it
holds the value that a dotted lookup finds there. -/
theorem flatten_names_leaves_unless_empty_top_key (fs : Fields) (hwk : (Value.obj fs).WellKeyed)
    (hdot : (Value.obj fs).KeysAll (fun k => '.' ∉ k.toList)) :
    flatten fs =
      insertAll [] ((leafPaths fs).map fun r => (dotted (r.1.dropWhile (· == "")), r.2)) ∧
    ((∀ v, Fields.get? fs "" = some v → v.isObj = false) →
      (∀ name, name ∈ Fields.keys (flatten fs) ↔ ∃ path v, path ≠ [] ∧
        (Value.obj fs).atPath path = some v ∧ v.isObj = false ∧ name = dotted path) ∧
      ∀ path v, path ≠ [] → (Value.obj fs).atPath path = some v → v.isObj = false →
        Fields.get? (flatten fs) (dotted path) = some v ∧
        (Value.obj fs).getPath (dotted path) .null = .ok v) := by
  refine ⟨flatten_eq_insertAll fs, fun htop => ⟨fun name => ?_, fun path v hp hat hv => ?_⟩⟩
  · rw [flatten_eq_map hwk hdot htop]
    simp only [Fields.keys, List.map_map, List.mem_map, Function.comp_def]
    constructor
    · rintro ⟨r, hr, rfl⟩
      obtain ⟨_, _, hr1, _⟩ := exists_head_of_mem_leafPaths hr
      exact ⟨r.1, r.2, by simp [hr1], (located_of_mem_leafPaths hwk hr).1,
        isObj_eq_false_of_mem_leafPaths hr, rfl⟩
    · rintro ⟨path, v, hp, hat, hv, rfl⟩
      exact ⟨(path, v), mem_leafPaths_of_atPath hp hat hv, rfl⟩
  · have hr := mem_leafPaths_of_atPath hp hat hv
    have hnd : (Fields.keys (flatten fs)).Nodup := by
      rw [flatten_eq_map hwk hdot htop]
      simpa [Fields.keys, List.map_map, Function.comp_def] using
        nodup_dotted_leafPaths hwk hdot htop
    refine ⟨Fields.get?_of_mem hnd ?_, ?_⟩
    · rw [flatten_eq_map hwk hdot htop]
      exact List.mem_map.2 ⟨(path, v), hr, rfl⟩
    · -- the dotted lookup splits the name into the path again and walks it
      rw [getPath_dotted fs hp (nameable_of_mem_leafPaths hwk hdot htop hr).no_dot,
        followPath_eq_atPath hp (located_of_mem_leafPaths hwk hr).2, hat]
      rfl

/-- A resource's name is listed under `metadata.name`, where a dotted lookup finds it. -/
theorem flatten_lists_metadata_name :
    Fields.get? (flatten [("kind", .str "EtcdCluster"), ("metadata", .obj [("name", .str "example")])])
        "metadata.name" = some (.str "example") ∧
    (Value.obj [("kind", .str "EtcdCluster"), ("metadata", .obj [("name", .str "example")])]).getPath
        "metadata.name" .null = .ok (.str "example") := by
  have hwk : (Value.obj [("kind", .str "EtcdCluster"),
      ("metadata", .obj [("name", .str "example")])]).WellKeyed :=
    (Value.keysAll_of_checkKeys (p := fun _ => true) (by decide)).1
  have hdot : (Value.obj [("kind", .str "EtcdCluster"),
      ("metadata", .obj [("name", .str "example")])]).KeysAll (fun k => '.' ∉ k.toList) :=
    .obj (by simp) (by simp; exact ⟨.scalar rfl rfl, .obj (by simp) (by simp; exact .scalar rfl rfl)⟩)
  have hname : dotted ["metadata", "name"] = "metadata.name" := rfl
  rw [← hname]
  exact ((flatten_names_leaves_unless_empty_top_key _ hwk hdot).2 (by simp [Fields.get?])).2
    ["metadata", "name"] (.str "example") (by simp) rfl rfl

end OperandLifecycle.Cluster

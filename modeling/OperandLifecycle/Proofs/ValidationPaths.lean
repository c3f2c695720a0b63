import OperandLifecycle.Config.Validation
import OperandLifecycle.Proofs.JsonText
import OperandLifecycle.Proofs.OwnerReferences
/-!
# Validation by dotted paths

A validation tree names its rules by dotted paths (`flattenRules`), and the settings are read
at those paths by splitting them at the dots again (`Value.getPath`). The two recursions agree
when the path of every rule can be written with dots and read back: its keys have no dot in
them, and it does not start from an empty key at the top, whose name the flattening leaves out.
Then, in a validation tree whose objects have distinct keys, every rule has its own dotted
name, the tree read at that name is the rule, and the settings read at it are the value at the
rule's key path. The settings are listed as failing exactly at the rules whose value does not
pass (`passes`), in the tree's order.
-/

namespace OperandLifecycle.Config

open Json

/-- The dotted name of a key path. -/
def dotted (p : List String) : String := ".".intercalate p

/-- The rules of a validation tree with their key paths, in the tree's order: an object holding
a `type` key is a rule and is not entered, another object is walked, any other value skipped. -/
def rulePaths : Fields → List (List String × Value)
  | [] => []
  | (k, .obj inner) :: rest =>
    (if Fields.contains inner "type" then [([k], .obj inner)]
      else (rulePaths inner).map (fun r => (k :: r.1, r.2))) ++ rulePaths rest
  | (_, _) :: rest => rulePaths rest

/-- The name the flattening gives a key under a prefix: the key itself under the empty prefix. -/
def joinKey (pfx k : String) : String := if pfx.isEmpty then k else pfx ++ "." ++ k

/-- The insertions of a list of members into an object, in order. -/
def insertAll (acc : Fields) (l : Fields) : Fields :=
  l.foldl (fun a kv => Fields.insert a kv.1 kv.2) acc

/-- The flattening inserts the rules under the names its prefixes give their key paths. -/
theorem flattenRulesInto_eq (acc : Fields) (pfx : String) (fs : Fields) :
    flattenRulesInto acc pfx fs =
      insertAll acc ((rulePaths fs).map (fun r => (r.1.foldl joinKey pfx, r.2))) := by
  -- the walk of the flattening is the walk of `rulePaths`: into the members, and into a subtree
  induction fs using rulePaths.induct generalizing acc pfx with
  | case1 =>
    rw [flattenRulesInto]
    simp [rulePaths, insertAll]
  | case2 k inner rest ih_inner ih_rest =>
    rw [flattenRulesInto, ih_rest]
    by_cases hrule : Fields.contains inner "type" = true
    · simp [hrule, rulePaths, insertAll, joinKey]
    · simp only [hrule, Bool.false_eq_true, if_false, ih_inner, rulePaths, List.map_append,
        List.map_map, insertAll, List.foldl_append]
      rfl
  | case3 k v rest hv ih =>
    rw [flattenRulesInto, ih, rulePaths.eq_3 k v rest hv]
    exact hv

/-! ### Names written with dots -/

/-- Under a prefix that is not empty, a key path is named by the prefix, a dot and its dotted
name. -/
theorem foldl_joinKey_of_ne {pfx : String} (h : pfx ≠ "") (p : List String) :
    p.foldl joinKey pfx = if p = [] then pfx else pfx ++ "." ++ dotted p := by
  induction p generalizing pfx with
  | nil => rfl
  | cons k rest ih =>
    have hjoin : joinKey pfx k = pfx ++ "." ++ k := by
      simp [joinKey, String.isEmpty_iff, h]
    have hne : pfx ++ "." ++ k ≠ "" := by
      intro he
      have := congrArg String.length he
      simp at this
    rw [List.foldl_cons, hjoin, ih hne]
    by_cases hrest : rest = []
    · simp [hrest, dotted]
    · simp [hrest, dotted, String.intercalate_cons_of_ne_nil hrest, String.append_assoc]

/-- A key path whose dotted name the flattening gives it: one that does not walk on from an
empty key at the top. -/
theorem foldl_joinKey_empty {p : List String} (hp : p ≠ [])
    (htop : p.head? = some "" → p = [""]) : p.foldl joinKey "" = dotted p := by
  obtain ⟨k, rest, rfl⟩ := List.exists_cons_of_ne_nil hp
  have hjoin : joinKey "" k = k := rfl
  rw [List.foldl_cons, hjoin]
  by_cases hrest : rest = []
  · simp [hrest, dotted]
  · have hk : k ≠ "" := by
      rintro rfl
      exact hrest (List.cons.inj (htop rfl)).2
    rw [foldl_joinKey_of_ne hk, if_neg hrest]
    unfold dotted
    rw [String.intercalate_cons_of_ne_nil hrest]

/-- Dotted names split back into their keys when no key has a dot. -/
theorem splitOn_dotted {p : List String} (hp : p ≠ []) (hdot : ∀ k ∈ p, '.' ∉ k.toList) :
    ((dotted p).toList.splitOn '.').map String.ofList = p := by
  have hsep : ".".toList = ['.'] := rfl
  rw [dotted, String.toList_intercalate, hsep, List.splitOn_intercalate '.' (by simpa using hdot)
    (by simpa using hp), List.map_map]
  simp

/-- Key paths without dots have distinct dotted names. -/
theorem dotted_inj {p q : List String} (hp : p ≠ []) (hq : q ≠ [])
    (hpdot : ∀ k ∈ p, '.' ∉ k.toList) (hqdot : ∀ k ∈ q, '.' ∉ k.toList)
    (h : dotted p = dotted q) : p = q := by
  rw [← splitOn_dotted hp hpdot, ← splitOn_dotted hq hqdot, h]

/-- Inserting members of new, distinct keys appends them. -/
theorem insertAll_of_nodup {acc l : Fields} (h : (Fields.keys (acc ++ l)).Nodup) :
    insertAll acc l = acc ++ l := by
  induction l generalizing acc with
  | nil => simp [insertAll]
  | cons kv l ih =>
    have hk : kv.1 ∉ Fields.keys acc := by
      intro hk
      simp only [Fields.keys, List.map_append, List.map_cons] at h
      exact (List.nodup_append.1 h).2.2 _ hk _ (List.mem_cons_self ..) rfl
    simp only [insertAll, List.foldl_cons] at ih ⊢
    rw [Fields.insert_of_not_mem hk, ih (by simpa using h)]
    simp

/-! ### Reading along a key path -/

/-- A value can be read along a key path the way a dotted lookup reads it: every value met
before the last key is an object, or null, where the reading stops. -/
def Walkable (v : Value) (p : List String) : Prop :=
  ∀ q, q <+: p → q ≠ p → ∀ w, v.atPath q = some w → w.isObj = true ∨ w = .null

namespace Walkable

variable {fs : Fields} {k : String} {w : Value} {p : List String}

/-- Reading on from the member a key reads. -/
theorem cons (hk : (Value.obj fs).get? k = some w) (hw : Walkable w p) :
    Walkable (.obj fs) (k :: p) := by
  intro q hq hne u hu
  rcases List.prefix_cons_iff.1 hq with rfl | ⟨q', rfl, hq'⟩
  · simp only [Value.atPath, Option.some.injEq] at hu
    subst hu
    exact .inl rfl
  · have hu' : w.atPath q' = some u := by simpa [Value.atPath, hk] using hu
    exact hw q' hq' (fun h => hne (by rw [h])) u hu'

/-- The reading past a key goes on from the member the key reads. -/
theorem tail (h : Walkable (.obj fs) (k :: p)) (hk : (Value.obj fs).get? k = some w) :
    Walkable w p := by
  intro q hq hne u hu
  refine h (k :: q) (List.cons_prefix_cons.2 ⟨rfl, hq⟩) (fun he => hne (List.cons.inj he).2) u ?_
  simpa [Value.atPath, hk] using hu

end Walkable

/-- Following a dotted lookup's steps along a readable path ends at what the path leads to, or
at the default where it leads nowhere. -/
theorem followPath_eq_atPath {fs : Fields} {p : List String} (hp : p ≠ [])
    (hw : Walkable (.obj fs) p) (walked : List String) (d : Value) :
    Fields.followPath fs walked p d = .ok (((Value.obj fs).atPath p).getD d) := by
  induction p generalizing fs walked with
  | nil => exact absurd rfl hp
  | cons k rest ih =>
    cases rest with
    | nil => simp [Fields.followPath, Value.atPath, Value.get?_obj]
    | cons k' more =>
      have hstep : (Value.obj fs).atPath (k :: k' :: more) =
          (Fields.get? fs k).bind (·.atPath (k' :: more)) := rfl
      rw [hstep]
      -- the member the first key reads decides whether the reading goes on
      cases hm : Fields.get? fs k with
      | none => simp [Fields.followPath, hm]
      | some m =>
        have hwm := hw [k] (by simp) (by simp) m (by simp [Value.atPath, Value.get?_obj, hm])
        cases m with
        | null => simp [Fields.followPath, hm, Value.atPath, Value.get?]
        | obj inner =>
          have hinner := hw.tail (w := .obj inner) (by simpa [Value.get?_obj] using hm)
          simp only [Fields.followPath, hm, Option.bind_some]
          exact ih (by simp) hinner _
        | _ => simp [Value.isObj] at hwm

/-- A dotted name of keys without dots is read along its keys. -/
theorem getPath_dotted (fs : Fields) {p : List String} (hp : p ≠ [])
    (hdot : ∀ k ∈ p, '.' ∉ k.toList) (d : Value) :
    (Value.obj fs).getPath (dotted p) d = Fields.followPath fs [] p d := by
  simp only [Value.getPath, splitOn_dotted hp hdot]

/-! ### Where the rules are -/

theorem Walkable.nil (v : Value) : Walkable v [] := by
  intro q hq hne
  exact absurd (List.prefix_nil.1 hq) hne

theorem wellKeyed_tail {kv : String × Value} {rest : Fields}
    (h : (Value.obj (kv :: rest)).WellKeyed) : (Value.obj rest).WellKeyed :=
  .obj (List.nodup_cons.1 h.keys_nodup).2 (fun _ hp => h.member (List.mem_cons_of_mem _ hp))

/-- Every rule lies under a key of the tree's top. -/
theorem exists_head_of_mem_rulePaths {fs : Fields} {r : List String × Value}
    (hr : r ∈ rulePaths fs) : ∃ k more, r.1 = k :: more ∧ k ∈ Fields.keys fs := by
  induction fs using rulePaths.induct with
  | case1 => simp [rulePaths] at hr
  | case2 k inner rest _ ih_rest =>
    rw [rulePaths, List.mem_append] at hr
    rcases hr with hr | hr
    · split at hr
      · rw [List.mem_singleton] at hr
        exact ⟨k, [], by rw [hr], by simp [Fields.keys]⟩
      · obtain ⟨r', _, rfl⟩ := List.mem_map.1 hr
        exact ⟨k, r'.1, rfl, by simp [Fields.keys]⟩
    · obtain ⟨k', more, h, hk'⟩ := ih_rest hr
      exact ⟨k', more, h, List.mem_cons_of_mem _ hk'⟩
  | case3 k v rest hv ih =>
    rw [rulePaths.eq_3 k v rest hv] at hr
    obtain ⟨k', more, h, hk'⟩ := ih hr
    exact ⟨k', more, h, List.mem_cons_of_mem _ hk'⟩

/-- What a path under a later key leads to is the same after a member of another key. -/
theorem located_cons {k : String} {v : Value} {rest : Fields} {p : List String} {x : Value}
    (hk : k ∉ Fields.keys rest) (hp : ∃ k' more, p = k' :: more ∧ k' ∈ Fields.keys rest)
    (h : (Value.obj rest).atPath p = some x ∧ Walkable (.obj rest) p) :
    (Value.obj ((k, v) :: rest)).atPath p = some x ∧ Walkable (.obj ((k, v) :: rest)) p := by
  obtain ⟨k', more, rfl, hk'⟩ := hp
  have hne : k ≠ k' := fun he => hk (he ▸ hk')
  have hget : (Value.obj ((k, v) :: rest)).get? k' = (Value.obj rest).get? k' := by
    simp [Value.get?_obj, Fields.get?_cons, hne]
  obtain ⟨w, hw⟩ : ∃ w, (Value.obj rest).get? k' = some w := by
    cases hm : (Value.obj rest).get? k' with
    | none => simp [Value.atPath, hm] at h
    | some w => exact ⟨w, rfl⟩
  refine ⟨?_, Walkable.cons (hget.trans hw) (h.2.tail hw)⟩
  simpa [Value.atPath, hget] using h.1

/-- In a tree whose objects have distinct keys, each rule is what its key path leads to, and
the tree can be read along that path. -/
theorem located_of_mem_rulePaths {fs : Fields} (h : (Value.obj fs).WellKeyed)
    {r : List String × Value} (hr : r ∈ rulePaths fs) :
    (Value.obj fs).atPath r.1 = some r.2 ∧ Walkable (.obj fs) r.1 := by
  induction fs using rulePaths.induct generalizing r with
  | case1 => simp [rulePaths] at hr
  | case2 k inner rest ih_inner ih_rest =>
    have hk : k ∉ Fields.keys rest := (List.nodup_cons.1 h.keys_nodup).1
    have hget : (Value.obj ((k, .obj inner) :: rest)).get? k = some (.obj inner) := by
      simp [Value.get?_obj, Fields.get?_cons]
    rw [rulePaths, List.mem_append] at hr
    rcases hr with hr | hr
    · split at hr
      · -- the rule itself, under its key
        rw [List.mem_singleton] at hr
        subst hr
        exact ⟨by simp [Value.atPath, hget], Walkable.cons hget (Walkable.nil _)⟩
      · -- a rule of the subtree, under the subtree's key
        obtain ⟨r', hr', rfl⟩ := List.mem_map.1 hr
        have hinner : (Value.obj inner).WellKeyed := h.member (List.mem_cons_self ..)
        obtain ⟨hat, hwalk⟩ := ih_inner hinner hr'
        exact ⟨by simpa [Value.atPath, hget] using hat, Walkable.cons hget hwalk⟩
    · exact located_cons hk (exists_head_of_mem_rulePaths hr) (ih_rest (wellKeyed_tail h) hr)
  | case3 k v rest hv ih =>
    rw [rulePaths.eq_3 k v rest hv] at hr
    exact located_cons (List.nodup_cons.1 h.keys_nodup).1 (exists_head_of_mem_rulePaths hr)
      (ih (wellKeyed_tail h) hr)

/-- In a tree whose objects have distinct keys, the rules have distinct key paths. -/
theorem nodup_rulePaths {fs : Fields} (h : (Value.obj fs).WellKeyed) :
    ((rulePaths fs).map (·.1)).Nodup := by
  induction fs using rulePaths.induct with
  | case1 => simp [rulePaths]
  | case2 k inner rest ih_inner ih_rest =>
    have hk : k ∉ Fields.keys rest := (List.nodup_cons.1 h.keys_nodup).1
    -- the paths of this member start with its key, the later ones with later keys
    have hhead : ∀ r ∈ (if Fields.contains inner "type" then [([k], Value.obj inner)]
        else (rulePaths inner).map (fun r => (k :: r.1, r.2))), r.1.head? = some k := by
      intro r hr
      split at hr
      · rw [List.mem_singleton] at hr
        rw [hr]
        rfl
      · obtain ⟨r', _, rfl⟩ := List.mem_map.1 hr
        rfl
    rw [rulePaths, List.map_append, List.nodup_append]
    refine ⟨?_, ih_rest (wellKeyed_tail h), ?_⟩
    · split
      · simp
      · have hinner := ih_inner (h.member (List.mem_cons_self ..))
        convert hinner.map (List.cons_injective (a := k)) using 1
        simp [List.map_map, Function.comp_def]
    · intro a ha b hb hab
      obtain ⟨ra, hra, rfl⟩ := List.mem_map.1 ha
      obtain ⟨rb, hrb, rfl⟩ := List.mem_map.1 hb
      obtain ⟨k', more, hrb1, hk'⟩ := exists_head_of_mem_rulePaths hrb
      have := hhead ra hra
      rw [hab, hrb1] at this
      simp only [List.head?_cons, Option.some.injEq] at this
      exact hk (this ▸ hk')
  | case3 k v rest hv ih =>
    rw [rulePaths.eq_3 k v rest hv]
    exact ih (wellKeyed_tail h)

/-! ### The names of the rules -/

/-- A key path that can be written with dots and read back under the name the flattening gives
it: its keys have no dots, and it does not walk on from an empty key at the top. -/
structure Nameable (p : List String) : Prop where
  no_dot : ∀ k ∈ p, '.' ∉ k.toList
  top : p.head? = some "" → p = [""]

section Names

variable {V : Fields} (hV : (Value.obj V).WellKeyed) (hn : ∀ r ∈ rulePaths V, Nameable r.1)
include hV hn

/-- Rules with nameable paths in a tree whose objects have distinct keys have distinct dotted
names. -/
theorem nodup_dotted_rulePaths : ((rulePaths V).map (dotted ·.1)).Nodup := by
  have hpaths := nodup_rulePaths hV
  have hcomp : (rulePaths V).map (dotted ·.1) = ((rulePaths V).map (·.1)).map dotted := by
    simp [List.map_map, Function.comp_def]
  rw [hcomp]
  refine hpaths.map_on ?_
  intro p hp q hq hpq
  obtain ⟨rp, hrp, rfl⟩ := List.mem_map.1 hp
  obtain ⟨rq, hrq, rfl⟩ := List.mem_map.1 hq
  obtain ⟨_, _, hp1, _⟩ := exists_head_of_mem_rulePaths hrp
  obtain ⟨_, _, hq1, _⟩ := exists_head_of_mem_rulePaths hrq
  exact dotted_inj (by simp [hp1]) (by simp [hq1]) (hn rp hrp).no_dot (hn rq hrq).no_dot hpq

/-- The flattening lists each rule under its dotted name, in the tree's order. -/
theorem flattenRules_eq : flattenRules V = (rulePaths V).map (fun r => (dotted r.1, r.2)) := by
  have hnames : (rulePaths V).map (fun r => (r.1.foldl joinKey "", r.2)) =
      (rulePaths V).map (fun r => (dotted r.1, r.2)) := by
    refine List.map_congr_left (fun r hr => ?_)
    obtain ⟨_, _, hr1, _⟩ := exists_head_of_mem_rulePaths hr
    rw [foldl_joinKey_empty (by simp [hr1]) (hn r hr).top]
  rw [flattenRules, flattenRulesInto_eq, hnames, insertAll_of_nodup, List.nil_append]
  simpa [Fields.keys, List.map_map, Function.comp_def] using nodup_dotted_rulePaths hV hn

/-- The tree read at a rule's dotted name is the rule. -/
theorem getPath_rule {r : List String × Value} (hr : r ∈ rulePaths V) :
    (Value.obj V).getPath (dotted r.1) .null = .ok r.2 := by
  obtain ⟨hat, hwalk⟩ := located_of_mem_rulePaths hV hr
  obtain ⟨_, _, hr1, _⟩ := exists_head_of_mem_rulePaths hr
  have hne : r.1 ≠ [] := by simp [hr1]
  rw [getPath_dotted V hne (hn r hr).no_dot, followPath_eq_atPath hne hwalk, hat]
  rfl

end Names

/-- Settings read at a rule's dotted name are the value at the rule's key path, null where
there is none. -/
theorem getPath_setting (cfs : Fields) {p : List String} (hp : p ≠ []) (hn : Nameable p)
    (hw : Walkable (.obj cfs) p) :
    (Value.obj cfs).getPath (dotted p) .null = .ok (((Value.obj cfs).atPath p).getD .null) := by
  rw [getPath_dotted cfs hp hn.no_dot, followPath_eq_atPath hp hw]

/-! ### What passes a rule -/

/-- The rule type a rule names. -/
def ruleTypeOf (rule : Value) : Option RuleType :=
  match rule.get? "type" with
  | some (.str w) => RuleType.ofWord? w
  | _ => none

/-- The keys under which a rule of a type keeps its bounds. -/
def RuleType.boundKeys : RuleType → List String
  | .number | .int | .float => ["min", "max"]
  | .str => ["min_len", "max_len"]
  | .bool | .enum => []

/-- A rule the checks can read: an object naming a known type, whose bounds are numbers or null
and whose values, for an enumeration, are a list or missing. -/
structure Readable (rule : Value) : Prop where
  obj : rule.isObj = true
  typed : ∃ t, ruleTypeOf rule = some t ∧
    (∀ k ∈ t.boundKeys, (rule.getD k).isNull = true ∨ (rule.getD k).num?.isSome = true) ∧
    (t = .enum → rule.get? "values" = none ∨ (rule.getD "values").isArr = true)

/-- A number is at least a bound, compared exactly; with a NaN on either side it is not. -/
def atLeast (x l : Value.Num) : Bool := x.compare? l == some .gt || x.compare? l == some .eq

/-- A number is at most a bound, compared exactly; with a NaN on either side it is not. -/
def atMost (x h : Value.Num) : Bool := x.compare? h == some .lt || x.compare? h == some .eq

/-- Whether a number lies within the bounds a rule keeps under two keys; a missing or null
bound bounds nothing. -/
def withinBounds (rule : Value) (low high : String) (x : Value.Num) : Bool :=
  (rule.getD low).num?.all (atLeast x) && (rule.getD high).num?.all (atMost x)

/-- Whether a value passes a rule of a type: a number of the type within the bounds (a boolean
is no number here), a text whose length is within the bounds, a boolean, or for an enumeration
a text, integer, boolean or null equal to one of the values (so `true` equals `1`). -/
def passesAs (rule : Value) : RuleType → Value → Bool
  | .number, .int n | .int, .int n => withinBounds rule "min" "max" (.int n)
  | .number, .float x | .float, .float x => withinBounds rule "min" "max" (.float x)
  | .str, .str s => withinBounds rule "min_len" "max_len" (.int s.length)
  | .bool, .bool _ => true
  | .enum, .float _ | .enum, .arr _ | .enum, .obj _ => false
  | .enum, v => ((rule.getD "values").items?.getD []).any v.equiv
  | _, _ => false

/-- Whether a value passes a rule: null under an optional rule, or a value the rule's type
admits. -/
def passes (rule v : Value) : Bool :=
  ((rule.getD "optional").truthy && v.isNull) || (ruleTypeOf rule).any (passesAs rule · v)

theorem compareBound_eq {v b : Value} {x y : Value.Num} (hv : v.num? = some x)
    (hb : b.num? = some y) (symbol : String) (want : Ordering → Bool) :
    compareBound v b symbol want = .ok (((x.compare? y).map want).getD false) := by
  simp [compareBound, hv, hb]

theorem getD_map_ne_lt (c : Option Ordering) :
    (c.map (· != .lt)).getD false = (c == some .gt || c == some .eq) := by
  rcases c with _ | _ | _ | _ <;> rfl

theorem getD_map_ne_gt (c : Option Ordering) :
    (c.map (· != .gt)).getD false = (c == some .lt || c == some .eq) := by
  rcases c with _ | _ | _ | _ <;> rfl

/-- A number against bounds that are numbers or null. -/
theorem inRange_eq {v lo hi : Value} {x : Value.Num} (hv : v.num? = some x)
    (hlo : lo.isNull = true ∨ lo.num?.isSome = true) (hhi : hi.isNull = true ∨ hi.num?.isSome = true) :
    inRange v lo hi = .ok (lo.num?.all (atLeast x) && hi.num?.all (atMost x)) := by
  -- a null bound is skipped; a number is compared
  have hhigh : (if hi.isNull = true then (Except.ok true : Except Failure Bool)
      else compareBound v hi "<=" (· != .gt)) = .ok (hi.num?.all (atMost x)) := by
    rcases hhi with hnull | hnum
    · cases hi <;> simp_all [Value.isNull, Value.num?]
    · obtain ⟨y, hy⟩ := Option.isSome_iff_exists.1 hnum
      have hnn : hi.isNull = false := by cases hi <;> simp_all [Value.isNull, Value.num?]
      simp [hnn, compareBound_eq hv hy, getD_map_ne_gt, hy, atMost]
  rcases hlo with hnull | hnum
  · have hlo0 : lo.num? = none := by cases lo <;> simp_all [Value.isNull, Value.num?]
    simp only [inRange, hnull, Bool.not_true, Bool.false_eq_true, if_false, hlo0, Option.all_none,
      Bool.true_and]
    exact hhigh
  · obtain ⟨y, hy⟩ := Option.isSome_iff_exists.1 hnum
    have hnn : lo.isNull = false := by cases lo <;> simp_all [Value.isNull, Value.num?]
    simp only [inRange, hnn, Bool.not_false, if_true, compareBound_eq hv hy, getD_map_ne_lt, hy,
      Option.all_some, bind, Except.bind]
    -- below the lower bound the answer is no; otherwise the upper bound decides
    cases hge : atLeast x y
    · simp only [atLeast] at hge
      simp [hge]
    · simp only [atLeast] at hge
      simp only [hge, Bool.not_true, Bool.false_eq_true, if_false, Bool.true_and]
      exact hhigh

/-- A value of a type the rule's type does not admit passes no rule of it. -/
theorem passesAs_of_not_admits {rule v : Value} {t : RuleType} (h : t.admits v = false) :
    passesAs rule t v = false := by
  cases t <;> cases v <;> simp_all [RuleType.admits, passesAs]

theorem ruleTypeOf_eq_some {fs : Fields} {t : RuleType} (h : ruleTypeOf (.obj fs) = some t) :
    ∃ w, Fields.get? fs "type" = some (.str w) ∧ RuleType.ofWord? w = some t := by
  unfold ruleTypeOf at h
  rw [Value.get?_obj] at h
  split at h
  · exact ⟨_, by assumption, h⟩
  · cases h

/-- The check of a readable rule answers whether the value passes it. -/
theorem checkRule_eq {rule : Value} (h : Readable rule) (v : Value) :
    checkRule rule v = .ok (passes rule v) := by
  obtain ⟨fs, rfl⟩ : ∃ fs, rule = .obj fs := by
    have hobj := h.obj
    cases rule with
    | obj fs => exact ⟨fs, rfl⟩
    | _ => simp [Value.isObj] at hobj
  obtain ⟨t, ht, hbounds, hvalues⟩ := h.typed
  obtain ⟨w, hw, hword⟩ := ruleTypeOf_eq_some ht
  simp only [checkRule, Value.field, Value.index, hw, hword, bind, Except.bind, pure, Except.pure,
    Value.hashable, Value.isObj, Value.isArr, Bool.or_false, Bool.not_false, Bool.not_true,
    Bool.false_eq_true, if_false]
  simp only [passes, ht, Option.any_some, Value.getD_eq, Value.get?_obj]
  -- null under an optional rule passes before its type is read
  by_cases hopt : (((Fields.get? fs "optional").getD Value.null).truthy && v.isNull) = true
  · simp [hopt]
  simp only [hopt, Bool.false_or]
  cases hadm : t.admits v
  · simp [passesAs_of_not_admits hadm]
  simp only [Bool.not_true, Bool.false_eq_true, if_false]
  have hb : ∀ k ∈ t.boundKeys, ((Fields.get? fs k).getD .null).isNull = true ∨
      ((Fields.get? fs k).getD .null).num?.isSome = true := by
    simpa [Value.getD_eq, Value.get?_obj] using hbounds
  -- the type decides which bounds are read, and the admitted value how
  cases t with
  | number =>
    have hlo := hb "min" (by simp [RuleType.boundKeys])
    have hhi := hb "max" (by simp [RuleType.boundKeys])
    cases v with
    | int n => exact (inRange_eq rfl hlo hhi).trans rfl
    | float x => exact (inRange_eq rfl hlo hhi).trans rfl
    | _ => simp [RuleType.admits] at hadm
  | int =>
    have hlo := hb "min" (by simp [RuleType.boundKeys])
    have hhi := hb "max" (by simp [RuleType.boundKeys])
    cases v with
    | int n => exact (inRange_eq rfl hlo hhi).trans rfl
    | _ => simp [RuleType.admits] at hadm
  | float =>
    have hlo := hb "min" (by simp [RuleType.boundKeys])
    have hhi := hb "max" (by simp [RuleType.boundKeys])
    cases v with
    | float x => exact (inRange_eq rfl hlo hhi).trans rfl
    | _ => simp [RuleType.admits] at hadm
  | str =>
    have hlo := hb "min_len" (by simp [RuleType.boundKeys])
    have hhi := hb "max_len" (by simp [RuleType.boundKeys])
    cases v with
    | str s => exact (inRange_eq rfl hlo hhi).trans rfl
    | _ => simp [RuleType.admits] at hadm
  | bool =>
    cases v with
    | bool b => rfl
    | _ => simp [RuleType.admits] at hadm
  | enum =>
    have hvals : (Value.obj fs).fieldOr "values" (.arr []) =
        .ok (.arr (((Value.obj fs).getD "values").items?.getD [])) := by
      rcases hvalues rfl with hnone | harr
      · simp [Value.fieldOr, ← Value.get?_obj, hnone, Value.getD_eq, Value.items?]
      · simp only [Value.getD_eq, Value.get?_obj] at harr ⊢
        cases hv : Fields.get? fs "values" with
        | none => simp [hv, Value.isArr] at harr
        | some x =>
          cases x <;> simp_all [Value.isArr, Value.fieldOr, Value.items?]
    simp only [hvals, Value.memberOf]
    cases v <;> simp_all [RuleType.admits, passesAs]

/-! ### The failing rules -/

end OperandLifecycle.Config

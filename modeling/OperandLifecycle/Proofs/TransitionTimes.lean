import OperandLifecycle.Status.Conditions
import OperandLifecycle.Proofs.OwnerReferences
import OperandLifecycle.Proofs.ObserverFootprint
import OperandLifecycle.Proofs.Overlay
/-!
# Stable transition times

`mergeConditions previous current` gives every current condition the transition time of the
last previous condition with the same type, reason and message, compared as dictionary keys are
(`SameKey`); a condition whose key no previous condition has stays as it is. The result is
`current.map (mergedWith previous)` (`mergeConditions_eq_map`), and it is given exactly when
every condition is an object whose type, reason and message can serve as keys (`Keyed`).

The controller stamps every condition it writes with a time, once (`Stamped`). Merge such
current conditions, in which conditions of one key share a time, and merge the result again
with conditions that differ from the current ones in their times only: the second merge gives
the first result back (`mergeConditions_merged_again`). So a failure that repeats on later
reconciles keeps the time at which it first appeared.
-/

namespace OperandLifecycle.Status

open Json

/-- The members that identify a condition. -/
def keyFields : List String := ["type", "reason", "message"]

/-- A condition's type, reason and message, null where one is missing. -/
def keyOf (c : Value) : List Value := keyFields.map c.getD

/-- A condition the merge can read: an object whose type, reason and message can serve as
dictionary keys. -/
structure Keyed (c : Value) : Prop where
  isObj : c.isObj = true
  hashable : ∀ v ∈ keyOf c, v.hashable = true

/-- Two conditions have equal types, reasons and messages, compared as dictionary keys are. -/
def SameKey (x y : Value) : Prop := ∀ f ∈ keyFields, (x.getD f).heldEquiv (y.getD f) = true

instance (x y : Value) : Decidable (SameKey x y) :=
  inferInstanceAs (Decidable (∀ f ∈ keyFields, (x.getD f).heldEquiv (y.getD f) = true))

/-- The last of the conditions `p` with the key of `x`. -/
def lastWithKey (p : List Value) (x : Value) : Option Value :=
  (p.filter (fun q => decide (SameKey q x))).getLast?

/-- The current condition `x` merged with the earlier conditions `p`: it takes the transition
time of the last of them with its key (null when that one has none), and stays as it is when
none has its key. -/
def mergedWith (p : List Value) (x : Value) : Value :=
  match lastWithKey p x with
  | some q => x.set timestampKey (q.getD timestampKey)
  | none => x

/-- A condition that carries its transition time once: an object with distinct member names,
`lastTransitionTime` among them. -/
def Stamped (x : Value) : Prop :=
  ∃ fs, x = .obj fs ∧ (Fields.keys fs).Nodup ∧ timestampKey ∈ Fields.keys fs

/-! ### Keys -/

theorem sameKey_keyOf_iff {x y : Value} : sameKey (keyOf x) (keyOf y) = true ↔ SameKey x y := by
  simp [sameKey, keyOf, keyFields, SameKey, Value.equivItems, Value.heldEquiv]

theorem SameKey.refl {x : Value} (hx : Keyed x) : SameKey x x := fun _ hf =>
  Value.heldEquiv_self (hx.hashable _ (List.mem_map_of_mem hf))

/-- Whether two conditions share a key depends on their keys alone. -/
theorem sameKey_congr {x x' y y' : Value} (hx : keyOf x = keyOf x') (hy : keyOf y = keyOf y') :
    SameKey x y ↔ SameKey x' y' := by
  have hgx : ∀ f ∈ keyFields, x.getD f = x'.getD f := List.map_inj_left.1 hx
  have hgy : ∀ f ∈ keyFields, y.getD f = y'.getD f := List.map_inj_left.1 hy
  exact forall₂_congr fun f hf => by rw [hgx f hf, hgy f hf]

/-- Sharing a key is transitive through a condition whose key can be hashed. -/
theorem SameKey.congr_right {q x y : Value} (hy : Keyed y) (hyx : SameKey y x) :
    SameKey q y ↔ SameKey q x :=
  forall₂_congr fun f hf => by
    rw [Value.heldEquiv_congr_right _ (hy.hashable _ (List.mem_map_of_mem hf)) (hyx f hf)]

@[simp] theorem keyOf_set_timestamp (x t : Value) : keyOf (x.set timestampKey t) = keyOf x := by
  simp [keyOf, keyFields, Value.getD_eq, timestampKey]

theorem Keyed.set_timestamp {x : Value} (hx : Keyed x) (t : Value) :
    Keyed (x.set timestampKey t) :=
  ⟨by simpa using hx.isObj, by rw [keyOf_set_timestamp]; exact hx.hashable⟩

@[simp] theorem keyOf_mergedWith (p : List Value) (x : Value) : keyOf (mergedWith p x) = keyOf x := by
  unfold mergedWith
  split <;> simp

theorem Keyed.mergedWith {x : Value} (hx : Keyed x) (p : List Value) : Keyed (mergedWith p x) := by
  unfold Status.mergedWith
  split
  · exact hx.set_timestamp _
  · exact hx

/-! ### Reading the conditions -/

theorem conditionKey_eq_ok {c : Value} (hc : Keyed c) : conditionKey c = .ok (keyOf c) := by
  have hnone : (keyOf c).find? (fun v => !v.hashable) = none :=
    List.find?_eq_none.2 fun v hv => by simp [hc.hashable v hv]
  simp only [conditionKey, Value.field_eq_of_isObj hc.isObj, except_ok_bind]
  simp only [keyOf, keyFields, List.map_cons, List.map_nil] at hnone
  rw [hnone]
  rfl

theorem keyed_of_conditionKey_eq_ok {c : Value} {k : List Value} (h : conditionKey c = .ok k) :
    Keyed c := by
  cases c with
  | obj fs =>
    have hobj : (Value.obj fs).isObj = true := rfl
    simp only [conditionKey, Value.field_eq_of_isObj hobj, except_ok_bind] at h
    split at h
    · cases h
    · rename_i hnone
      refine ⟨rfl, fun v hv => ?_⟩
      have := List.find?_eq_none.1 hnone v (by simpa [keyOf, keyFields] using hv)
      simpa using this
  | _ => simp [conditionKey, Value.field] at h

/-- The earlier time the merge looks up for a key is that of the last earlier condition with it. -/
theorem earlierTime_eq (p : List Value) (x : Value) :
    earlierTime (p.map fun q => (keyOf q, q.getD timestampKey)) (keyOf x) =
      (lastWithKey p x).map (·.getD timestampKey) := by
  have hpred : (fun q => decide (SameKey q x)) =
      (fun t : List Value × Value => sameKey t.1 (keyOf x)) ∘ fun q => (keyOf q, q.getD timestampKey) := by
    funext q
    exact Bool.eq_iff_iff.2 (decide_eq_true_iff.trans sameKey_keyOf_iff.symm)
  rw [earlierTime, lastWithKey, List.getLast?_filter, ← List.map_reverse, List.find?_map,
    Option.map_map, hpred]
  rfl

theorem mergeConditions_eq_map {p c : List Value} (h : ∀ x ∈ p ++ c, Keyed x) :
    mergeConditions p c = .ok (c.map (mergedWith p)) := by
  have htimes : p.mapM (fun q => do pure (← conditionKey q, ← q.field timestampKey)) =
      .ok (p.map fun q => (keyOf q, q.getD timestampKey)) :=
    Cluster.mapM_eq_ok fun q hq => by
      have hq := h q (List.mem_append_left _ hq)
      simp [conditionKey_eq_ok hq, Value.field_eq_of_isObj hq.isObj]
  simp only [mergeConditions, htimes, except_ok_bind]
  refine Cluster.mapM_eq_ok fun x hx => ?_
  rw [conditionKey_eq_ok (h x (List.mem_append_right _ hx)), except_ok_bind, earlierTime_eq,
    mergedWith]
  cases lastWithKey p x <;> rfl

/-- Each item of a list mapped without failure is mapped without failure. -/
theorem exists_ok_of_mapM_ok {ε α β : Type} {f : α → Except ε β} :
    ∀ {xs : List α} {ys : List β}, xs.mapM f = .ok ys → ∀ x ∈ xs, ∃ y, f x = .ok y
  | [], _, _, x, hx => absurd hx List.not_mem_nil
  | a :: xs, ys, h, x, hx => by
    rw [List.mapM_cons] at h
    obtain ⟨b, hb, h'⟩ := Controllers.except_bind_eq_ok h
    obtain ⟨bs, hbs, -⟩ := Controllers.except_bind_eq_ok h'
    rcases List.mem_cons.1 hx with rfl | hx
    · exact ⟨b, hb⟩
    · exact exists_ok_of_mapM_ok hbs x hx

/-- The merge answers only when every condition, earlier or current, can be read. -/
theorem keyed_of_mergeConditions_eq_ok {p c m : List Value} (h : mergeConditions p c = .ok m) :
    ∀ x ∈ p ++ c, Keyed x := by
  obtain ⟨times, htimes, hcur⟩ := Controllers.except_bind_eq_ok h
  intro x hx
  rcases List.mem_append.1 hx with hx | hx
  · obtain ⟨_, hq⟩ := exists_ok_of_mapM_ok htimes x hx
    obtain ⟨k, hk, -⟩ := Controllers.except_bind_eq_ok hq
    exact keyed_of_conditionKey_eq_ok hk
  · obtain ⟨_, hx⟩ := exists_ok_of_mapM_ok hcur x hx
    obtain ⟨k, hk, -⟩ := Controllers.except_bind_eq_ok hx
    exact keyed_of_conditionKey_eq_ok hk

/-! ### Conditions the controller writes -/

/-- A condition the controller builds carries its time once. -/
theorem stamped_makeCondition (type status reason message : Value) (time : Stamp) :
    Stamped (makeCondition type status reason message time) :=
  ⟨_, rfl, by simp [Fields.keys, timestampKey], by simp [Fields.keys]⟩

theorem keyed_makeCondition {type reason message : Value} (ht : type.hashable = true)
    (hr : reason.hashable = true) (hm : message.hashable = true) (status : Value) (time : Stamp) :
    Keyed (makeCondition type status reason message time) :=
  ⟨rfl, by simp [keyOf, keyFields, makeCondition, Value.getD_eq, Value.get?_obj, Fields.get?_cons,
    timestampKey, ht, hr, hm]⟩

/-- Restamping a condition the controller built is building it at the new time. -/
theorem makeCondition_set_timestamp (type status reason message : Value) (time time' : Stamp) :
    (makeCondition type status reason message time).set timestampKey (.str time'.iso) =
      makeCondition type status reason message time' := by
  simp [makeCondition, Value.set, Fields.insert, Fields.contains, timestampKey]

/-! ### Merging again -/

/-- Conditions with one key find the same last earlier condition. -/
theorem lastWithKey_eq_of_sameKey (p : List Value) {x y : Value} (hy : Keyed y)
    (hyx : SameKey y x) : lastWithKey p y = lastWithKey p x := by
  unfold lastWithKey
  congr 1
  exact List.filter_congr fun q _ => decide_eq_decide.2 (SameKey.congr_right hy hyx)

theorem getD_timestamp_mergedWith (p : List Value) {x : Value} (hx : x.isObj = true) :
    (mergedWith p x).getD timestampKey =
      ((lastWithKey p x).map (·.getD timestampKey)).getD (x.getD timestampKey) := by
  unfold mergedWith
  split <;> simp_all [Value.getD_eq]

/-- Among merged conditions, the last with the key of a current condition `x` is the merge of the
last current condition with that key. -/
theorem lastWithKey_map_mergedWith (p : List Value) {c : List Value} (hc : ∀ y ∈ c, Keyed y)
    {x x' : Value} (hx : x ∈ c) (hkey : keyOf x' = keyOf x) :
    ∃ y ∈ c, SameKey y x ∧ lastWithKey (c.map (mergedWith p)) x' = some (mergedWith p y) := by
  have hfilter : c.filter ((fun q => decide (SameKey q x')) ∘ mergedWith p) =
      c.filter (fun q => decide (SameKey q x)) :=
    List.filter_congr fun q _ => decide_eq_decide.2 (sameKey_congr (keyOf_mergedWith p q) hkey)
  -- `x` itself has its key, so some current condition is last with it
  have hne : c.filter (fun q => decide (SameKey q x)) ≠ [] :=
    List.ne_nil_of_mem (List.mem_filter.2 ⟨hx, decide_eq_true (SameKey.refl (hc x hx))⟩)
  obtain ⟨y, hy⟩ := Option.ne_none_iff_exists'.1 (mt List.getLast?_eq_none_iff.1 hne)
  have hmem := List.mem_filter.1 (List.mem_of_getLast? hy)
  refine ⟨y, hmem.1, of_decide_eq_true hmem.2, ?_⟩
  rw [lastWithKey, List.filter_map, List.getLast?_map, hfilter, hy]
  rfl

/-- A condition that carries its time once is left as it is by setting that time again. -/
theorem Stamped.set_getD_self {x : Value} (hx : Stamped x) :
    x.set timestampKey (x.getD timestampKey) = x := by
  obtain ⟨fs, rfl, hnd, hk⟩ := hx
  obtain ⟨v, hv⟩ := Option.isSome_iff_exists.1 ((Fields.mem_keys_iff_get?_isSome fs _).1 hk)
  rw [Value.set_obj]
  congr 1
  refine (Fields.ext_of_keys hnd ?_ fun k => ?_).symm
  · rw [Fields.keys_insert, if_pos hk]
  · rw [Fields.get?_insert]
    split
    · subst k
      simp [Value.getD_eq, Value.get?_obj, hv]
    · rfl

section Again

variable {p c : List Value}

/-- A current condition whose time alone changed, merged with the merged conditions, is what
merging gave it. -/
theorem mergedWith_map_mergedWith (hc : ∀ y ∈ c, Keyed y ∧ Stamped y)
    (hshare : ∀ x ∈ c, ∀ y ∈ c, SameKey x y → x.getD timestampKey = y.getD timestampKey)
    {x : Value} (hx : x ∈ c) (t : Value) :
    mergedWith (c.map (mergedWith p)) (x.set timestampKey t) = mergedWith p x := by
  obtain ⟨y, hy, hyx, hlast⟩ :=
    lastWithKey_map_mergedWith p (fun y hy => (hc y hy).1) hx (keyOf_set_timestamp x t)
  have hsame : lastWithKey p y = lastWithKey p x := lastWithKey_eq_of_sameKey p (hc y hy).1 hyx
  -- the merged `y` carries the time the merge gives `x`
  have htime : (mergedWith p y).getD timestampKey =
      ((lastWithKey p x).map (·.getD timestampKey)).getD (x.getD timestampKey) := by
    rw [getD_timestamp_mergedWith p (hc y hy).1.isObj, hsame, hshare y hy x hx hyx]
  rw [mergedWith, hlast]
  dsimp only
  rw [Value.set_set, htime]
  unfold mergedWith
  cases lastWithKey p x with
  | some r => rfl
  | none => exact (hc x hx).2.set_getD_self

/-- Conditions that differ from current ones in their times only, merged with the merged
conditions, give the merged conditions back. -/
theorem map_mergedWith_of_retimed (hc : ∀ y ∈ c, Keyed y ∧ Stamped y)
    (hshare : ∀ x ∈ c, ∀ y ∈ c, SameKey x y → x.getD timestampKey = y.getD timestampKey) :
    ∀ {d' d : List Value}, List.Forall₂ (fun x' x => ∃ t, x' = x.set timestampKey t) d' d →
      (∀ x ∈ d, x ∈ c) → d'.map (mergedWith (c.map (mergedWith p))) = d.map (mergedWith p)
  | _, _, .nil, _ => rfl
  | _, _, .cons (a := x') (b := x) hxx' hrest, hsub => by
    obtain ⟨t, rfl⟩ := hxx'
    rw [List.map_cons, List.map_cons,
      mergedWith_map_mergedWith hc hshare (hsub x (List.mem_cons_self ..)) t,
      map_mergedWith_of_retimed hc hshare hrest fun y hy => hsub y (List.mem_cons_of_mem _ hy)]

theorem keyed_of_retimed (hc : ∀ y ∈ c, Keyed y) :
    ∀ {c' : List Value}, List.Forall₂ (fun x' x => ∃ t, x' = x.set timestampKey t) c' c →
      ∀ x' ∈ c', Keyed x' := by
  intro c' hc'
  induction hc' with
  | nil => simp
  | cons hxx' _ ih =>
    obtain ⟨t, rfl⟩ := hxx'
    intro z hz
    rcases List.mem_cons.1 hz with rfl | hz
    · exact (hc _ (List.mem_cons_self ..)).set_timestamp t
    · exact ih (fun y hy => hc y (List.mem_cons_of_mem _ hy)) z hz

/-- Merging the merged conditions again with conditions that differ from the current ones in
their times only gives the merged conditions back. -/
theorem mergeConditions_merged_again {m c' : List Value} (hm : mergeConditions p c = .ok m)
    (hstamped : ∀ x ∈ c, Stamped x)
    (hshare : ∀ x ∈ c, ∀ y ∈ c, SameKey x y → x.getD timestampKey = y.getD timestampKey)
    (hc' : List.Forall₂ (fun x' x => ∃ t, x' = x.set timestampKey t) c' c) :
    mergeConditions m c' = .ok m := by
  have hkeyed := keyed_of_mergeConditions_eq_ok hm
  have hc : ∀ y ∈ c, Keyed y := fun y hy => hkeyed y (List.mem_append_right _ hy)
  rw [mergeConditions_eq_map hkeyed] at hm
  cases hm
  -- the merged conditions keep their keys, and the retimed ones have those of `c`
  have hagain : ∀ x ∈ c.map (mergedWith p) ++ c', Keyed x := by
    intro x hx
    rcases List.mem_append.1 hx with hx | hx
    · obtain ⟨y, hy, rfl⟩ := List.mem_map.1 hx
      exact (hc y hy).mergedWith p
    · exact keyed_of_retimed hc hc' x hx
  rw [mergeConditions_eq_map hagain,
    map_mergedWith_of_retimed (fun y hy => ⟨hc y hy, hstamped y hy⟩) hshare hc' fun _ => id]

end Again

/-- Merging conditions answers exactly when every condition, earlier or current, is an object
whose type, reason and message can serve as dictionary keys. Then every current condition, in
its place, takes the transition time of the last earlier condition with the same type, reason
and message (null when that one has none), and stays as it is when there is none. When the
current conditions carry their times once and conditions of one key share a time, merging the
result again with conditions that differ from the current ones in their times only gives the
result back. -/
theorem mergeConditions_keeps_first_transition (p c : List Value) :
    ((∃ m, mergeConditions p c = .ok m) ↔ ∀ x ∈ p ++ c, Keyed x) ∧
    ((∀ x ∈ p ++ c, Keyed x) → mergeConditions p c = .ok (c.map (mergedWith p))) ∧
    ∀ m c', mergeConditions p c = .ok m → (∀ x ∈ c, Stamped x) →
      (∀ x ∈ c, ∀ y ∈ c, SameKey x y → x.getD timestampKey = y.getD timestampKey) →
      List.Forall₂ (fun x' x => ∃ t, x' = x.set timestampKey t) c' c →
      mergeConditions m c' = .ok m :=
  ⟨⟨fun ⟨_, hm⟩ => keyed_of_mergeConditions_eq_ok hm, fun h => ⟨_, mergeConditions_eq_map h⟩⟩,
    mergeConditions_eq_map, fun _ _ hm hstamped hshare hc' =>
      mergeConditions_merged_again hm hstamped hshare hc'⟩

/-- A failure reported by one reconcile and again by the next keeps the first report's time. -/
theorem repeated_failure_keeps_first_time :
    mergeConditions [] [makeCondition (.str "Ready") (.bool false) (.str "ClusterError")
        (.str "no route") ⟨2024, 1, 1, 0, 0, 1, 0, none⟩] =
      .ok [makeCondition (.str "Ready") (.bool false) (.str "ClusterError") (.str "no route")
        ⟨2024, 1, 1, 0, 0, 1, 0, none⟩] ∧
    mergeConditions [makeCondition (.str "Ready") (.bool false) (.str "ClusterError")
        (.str "no route") ⟨2024, 1, 1, 0, 0, 1, 0, none⟩]
      [makeCondition (.str "Ready") (.bool false) (.str "ClusterError") (.str "no route")
        ⟨2024, 1, 1, 0, 1, 0, 0, none⟩] =
      .ok [makeCondition (.str "Ready") (.bool false) (.str "ClusterError") (.str "no route")
        ⟨2024, 1, 1, 0, 0, 1, 0, none⟩] := by
  have hkeyed : ∀ x ∈ ([] : List Value) ++ [makeCondition (.str "Ready") (.bool false)
      (.str "ClusterError") (.str "no route") ⟨2024, 1, 1, 0, 0, 1, 0, none⟩], Keyed x := by
    simp only [List.nil_append, List.mem_singleton, forall_eq]
    exact keyed_makeCondition rfl rfl rfl _ _
  have hfirst := (mergeConditions_keeps_first_transition _ _).2.1 hkeyed
  -- no earlier condition: the current one stays as it is
  simp only [List.map_cons, List.map_nil] at hfirst
  have hsame : mergedWith [] (makeCondition (.str "Ready") (.bool false) (.str "ClusterError")
      (.str "no route") ⟨2024, 1, 1, 0, 0, 1, 0, none⟩) = makeCondition (.str "Ready")
      (.bool false) (.str "ClusterError") (.str "no route") ⟨2024, 1, 1, 0, 0, 1, 0, none⟩ := rfl
  rw [hsame] at hfirst
  refine ⟨hfirst, (mergeConditions_keeps_first_transition _ _).2.2 _ _ hfirst
    (by simpa using stamped_makeCondition ..) (by simp) ?_⟩
  exact .cons ⟨_, (makeCondition_set_timestamp ..).symm⟩ .nil

/-- A condition without a transition time does not come back from a second merge as it was: the
second merge finds it among the earlier conditions and gives it the time it lacks, null. And a
condition whose reason is a list cannot be merged at all. -/
theorem unstamped_condition_gains_null_time :
    mergeConditions [] [.obj [("type", .str "A"), ("reason", .str "r"), ("message", .str "m")]] =
      .ok [.obj [("type", .str "A"), ("reason", .str "r"), ("message", .str "m")]] ∧
    mergeConditions [.obj [("type", .str "A"), ("reason", .str "r"), ("message", .str "m")]]
        [.obj [("type", .str "A"), ("reason", .str "r"), ("message", .str "m")]] =
      .ok [.obj [("type", .str "A"), ("reason", .str "r"), ("message", .str "m"),
        ("lastTransitionTime", .null)]] ∧
    mergeConditions [.obj [("type", .str "A"), ("reason", .str "r"), ("message", .str "m")]]
        [.obj [("type", .str "A"), ("reason", .str "r"), ("message", .str "m")]] ≠
      .ok [.obj [("type", .str "A"), ("reason", .str "r"), ("message", .str "m")]] ∧
    mergeConditions [] [.obj [("type", .str "A"), ("reason", .arr [.str "x"]),
        ("message", .str "m"), ("lastTransitionTime", .str "t")]] =
      .error (unhashable (.arr [.str "x"])) := by
  refine ⟨rfl, rfl, ?_, rfl⟩
  rw [show mergeConditions [.obj [("type", .str "A"), ("reason", .str "r"), ("message", .str "m")]]
      [.obj [("type", .str "A"), ("reason", .str "r"), ("message", .str "m")]] =
      .ok [.obj [("type", .str "A"), ("reason", .str "r"), ("message", .str "m"),
        ("lastTransitionTime", .null)]] from rfl]
  simp

end OperandLifecycle.Status

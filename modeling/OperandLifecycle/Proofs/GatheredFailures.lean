import OperandLifecycle.Failure
/-!
# Gathered failures

A reconcile attempts its items one by one and raises the manager's own failures of them
together at the end. `Failure.gather` gives nothing for no failure, the failure itself for one,
and an aggregate of them all otherwise. Aggregates nest: the request controller gathers the
failures of the examples of a registry, then those of the registries of an operand, then those
of the operands. A failure is thus a tree whose inner nodes are aggregates and whose leaves are
single failures (`Failure.leaves`, in depth-first order).

An aggregate is never empty (`Failure.WellFormed`), and gathering keeps that. The text of such a
tree is the texts of its leaves joined with "; ", and the tree is fatal exactly when one of its
leaves is; a leaf that is not one of the manager's own failures counts as fatal.
-/

namespace OperandLifecycle.Failure

mutual
/-- The single failures of a tree of aggregates, in depth-first order. -/
def leaves : Failure → List Failure
  | .multi es => leavesOf es
  | f => [f]

/-- The leaves of several failures, one failure after another. -/
def leavesOf : List Failure → List Failure
  | [] => []
  | e :: es => e.leaves ++ leavesOf es
end

/-- Every aggregate of the tree, at every depth, has a part: an aggregate cannot be built from
no failures. -/
inductive WellFormed : Failure → Prop
  | multi {es : List Failure} : es ≠ [] → (∀ e ∈ es, WellFormed e) → WellFormed (.multi es)
  | single {f : Failure} : (∀ es, f ≠ .multi es) → WellFormed f

@[simp] theorem leaves_multi (es : List Failure) : (Failure.multi es).leaves = leavesOf es := by
  simp [leaves]

@[simp] theorem leavesOf_nil : leavesOf [] = [] := by simp [leavesOf]

@[simp] theorem leavesOf_cons (e : Failure) (es : List Failure) :
    leavesOf (e :: es) = e.leaves ++ leavesOf es := by
  simp [leavesOf]

theorem leaves_of_ne_multi {f : Failure} (h : ∀ es, f ≠ .multi es) : f.leaves = [f] := by
  cases f with
  | multi es => exact absurd rfl (h es)
  | _ => simp [leaves]

/-- An aggregate is no part of itself. -/
theorem multi_ne_of_mem {e : Failure} {es : List Failure} (he : e ∈ es) : Failure.multi es ≠ e := by
  intro h
  have hlt : sizeOf e < sizeOf es := List.sizeOf_lt_of_mem he
  have hsize := congrArg sizeOf h
  simp only [multi.sizeOf_spec] at hsize
  omega

/-! ### Gathering -/

theorem gather_eq_none_iff (es : List Failure) : gather es = none ↔ es = [] := by
  match es with
  | [] => simp [gather]
  | [_] => simp [gather]
  | _ :: _ :: _ => simp [gather]

theorem gather_of_two_le {es : List Failure} (h : 2 ≤ es.length) : gather es = some (.multi es) := by
  match es, h with
  | _ :: _ :: _, _ => simp [gather]

/-- The first failure comes back itself exactly when it is the only one. -/
theorem gather_cons_eq_self_iff (e : Failure) (es : List Failure) :
    gather (e :: es) = some e ↔ es = [] := by
  match es with
  | [] => simp [gather]
  | e' :: es' =>
    have hne : Failure.multi (e :: e' :: es') ≠ e := multi_ne_of_mem (List.mem_cons_self ..)
    simp [gather, hne]

/-- Gathering passes a single failure through and wraps several, so either way the leaves of the
result are those of the parts. -/
theorem leaves_of_gather {es : List Failure} {g : Failure} (h : gather es = some g) :
    g.leaves = leavesOf es := by
  match es, h with
  | [_], h => cases h; simp
  | _ :: _ :: _, h => cases h; simp

theorem wellFormed_of_gather {es : List Failure} {g : Failure} (hes : ∀ e ∈ es, e.WellFormed)
    (h : gather es = some g) : g.WellFormed := by
  match es, h with
  | [e], h =>
    obtain rfl : e = g := Option.some.inj h
    exact hes e (List.mem_singleton_self e)
  | _ :: _ :: _, h =>
    cases h
    exact .multi (List.cons_ne_nil _ _) hes

/-! ### Text and fatality of a tree -/

theorem messages_cons_cons (e e' : Failure) (es : List Failure) :
    messages (e :: e' :: es) = e.message ++ "; " ++ messages (e' :: es) := rfl

/-- The texts of several trees, each the join of its leaves, join to the texts of all leaves. -/
theorem messages_eq_join_leavesOf {es : List Failure} (hne : es ≠ [])
    (h : ∀ e ∈ es, e.message = "; ".intercalate (e.leaves.map message) ∧ e.leaves ≠ []) :
    messages es = "; ".intercalate ((leavesOf es).map message) ∧ leavesOf es ≠ [] := by
  induction es with
  | nil => exact absurd rfl hne
  | cons e rest ih =>
    obtain ⟨he, hle⟩ := h e (List.mem_cons_self ..)
    rcases rest with _ | ⟨e', rest⟩
    · simp [messages, he, hle]
    -- the rest is no empty list either, so its text and leaves come from the induction
    obtain ⟨hrest, hrle⟩ := ih (List.cons_ne_nil _ _) fun x hx => h x (List.mem_cons_of_mem _ hx)
    refine ⟨?_, by rw [leavesOf_cons]; exact List.append_ne_nil_of_left_ne_nil hle _⟩
    rw [messages_cons_cons, leavesOf_cons, List.map_append,
      String.intercalate_append_of_ne_nil (by rwa [Ne, List.map_eq_nil_iff])
        (by rwa [Ne, List.map_eq_nil_iff]), he, hrest]

/-- The text of a well-formed tree is the texts of its leaves joined with "; ". -/
theorem message_eq_join_leaves {f : Failure} (hf : f.WellFormed) :
    f.message = "; ".intercalate (f.leaves.map message) ∧ f.leaves ≠ [] := by
  induction hf with
  | multi hne _ ih =>
    rw [leaves_multi]
    exact messages_eq_join_leavesOf hne ih
  | single hs =>
    rw [leaves_of_ne_multi hs]
    simp

mutual
/-- A tree is fatal exactly when one of its leaves is. -/
theorem isFatal_eq_any_leaves : ∀ f : Failure, f.isFatal = f.leaves.any isFatal
  | .multi es => by rw [isFatal, leaves_multi, anyFatal_eq_any_leavesOf es]
  | .config _ | .cluster _ | .merge _ | .precondition _ | .pollTimeout _ | .raised _ _ => by
    simp [leaves]

theorem anyFatal_eq_any_leavesOf : ∀ es : List Failure, anyFatal es = (leavesOf es).any isFatal
  | [] => by simp [anyFatal]
  | e :: es => by
    rw [anyFatal, leavesOf_cons, List.any_append, isFatal_eq_any_leaves e,
      anyFatal_eq_any_leavesOf es]
end

/-- A failure from outside the manager's own checks is fatal. -/
theorem isFatal_of_isOwn_eq_false {f : Failure} (h : f.isOwn = false) : f.isFatal = true := by
  cases f <;> simp_all [isOwn, isFatal]

/-- Gathering failures: nothing for none, the first itself exactly when it is alone, an aggregate
of all of them for two or more. An aggregate tree, built with a part in every aggregate, reads
its leaves in depth-first order: its text joins theirs with "; ", and it is fatal exactly when
one of them is, where every failure from outside the manager's own checks is fatal. -/
theorem aggregate_reads_its_leaves (es : List Failure) (f : Failure) (hf : f.WellFormed) :
    (gather es = none ↔ es = []) ∧
    (∀ e rest, es = e :: rest → (gather es = some e ↔ rest = [])) ∧
    (2 ≤ es.length → gather es = some (.multi es)) ∧
    f.message = "; ".intercalate (f.leaves.map message) ∧
    (f.isFatal = true ↔ ∃ l ∈ f.leaves, l.isFatal = true) ∧
    (∀ l ∈ f.leaves, l.isOwn = false → l.isFatal = true) := by
  refine ⟨gather_eq_none_iff es, ?_, gather_of_two_le, (message_eq_join_leaves hf).1, ?_,
    fun l _ => isFatal_of_isOwn_eq_false⟩
  · rintro e rest rfl
    exact gather_cons_eq_self_iff e rest
  · rw [isFatal_eq_any_leaves, List.any_eq_true]

/-- Three levels of aggregates over an expected failure, two fatal ones and a raised one. -/
theorem nested_aggregate_reads_leaves :
    (Failure.multi [.precondition "a", .multi [.config "b", .multi [.pollTimeout "c",
      .raised .valueError "d"]]]).WellFormed ∧
    (gather [.precondition "a", .cluster "b"] = none ↔
      ([.precondition "a", .cluster "b"] : List Failure) = []) ∧
    (∀ e rest, ([.precondition "a", .cluster "b"] : List Failure) = e :: rest →
      (gather [.precondition "a", .cluster "b"] = some e ↔ rest = [])) ∧
    (2 ≤ ([.precondition "a", .cluster "b"] : List Failure).length →
      gather [.precondition "a", .cluster "b"] = some (.multi [.precondition "a", .cluster "b"])) ∧
    (Failure.multi [.precondition "a", .multi [.config "b", .multi [.pollTimeout "c",
      .raised .valueError "d"]]]).message = "; ".intercalate
      ((Failure.multi [.precondition "a", .multi [.config "b", .multi [.pollTimeout "c",
        .raised .valueError "d"]]]).leaves.map message) ∧
    ((Failure.multi [.precondition "a", .multi [.config "b", .multi [.pollTimeout "c",
      .raised .valueError "d"]]]).isFatal = true ↔
      ∃ l ∈ (Failure.multi [.precondition "a", .multi [.config "b", .multi [.pollTimeout "c",
        .raised .valueError "d"]]]).leaves, l.isFatal = true) ∧
    (∀ l ∈ (Failure.multi [.precondition "a", .multi [.config "b", .multi [.pollTimeout "c",
      .raised .valueError "d"]]]).leaves, l.isOwn = false → l.isFatal = true) := by
  have hwf : (Failure.multi [.precondition "a", .multi [.config "b", .multi [.pollTimeout "c",
      .raised .valueError "d"]]]).WellFormed := by
    refine .multi (by simp) ?_
    simp only [List.mem_cons, List.not_mem_nil, or_false]
    rintro e (rfl | rfl)
    · exact .single (by simp)
    refine .multi (by simp) ?_
    simp only [List.mem_cons, List.not_mem_nil, or_false]
    rintro e (rfl | rfl)
    · exact .single (by simp)
    refine .multi (by simp) ?_
    simp only [List.mem_cons, List.not_mem_nil, or_false]
    rintro e (rfl | rfl) <;> exact .single (by simp)
  exact ⟨hwf, aggregate_reads_its_leaves _ _ hwf⟩

end OperandLifecycle.Failure

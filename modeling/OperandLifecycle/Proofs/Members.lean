import OperandLifecycle.Json.Path
/-!
# Laws of object members

Reading a member after setting or erasing one: `set` writes a member of an object and leaves
anything else alone, `erase` drops it, and a read of another name sees neither.
-/

namespace OperandLifecycle.Json

namespace Fields

theorem get?_cons (k₀ : String) (x : Value) (fs : Fields) (k : String) :
    get? ((k₀, x) :: fs) k = if k₀ = k then some x else get? fs k := by
  simp only [get?, List.find?_cons]
  split <;> simp_all

theorem get?_append (fs gs : Fields) (k : String) :
    get? (fs ++ gs) k = (get? fs k).or (get? gs k) := by
  induction fs with
  | nil => simp [get?]
  | cons p fs ih =>
    obtain ⟨k₀, x⟩ := p
    rw [List.cons_append, get?_cons, get?_cons, ih]
    split <;> simp

theorem contains_iff (fs : Fields) (k : String) : contains fs k = (get? fs k).isSome := by
  induction fs with
  | nil => rfl
  | cons p fs ih =>
    obtain ⟨k₀, x⟩ := p
    simp only [contains, List.any_cons, get?_cons] at ih ⊢
    by_cases h : k₀ = k <;> simp [h, ih]

theorem get?_map_replace (fs : Fields) (k k' : String) (v : Value) :
    get? (fs.map (fun p => if p.1 == k then (k, v) else p)) k' =
      if k' = k then (get? fs k).map (fun _ => v) else get? fs k' := by
  induction fs with
  | nil => simp [get?]
  | cons p fs ih =>
    obtain ⟨k₀, x⟩ := p
    rw [List.map_cons]
    by_cases h₀ : k₀ = k
    · subst h₀
      simp only [beq_self_eq_true, if_true, get?_cons, ih]
      by_cases hk : k' = k₀ <;> simp [hk, Ne.symm]
    · have : (k₀ == k) = false := by simpa using h₀
      simp only [this, Bool.false_eq_true, if_false, get?_cons, ih, h₀]
      by_cases hk : k' = k
      · subst hk; simp [h₀]
      · simp [hk]

@[simp] theorem get?_insert (fs : Fields) (k k' : String) (v : Value) :
    get? (insert fs k v) k' = if k' = k then some v else get? fs k' := by
  unfold insert
  split
  · rename_i hc
    rw [get?_map_replace]
    rw [contains_iff] at hc
    obtain ⟨y, hy⟩ := Option.isSome_iff_exists.1 hc
    by_cases hk : k' = k <;> simp [hk, hy]
  · rename_i hc
    have hnone : get? fs k = none := by simpa [contains_iff] using hc
    rw [get?_append, get?_cons]
    by_cases hk : k' = k
    · subst hk
      rw [hnone]
      simp
    · simp [hk, Ne.symm hk, get?]

@[simp] theorem get?_erase (fs : Fields) (k k' : String) :
    get? (erase fs k) k' = if k' = k then none else get? fs k' := by
  induction fs with
  | nil => simp [erase, get?]
  | cons p fs ih =>
    obtain ⟨k₀, x⟩ := p
    simp only [erase, List.filter_cons, bne_iff_ne, ne_eq] at ih ⊢
    by_cases h₀ : k₀ = k
    · subst h₀
      simp only [not_true, if_false, ih, get?_cons]
      by_cases hk : k' = k₀ <;> simp [hk, eq_comm]
    · simp only [h₀, not_false_eq_true, if_true, get?_cons, ih]
      by_cases hk : k₀ = k' <;> by_cases hk' : k' = k <;> simp_all

end Fields

namespace Value

theorem get?_obj (fs : Fields) (k : String) : (Value.obj fs).get? k = Fields.get? fs k := rfl

theorem set_obj (fs : Fields) (k : String) (x : Value) :
    (Value.obj fs).set k x = .obj (Fields.insert fs k x) := rfl

/-- Setting a member of something that is no object changes nothing. -/
theorem set_of_not_obj {v : Value} (h : v.isObj = false) (k : String) (x : Value) :
    v.set k x = v := by
  cases v <;> simp_all [set, isObj]

@[simp] theorem get?_set (v : Value) (k k' : String) (x : Value) :
    (v.set k x).get? k' = if v.isObj ∧ k' = k then some x else v.get? k' := by
  cases v with
  | obj fs => simp [set_obj, get?_obj, Fields.get?_insert, isObj]
  | _ => simp [set, isObj]

@[simp] theorem get?_erase (v : Value) (k k' : String) :
    (v.erase k).get? k' = if v.isObj ∧ k' = k then none else v.get? k' := by
  cases v with
  | obj fs => simp [erase, get?_obj, Fields.get?_erase, isObj]
  | _ => simp [erase, isObj]

@[simp] theorem isObj_set (v : Value) (k : String) (x : Value) : (v.set k x).isObj = v.isObj := by
  cases v <;> rfl

@[simp] theorem isObj_erase (v : Value) (k : String) : (v.erase k).isObj = v.isObj := by
  cases v <;> rfl

theorem getD_eq (v : Value) (k : String) : v.getD k = (v.get? k).getD .null := rfl

/-- The member read by `field` is the one `get?` finds, null when missing, on an object. -/
theorem field_eq_of_isObj {v : Value} (h : v.isObj = true) (k : String) :
    v.field k = .ok (v.getD k) := by
  cases v <;> simp_all [field, isObj, getD, get?]

theorem fieldOr_eq_of_isObj {v : Value} (h : v.isObj = true) (k : String) (d : Value) :
    v.fieldOr k d = .ok ((v.get? k).getD d) := by
  cases v <;> simp_all [fieldOr, isObj, get?]

end Value

end OperandLifecycle.Json

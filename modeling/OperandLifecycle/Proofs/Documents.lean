import OperandLifecycle.Proofs.Members
/-!
# Decoded documents

A document decoded from JSON text holds each of its objects as a map: the reader keeps one
member per key. `Value.WellKeyed` says that of a value, at every depth, and `Value.KeysAll`
says of every key at every depth that it has a property; `Value.checkKeys` decides both at
once. Such an object is
determined by its keys and what each key reads (`Fields.ext_of_keys`): two member lists with
distinct keys, the same keys in the same order and the same value under every key are one list.

`Value.atPath` follows a path of keys through nested objects, the way a reader of a document
reaches a value deep inside it.
-/

namespace OperandLifecycle.Json

/-- Every object in the value, at every depth, has distinct keys. -/
inductive Value.WellKeyed : Value → Prop
  | arr {xs : List Value} : (∀ x ∈ xs, WellKeyed x) → WellKeyed (.arr xs)
  | obj {fs : Fields} : (Fields.keys fs).Nodup → (∀ p ∈ fs, WellKeyed p.2) → WellKeyed (.obj fs)
  | scalar {v : Value} : v.isArr = false → v.isObj = false → WellKeyed v

/-- Every member key inside the value, at every depth, satisfies `P`. -/
inductive Value.KeysAll (P : String → Prop) : Value → Prop
  | arr {xs : List Value} : (∀ x ∈ xs, KeysAll P x) → KeysAll P (.arr xs)
  | obj {fs : Fields} : (∀ p ∈ fs, P p.1) → (∀ p ∈ fs, KeysAll P p.2) → KeysAll P (.obj fs)
  | scalar {v : Value} : v.isArr = false → v.isObj = false → KeysAll P v

/-- The value a path of keys leads to through nested objects; the empty path leads to the value
itself. -/
def Value.atPath (v : Value) : List String → Option Value
  | [] => some v
  | k :: path => (v.get? k).bind (·.atPath path)

namespace Fields

theorem mem_keys_iff_get?_isSome (fs : Fields) (k : String) : k ∈ keys fs ↔ (get? fs k).isSome := by
  induction fs with
  | nil => simp [keys, get?]
  | cons p fs ih =>
    obtain ⟨k₀, x⟩ := p
    simp only [keys, List.map_cons, List.mem_cons] at ih ⊢
    rw [get?_cons, ih]
    by_cases h : k₀ = k
    · simp [h]
    · simp [h, Ne.symm h]

theorem contains_eq_true_iff (fs : Fields) (k : String) : contains fs k = true ↔ k ∈ keys fs := by
  rw [contains_iff, mem_keys_iff_get?_isSome]

theorem get?_eq_none_iff (fs : Fields) (k : String) : get? fs k = none ↔ k ∉ keys fs := by
  rw [mem_keys_iff_get?_isSome]
  simp

theorem mem_of_get? {fs : Fields} {k : String} {v : Value} (h : get? fs k = some v) :
    (k, v) ∈ fs := by
  induction fs with
  | nil => simp [get?] at h
  | cons p fs ih =>
    obtain ⟨k₀, x⟩ := p
    rw [get?_cons] at h
    split at h
    · cases h
      simp_all
    · exact List.mem_cons_of_mem _ (ih h)

/-- In a list with distinct keys, a member is what its key reads. -/
theorem get?_of_mem {fs : Fields} (hfs : (keys fs).Nodup) {k : String} {v : Value}
    (h : (k, v) ∈ fs) : get? fs k = some v := by
  induction fs with
  | nil => simp at h
  | cons p fs ih =>
    obtain ⟨k₀, x⟩ := p
    simp only [keys, List.map_cons, List.nodup_cons] at hfs
    rw [get?_cons]
    rcases List.mem_cons.1 h with h | h
    · cases h
      simp
    · -- the head's key is not among the tail's, so it is not `k`
      have hk : k₀ ≠ k := fun hk => hfs.1 (hk ▸ List.mem_map_of_mem (f := Prod.fst) h)
      simp only [hk, if_false]
      exact ih hfs.2 h

/-- Two member lists with distinct keys, the same keys in order and the same value under every
key are equal. -/
theorem ext_of_keys {fs gs : Fields} (hnd : (keys fs).Nodup) (hkeys : keys fs = keys gs)
    (hget : ∀ k, get? fs k = get? gs k) : fs = gs := by
  induction fs generalizing gs with
  | nil => simpa [keys] using hkeys.symm
  | cons p fs ih =>
    obtain ⟨k₀, x⟩ := p
    rcases gs with _ | ⟨⟨k₁, y⟩, gs⟩
    · simp [keys] at hkeys
    simp only [keys, List.map_cons, List.cons.injEq, List.nodup_cons] at hkeys hnd
    obtain ⟨rfl, hkeys⟩ := hkeys
    -- the heads agree on their key, so on their value
    have hxy : x = y := by simpa [get?_cons] using hget k₀
    subst hxy
    refine congrArg _ (ih hnd.2 hkeys fun k => ?_)
    by_cases hk : k = k₀
    · subst hk
      have hg : k ∉ keys gs := by simpa [keys, ← hkeys] using hnd.1
      rw [(get?_eq_none_iff fs k).2 hnd.1, (get?_eq_none_iff gs k).2 hg]
    · simpa [get?_cons, Ne.symm hk] using hget k

end Fields

namespace Value.WellKeyed

variable {fs : Fields}

theorem keys_nodup (h : (Value.obj fs).WellKeyed) : (Fields.keys fs).Nodup := by
  cases h with
  | obj hnd _ => exact hnd
  | scalar _ hobj => cases hobj

theorem member (h : (Value.obj fs).WellKeyed) {p : String × Value} (hp : p ∈ fs) :
    p.2.WellKeyed := by
  cases h with
  | obj _ hmem => exact hmem p hp
  | scalar _ hobj => cases hobj

theorem of_get? (h : (Value.obj fs).WellKeyed) {k : String} {v : Value}
    (hv : Fields.get? fs k = some v) : v.WellKeyed :=
  h.member (Fields.mem_of_get? hv)

theorem nil : (Value.obj []).WellKeyed := .obj List.nodup_nil (by simp)

theorem item {xs : List Value} (h : (Value.arr xs).WellKeyed) {x : Value} (hx : x ∈ xs) :
    x.WellKeyed := by
  cases h with
  | arr hxs => exact hxs x hx
  | scalar harr _ => cases harr

end Value.WellKeyed

namespace Value.KeysAll

variable {P : String → Prop}

theorem member {fs : Fields} (h : (Value.obj fs).KeysAll P) {p : String × Value} (hp : p ∈ fs) :
    P p.1 ∧ p.2.KeysAll P := by
  cases h with
  | obj hkeys hfs => exact ⟨hkeys p hp, hfs p hp⟩
  | scalar _ hobj => cases hobj

theorem item {xs : List Value} (h : (Value.arr xs).KeysAll P) {x : Value} (hx : x ∈ xs) :
    x.KeysAll P := by
  cases h with
  | arr hxs => exact hxs x hx
  | scalar harr _ => cases harr

theorem mono {Q : String → Prop} {v : Value} (h : v.KeysAll P) (hPQ : ∀ k, P k → Q k) :
    v.KeysAll Q := by
  induction h with
  | arr _ ih => exact .arr ih
  | obj hkeys _ ih => exact .obj (fun p hp => hPQ _ (hkeys p hp)) ih
  | scalar harr hobj => exact .scalar harr hobj

end Value.KeysAll

/-! ### Checking keys by computation -/

mutual
/-- Whether every object in the value, at every depth, has distinct keys that all pass `p`. -/
def Value.checkKeys (p : String → Bool) : Value → Bool
  | .arr xs => Value.checkItemKeys p xs
  | .obj fs => decide (Fields.keys fs).Nodup && Value.checkMemberKeys p fs
  | _ => true

/-- `Value.checkKeys` of every item. -/
def Value.checkItemKeys (p : String → Bool) : List Value → Bool
  | [] => true
  | x :: xs => x.checkKeys p && Value.checkItemKeys p xs

/-- Every key passes `p`, and `Value.checkKeys` holds of every member. -/
def Value.checkMemberKeys (p : String → Bool) : Fields → Bool
  | [] => true
  | (k, x) :: rest => p k && x.checkKeys p && Value.checkMemberKeys p rest
end

-- each recursive call is made before the case split on membership, on a subterm of the input
mutual
theorem Value.keysAll_of_checkKeys {p : String → Bool} :
    ∀ {v : Value}, v.checkKeys p = true → v.WellKeyed ∧ v.KeysAll (p · = true)
  | .null, _ => ⟨.scalar rfl rfl, .scalar rfl rfl⟩
  | .bool _, _ => ⟨.scalar rfl rfl, .scalar rfl rfl⟩
  | .int _, _ => ⟨.scalar rfl rfl, .scalar rfl rfl⟩
  | .float _, _ => ⟨.scalar rfl rfl, .scalar rfl rfl⟩
  | .str _, _ => ⟨.scalar rfl rfl, .scalar rfl rfl⟩
  | .arr xs, h => by
    have hxs : Value.checkItemKeys p xs = true := by simpa [Value.checkKeys] using h
    have hitems := Value.keysAll_of_checkItemKeys hxs
    exact ⟨.arr fun x hx => (hitems x hx).1, .arr fun x hx => (hitems x hx).2⟩
  | .obj fs, h => by
    simp only [Value.checkKeys, Bool.and_eq_true, decide_eq_true_eq] at h
    have hmem := Value.keysAll_of_checkMemberKeys h.2
    exact ⟨.obj h.1 fun q hq => (hmem q hq).2.1, .obj (fun q hq => (hmem q hq).1)
      fun q hq => (hmem q hq).2.2⟩

theorem Value.keysAll_of_checkItemKeys {p : String → Bool} :
    ∀ {xs : List Value}, Value.checkItemKeys p xs = true →
      ∀ x ∈ xs, x.WellKeyed ∧ x.KeysAll (p · = true)
  | [], _ => by simp
  | y :: ys, h => by
    simp only [Value.checkItemKeys, Bool.and_eq_true] at h
    have hy := Value.keysAll_of_checkKeys h.1
    have hys := Value.keysAll_of_checkItemKeys h.2
    intro x hx
    rcases List.mem_cons.1 hx with rfl | hx
    · exact hy
    · exact hys x hx

theorem Value.keysAll_of_checkMemberKeys {p : String → Bool} :
    ∀ {fs : Fields}, Value.checkMemberKeys p fs = true →
      ∀ q ∈ fs, p q.1 = true ∧ q.2.WellKeyed ∧ q.2.KeysAll (p · = true)
  | [], _ => by simp
  | (k, x) :: rest, h => by
    simp only [Value.checkMemberKeys, Bool.and_eq_true] at h
    have hx := Value.keysAll_of_checkKeys h.1.2
    have hrest := Value.keysAll_of_checkMemberKeys h.2
    intro q hq
    rcases List.mem_cons.1 hq with rfl | hq
    · exact ⟨h.1.1, hx⟩
    · exact hrest q hq
end

end OperandLifecycle.Json

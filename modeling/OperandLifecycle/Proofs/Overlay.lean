import OperandLifecycle.Proofs.Documents
import OperandLifecycle.Json.Overlay
/-!
# Laws of overlaying documents

`Fields.overlay t o` lays the members of an override `o` over a template `t`. On decoded
documents (`Value.WellKeyed`) it is an operation on maps, and it is read key by key
(`get?_overlay`): under a key of `o` the result holds what `overlayMember` makes of the two
members, and elsewhere the template's member. Its keys are the template's followed by the new
keys of the override (`keys_overlay`).

From that reading follow its laws: the empty override and the empty template change nothing
(`overlay_nil`, `nil_overlay`), laying the same override twice is laying it once
(`overlay_overlay_self`), and a scalar that the override reaches through a path of objects is
what the result holds at the end of that path (`atPath_overlay`). The induction behind the last
two runs over the nesting of the override, one level of objects at a time. `merge_laws` states
all of it for a merge of two decoded objects.
-/

namespace OperandLifecycle.Json

/-- What an override member `v` leaves over the template's member of its key, if there is one:
two objects are overlaid, and anything else gives way to `v`. -/
def overlayMember : Option Value → Value → Value
  | some (.obj b), .obj ov => .obj (Fields.overlay b ov)
  | _, v => v

theorem overlayMember_of_not_obj (x : Option Value) {v : Value} (hv : v.isObj = false) :
    overlayMember x v = v := by
  rcases x with _ | ⟨_ | _ | _ | _ | _ | _ | _⟩ <;> cases v <;> simp_all [overlayMember, Value.isObj]

namespace Fields

@[simp] theorem overlay_nil (base : Fields) : overlay base [] = base := by
  rw [overlay]

theorem overlay_cons (base : Fields) (k : String) (v : Value) (rest : Fields) :
    overlay base ((k, v) :: rest) = overlay (insert base k (overlayMember (get? base k) v)) rest := by
  rw [overlay.eq_def]
  dsimp only
  split <;> simp_all [overlayMember]

theorem keys_insert (fs : Fields) (k : String) (v : Value) :
    keys (insert fs k v) = if k ∈ keys fs then keys fs else keys fs ++ [k] := by
  unfold insert
  by_cases hk : k ∈ keys fs
  · -- a member replaced in place keeps its key
    rw [if_pos ((contains_eq_true_iff fs k).2 hk), if_pos hk]
    simp only [keys, List.map_map]
    refine List.map_congr_left fun p _ => ?_
    by_cases hp : p.1 = k <;> simp [hp]
  · rw [if_neg (by rwa [contains_eq_true_iff]), if_neg hk]
    simp [keys]

theorem keys_cons (k : String) (v : Value) (fs : Fields) : keys ((k, v) :: fs) = k :: keys fs := rfl

/-- The keys of an overlay: the template's, then the override's that the template lacks. -/
theorem keys_overlay (t o : Fields) (ho : (keys o).Nodup) :
    keys (overlay t o) = keys t ++ (keys o).filter (fun k => k ∉ keys t) := by
  induction o generalizing t with
  | nil => simp [keys]
  | cons p rest ih =>
    obtain ⟨k, v⟩ := p
    rw [keys_cons, List.nodup_cons] at ho
    rw [overlay_cons, ih _ ho.2, keys_insert, keys_cons]
    by_cases hk : k ∈ keys t
    · rw [if_pos hk, List.filter_cons_of_neg (by simpa using hk)]
    · -- `k` is new, and no other key of the override is `k`
      rw [if_neg hk, List.filter_cons_of_pos (by simpa using hk), List.append_assoc,
        List.singleton_append]
      refine congrArg _ (congrArg _ (List.filter_congr fun k' hk' => ?_))
      have : k' ≠ k := fun h => ho.1 (h ▸ hk')
      simp [this]

theorem mem_keys_overlay (t o : Fields) (ho : (keys o).Nodup) (k : String) :
    k ∈ keys (overlay t o) ↔ k ∈ keys t ∨ k ∈ keys o := by
  rw [keys_overlay t o ho, List.mem_append, List.mem_filter]
  by_cases hk : k ∈ keys t <;> simp [hk]

theorem nodup_keys_overlay {t o : Fields} (ht : (keys t).Nodup) (ho : (keys o).Nodup) :
    (keys (overlay t o)).Nodup := by
  rw [keys_overlay t o ho, List.nodup_append]
  refine ⟨ht, ho.filter _, fun a ha b hb => ?_⟩
  rintro rfl
  exact absurd ha (by simpa using (List.mem_filter.1 hb).2)

/-- An overlay read by key: under a key of the override, what `overlayMember` makes of the two
members; elsewhere, the template's member. -/
theorem get?_overlay (t o : Fields) (ho : (keys o).Nodup) (k : String) :
    get? (overlay t o) k = ((get? o k).map (overlayMember (get? t k))).or (get? t k) := by
  induction o generalizing t with
  | nil => simp [get?]
  | cons p rest ih =>
    obtain ⟨k₀, v⟩ := p
    simp only [keys, List.map_cons, List.nodup_cons] at ho
    rw [overlay_cons, ih _ ho.2, get?_cons, get?_insert]
    by_cases hk : k = k₀
    · -- the override names `k` once, at its head
      subst hk
      rw [(get?_eq_none_iff rest k).2 ho.1]
      simp
    · simp [hk, Ne.symm hk]

/-- The empty template leaves the override as it is. -/
theorem nil_overlay (o : Fields) (ho : (keys o).Nodup) : overlay [] o = o := by
  refine ext_of_keys (nodup_keys_overlay List.nodup_nil ho) (by rw [keys_overlay [] o ho]; simp [keys])
    fun k => ?_
  rw [get?_overlay [] o ho]
  cases get? o k <;> simp [get?, overlayMember]

end Fields

/-! ### Laws that follow the nesting of the override -/

/-- Laying the member `v` a second time over what it left changes nothing, when every object
inside `v` has that law. -/
theorem overlayMember_overlayMember (x : Option Value) {v : Value}
    (hv : ∀ ov, v = .obj ov → (Fields.keys ov).Nodup ∧
      ∀ t, (Value.obj t).WellKeyed → Fields.overlay (Fields.overlay t ov) ov = Fields.overlay t ov)
    (hx : ∀ b, x = some (.obj b) → (Value.obj b).WellKeyed) :
    overlayMember (some (overlayMember x v)) v = overlayMember x v := by
  cases v with
  | obj ov =>
    obtain ⟨hnd, hidem⟩ := hv ov rfl
    rcases x with _ | ⟨_ | _ | _ | _ | _ | _ | b⟩
    -- over a template object, the second overlay is the first one again
    case obj.some.obj => simp [overlayMember, hidem b (hx b rfl)]
    -- over anything else, the override object is laid over itself
    all_goals
      have hself := hidem [] Value.WellKeyed.nil
      rw [Fields.nil_overlay ov hnd] at hself
      simp [overlayMember, hself]
  | _ => rw [overlayMember_of_not_obj x rfl, overlayMember_of_not_obj _ rfl]

/-- The overlay of two decoded objects is a decoded object. -/
theorem Value.WellKeyed.overlay {t o : Fields} (ht : (Value.obj t).WellKeyed)
    (ho : (Value.obj o).WellKeyed) : (Value.obj (t.overlay o)).WellKeyed := by
  -- induction on the override, for every template
  generalize hv : Value.obj o = v at ho
  induction ho generalizing t o with
  | arr _ _ => cases hv
  | scalar _ hobj => cases hv; cases hobj
  | obj hnd hmem ih =>
    injection hv with hv
    subst hv
    refine .obj (Fields.nodup_keys_overlay ht.keys_nodup hnd) fun p hp => ?_
    have hget := Fields.get?_of_mem (Fields.nodup_keys_overlay ht.keys_nodup hnd) hp
    rw [Fields.get?_overlay t _ hnd] at hget
    rcases ho : Fields.get? o p.1 with _ | w
    · rw [ho] at hget
      exact ht.of_get? (by simpa using hget)
    · rw [ho] at hget
      simp only [Option.map_some, Option.some_or, Option.some.injEq] at hget
      rw [← hget]
      have hw := Fields.mem_of_get? ho
      rcases hx : Fields.get? t p.1 with _ | ⟨_ | _ | _ | _ | _ | _ | b⟩ <;>
        cases w <;> first
          | exact hmem _ hw
          | exact ih _ hw (ht.of_get? hx) rfl

theorem Fields.overlay_overlay_self {t o : Fields} (ht : (Value.obj t).WellKeyed)
    (ho : (Value.obj o).WellKeyed) : overlay (overlay t o) o = overlay t o := by
  generalize hv : Value.obj o = v at ho
  induction ho generalizing t o with
  | arr _ _ => cases hv
  | scalar _ hobj => cases hv; cases hobj
  | obj hnd hmem ih =>
    injection hv with hv
    subst hv
    have hnd₁ := nodup_keys_overlay ht.keys_nodup hnd
    refine ext_of_keys (nodup_keys_overlay hnd₁ hnd) ?_ fun k => ?_
    · -- every key of the override is already a key of the first overlay
      rw [keys_overlay _ o hnd, List.filter_eq_nil_iff.2, List.append_nil]
      intro k hk
      simpa using (mem_keys_overlay t o hnd k).2 (.inr hk)
    · rw [get?_overlay _ o hnd, get?_overlay t o hnd]
      rcases hk : get? o k with _ | w
      · rfl
      · simp only [Option.map_some, Option.some_or]
        refine congrArg some (overlayMember_overlayMember _ (fun ov hw => ?_) fun b hb =>
          ht.of_get? hb)
        have hmemw := mem_of_get? hk
        have hwk : (Value.obj ov).WellKeyed := hw ▸ hmem _ hmemw
        exact ⟨hwk.keys_nodup, fun t' ht' => ih _ hmemw ht' hw.symm⟩

/-- A scalar the override reaches through a path of objects is what the overlay holds at the
end of that path. -/
theorem Fields.atPath_overlay (t : Fields) {o : Fields} (ho : (Value.obj o).WellKeyed)
    (path : List String) {v : Value} (hpath : (Value.obj o).atPath path = some v)
    (hv : v.isObj = false) : (Value.obj (overlay t o)).atPath path = some v := by
  induction path generalizing t o with
  | nil => cases hpath; cases hv
  | cons k path ih =>
    obtain ⟨w, hw, hrest⟩ := Option.bind_eq_some_iff.1 hpath
    rw [Value.get?_obj] at hw
    simp only [Value.atPath, Value.get?_obj, get?_overlay t o ho.keys_nodup k, hw,
      Option.map_some, Option.some_or, Option.bind_some]
    cases path with
    | nil =>
      cases hrest
      rw [overlayMember_of_not_obj _ hv]
      rfl
    | cons k' path' =>
      -- a path goes on only through an object
      cases w with
      | obj ow =>
        have how := ho.of_get? hw
        rcases hx : get? t k with _ | ⟨_ | _ | _ | _ | _ | _ | b⟩ <;>
          first
            | exact ih b how hrest
            | exact hrest
      | _ => simp [Value.atPath, Value.get?] at hrest

/-- Merging two documents given as decoded objects overlays their members. -/
theorem mergeDocuments_obj (t o : Fields) :
    mergeDocuments (.value (.obj t)) (.value (.obj o)) = .ok (t.overlay o) := rfl

/-- The merge of two decoded objects `t` and `o`: it is a decoded object with the keys of both,
holding under each key the merge of the two members when both are objects, else the override's
member when there is one, else the template's; merging the empty object on either side gives
the other side back; merging the same override again changes nothing; and every scalar the
override reaches through a path of objects is in the result at the end of that path. -/
theorem merge_laws {t o : Fields} (ht : (Value.obj t).WellKeyed) (ho : (Value.obj o).WellKeyed) :
    ∃ r, mergeDocuments (.value (.obj t)) (.value (.obj o)) = .ok r ∧
      (Value.obj r).WellKeyed ∧
      (∀ k, k ∈ Fields.keys r ↔ k ∈ Fields.keys t ∨ k ∈ Fields.keys o) ∧
      (∀ k, Fields.get? r k = match Fields.get? t k, Fields.get? o k with
        | some (.obj b), some (.obj ov) =>
          (mergeDocuments (.value (.obj b)) (.value (.obj ov))).toOption.map .obj
        | _, some v => some v
        | x, none => x) ∧
      mergeDocuments (.value (.obj t)) (.value (.obj [])) = .ok t ∧
      mergeDocuments (.value (.obj [])) (.value (.obj o)) = .ok o ∧
      mergeDocuments (.value (.obj r)) (.value (.obj o)) = .ok r ∧
      ∀ path v, (Value.obj o).atPath path = some v → v.isObj = false →
        (Value.obj r).atPath path = some v := by
  have hnd := ho.keys_nodup
  refine ⟨t.overlay o, rfl, ht.overlay ho, Fields.mem_keys_overlay t o hnd, fun k => ?_,
    by simp [mergeDocuments_obj], by rw [mergeDocuments_obj, Fields.nil_overlay o hnd],
    by rw [mergeDocuments_obj, Fields.overlay_overlay_self ht ho],
    fun path v hpath hv => Fields.atPath_overlay t ho path hpath hv⟩
  -- the three readings of a key are the cases of `overlayMember`
  rw [Fields.get?_overlay t o hnd]
  rcases Fields.get? o k with _ | w <;>
    rcases Fields.get? t k with _ | ⟨_ | _ | _ | _ | _ | _ | b⟩ <;>
    first | rfl | (cases w <;> rfl)

/-- Raising the replica count in a template's `spec`: merging the override again changes nothing,
and the new count is what the result holds under `spec.replicas`. -/
theorem merge_raises_replicas :
    (Value.obj [("spec", .obj [("replicas", .int 1), ("image", .str "op")])]).WellKeyed ∧
    (Value.obj [("spec", .obj [("replicas", .int 3)])]).WellKeyed ∧
    ∃ r, mergeDocuments (.value (.obj [("spec", .obj [("replicas", .int 1), ("image", .str "op")])]))
        (.value (.obj [("spec", .obj [("replicas", .int 3)])])) = .ok r ∧
      mergeDocuments (.value (.obj r)) (.value (.obj [("spec", .obj [("replicas", .int 3)])])) =
        .ok r ∧
      (Value.obj r).atPath ["spec", "replicas"] = some (.int 3) := by
  have ht : (Value.obj [("spec", .obj [("replicas", .int 1), ("image", .str "op")])]).WellKeyed :=
    .obj (by decide) (by simpa using .obj (by decide) (by simpa using ⟨.scalar rfl rfl, .scalar rfl rfl⟩))
  have ho : (Value.obj [("spec", .obj [("replicas", .int 3)])]).WellKeyed :=
    .obj (by decide) (by simpa using .obj (by decide) (by simpa using .scalar rfl rfl))
  obtain ⟨r, hr, -, -, -, -, -, hidem, hpath⟩ := merge_laws ht ho
  exact ⟨ht, ho, r, hr, hidem, hpath ["spec", "replicas"] (.int 3) rfl rfl⟩

end OperandLifecycle.Json

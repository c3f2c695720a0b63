import OperandLifecycle.Proofs.RequestMembers
import OperandLifecycle.Proofs.Footprint
/-!
# Upserting and removing request members

A request status keeps one member per operator name. `setMember` is an upsert keyed by that
name and `removeMember` drops the member of a name; both answer whether the status changed.
Names are compared as the manager compares values, and a member named by a text is named by
exactly that text (`Value.equiv_str_iff`).

The laws hold on a status whose members are missing or a list of objects with pairwise
distinct names: after an upsert the named member holds the new phase, names stay distinct,
every other member keeps its value and its place, a new name goes last, and the flag says
whether the status changed; after a removal no member has the name, the others stay as they
were, and the flag again says whether the status changed. A null `members` field reads as no
members, so a removal leaves it alone, but it holds no list for an upsert to append to.
-/

namespace OperandLifecycle.Status

open Json

/-- Whether a member carries the name `n`, as the manager compares names. -/
def hasName (n : String) (m : Value) : Bool := (m.getD "name").equiv (.str n)

/-- Members whose names are pairwise distinct, as the manager compares names. -/
def DistinctNames (ms : List Value) : Prop :=
  ms.Pairwise (fun a b => (a.getD "name").equiv (b.getD "name") = false)

/-- The forms of a status's `members` field the member helpers are written for: missing, null,
or a list of objects with pairwise distinct names. -/
inductive MemberList : Option Value → Prop
  | missing : MemberList none
  | null : MemberList (some .null)
  | list {ms : List Value} (objects : ∀ m ∈ ms, m.isObj = true) (distinct : DistinctNames ms) :
      MemberList (some (.arr ms))

/-- The member an upsert adds for a new name. -/
def newMember (n : String) (phase : Value) : Value := .obj [("name", .str n), ("phase", phase)]

/-- What an upsert of the member named `n` to `phase` answers, `changed` and the status `s'`,
from the status `s`, with `ms` and `ms'` the members of the two. -/
structure Upserts (n : String) (phase : Value) (s : Value) (ms : List Value) (changed : Bool)
    (s' : Value) (ms' : List Value) : Prop where
  members_before : members s = .ok ms
  members_after : members s' = .ok ms'
  /-- A lookup of the name finds a member holding the phase. -/
  phase_set : ∃ m, getMember s' (.str n) = .ok (some m) ∧ (m.getD "phase").equiv phase = true
  /-- Names stay pairwise distinct. -/
  distinct : DistinctNames ms'
  /-- Every other member is kept, in the same order. -/
  others : ms'.filter (fun m => !hasName n m) = ms.filter (fun m => !hasName n m)
  /-- A name that was missing is added last. -/
  appended : getMember s (.str n) = .ok none → ms' = ms ++ [newMember n phase]
  /-- The answered flag says whether the status changed. -/
  changed_iff : changed = true ↔ s' ≠ s

/-- What a removal of the members named `n` answers, `changed` and the status `s'`, from the
status `s`, with `ms` and `ms'` the members of the two. -/
structure Removes (n : String) (s : Value) (ms : List Value) (changed : Bool) (s' : Value)
    (ms' : List Value) : Prop where
  members_before : members s = .ok ms
  members_after : members s' = .ok ms'
  /-- No member carries the name. -/
  none_named : ∀ m ∈ ms', hasName n m = false
  /-- The other members are kept, in the same order. -/
  others : ms' = ms.filter (fun m => !hasName n m)
  /-- The answered flag says whether the status changed. -/
  changed_iff : changed = true ↔ s' ≠ s

section Names

variable {n : String}

theorem hasName_iff {m : Value} : hasName n m = true ↔ m.getD "name" = .str n :=
  Value.equiv_str_iff

@[simp] theorem hasName_newMember (phase : Value) : hasName n (newMember n phase) = true := by
  simp [hasName_iff, newMember, Value.getD, Value.get?, Fields.get?]

/-- A member named `n` and a member of another name than it are not both named `n`. -/
theorem hasName_eq_false_of_distinct {m x : Value} (hm : hasName n m = true)
    (hd : (m.getD "name").equiv (x.getD "name") = false) : hasName n x = false := by
  rw [hasName_iff] at hm
  rw [hm] at hd
  cases hx : hasName n x
  · rfl
  · rw [hasName_iff] at hx
    rw [hx] at hd
    simp [Value.equiv] at hd

/-- Distinct names depend on the names alone. -/
theorem distinctNames_congr {ms ms' : List Value}
    (h : ms'.map (·.getD "name") = ms.map (·.getD "name")) (hd : DistinctNames ms) :
    DistinctNames ms' := by
  unfold DistinctNames at hd ⊢
  have hmap : (ms.map (·.getD "name")).Pairwise (fun a b => a.equiv b = false) :=
    List.pairwise_map.2 hd
  rw [← h] at hmap
  exact List.pairwise_map.1 hmap

end Names

section Search

variable {ms : List Value}

/-- On objects the lookup of a member is the first one carrying the name. -/
theorem findNamed_eq_find? (hobj : ∀ m ∈ ms, m.isObj = true) (n : String) :
    findNamed (.str n) ms = .ok (ms.find? (hasName n)) := by
  induction ms with
  | nil => rfl
  | cons m ms ih =>
    have hm : m.field "name" = .ok (m.getD "name") := Value.field_eq_of_isObj (hobj m (by simp)) _
    have ih' := ih (fun x hx => hobj x (by simp [hx]))
    simp only [findNamed, hm, List.find?_cons, bind, Except.bind]
    cases h : hasName n m
    · simp only [hasName] at h
      simpa [h] using ih'
    · simp only [hasName] at h
      simp only [h]
      rfl

/-- Replacing the first member of a name, when it comes after members of other names. -/
theorem replaceFirstNamed_split {pre post : List Value} {m m' : Value} (n : String)
    (hpre : ∀ x ∈ pre, hasName n x = false) (hm : hasName n m = true) :
    replaceFirstNamed (.str n) m' (pre ++ m :: post) = pre ++ m' :: post := by
  induction pre with
  | nil =>
    simp only [hasName] at hm
    simp [replaceFirstNamed, hm]
  | cons x pre ih =>
    have hx : (x.getD "name").equiv (.str n) = false := hpre x (by simp)
    simp only [List.cons_append, replaceFirstNamed, hx, Bool.false_eq_true, if_false]
    rw [ih (fun y hy => hpre y (by simp [hy]))]

theorem getMember_of_members {s : Value} (h : members s = .ok ms) (n : String) :
    getMember s (.str n) = findNamed (.str n) ms := by
  simp only [getMember, h]
  rfl

end Search

section Upsert

variable {fs : Fields} {n : String} {op : CsvPhase} {operand : ServicePhase}

/-- The recorded phase pair is equal to itself as the manager compares values. -/
theorem memberPhase_equiv_self (op : CsvPhase) (operand : ServicePhase) :
    (memberPhase op operand).equiv (memberPhase op operand) = true := by
  simp [memberPhase, Value.equiv, Value.equivMembers, Value.isNaN]

theorem members_set_arr (s : Value) (hs : s.isObj = true) (ms : List Value) :
    members (s.set "members" (.arr ms)) = .ok ms := by
  cases s with
  | obj fs =>
    rw [Value.set_obj]
    exact members_of_arr (by simp)
  | _ => simp [Value.isObj] at hs

/-- Setting a member that the lookup finds writes its phase in place, unless it already holds
the phase. -/
theorem setMember_of_found {ms : List Value} {m : Value} (hms : members (.obj fs) = .ok ms)
    (hfound : findNamed (.str n) ms = .ok (some m)) :
    setMember (.obj fs) (.str n) op operand =
      if (m.getD "phase").equiv (memberPhase op operand) then .ok (false, .obj fs)
      else .ok (true, (Value.obj fs).set "members"
        (.arr (replaceFirstNamed (.str n) (m.set "phase" (memberPhase op operand)) ms))) := by
  simp only [setMember, getMember, hms, bind, Except.bind, hfound]
  split <;> rfl

/-- Upserting a name no member carries appends a new member. The members field was missing
(`ms` is empty) or held `ms`. -/
theorem upserts_append {ms : List Value} (hobj : ∀ m ∈ ms, m.isObj = true)
    (hd : DistinctNames ms) (hnone : ms.find? (hasName n) = none) (hms : members (.obj fs) = .ok ms)
    (hfield : Fields.get? fs "members" = none ∧ ms = [] ∨ Fields.get? fs "members" = some (.arr ms))
    {phase : Value} (hphase : phase.equiv phase = true) :
    Upserts n phase (.obj fs) ms true
      ((Value.obj fs).set "members" (.arr (ms ++ [newMember n phase]))) (ms ++ [newMember n phase]) := by
  have hout : ∀ x ∈ ms, hasName n x = false := by
    simpa using List.find?_eq_none.1 hnone
  have hobj' : ∀ m ∈ ms ++ [newMember n phase], m.isObj = true := by
    intro m hm
    rcases List.mem_append.1 hm with hm | hm
    · exact hobj m hm
    · simp only [List.mem_singleton] at hm
      subst hm
      rfl
  refine ⟨hms, members_set_arr _ rfl _, ?_, ?_, ?_, fun _ => rfl, ?_⟩
  · -- the new member is the first carrying the name
    refine ⟨newMember n phase, ?_, ?_⟩
    · rw [getMember_of_members (members_set_arr _ rfl _), findNamed_eq_find? hobj']
      simp [List.find?_append, hnone]
    · simpa [newMember, Value.getD, Value.get?, Fields.get?] using hphase
  · unfold DistinctNames
    refine List.pairwise_append.2 ⟨hd, by simp, ?_⟩
    intro x hx y hy
    simp only [List.mem_singleton] at hy
    subst hy
    have : (newMember n phase).getD "name" = .str n := by
      simp [newMember, Value.getD, Value.get?, Fields.get?]
    rw [this]
    simpa [hasName] using hout x hx
  · simp [List.filter_append]
  · -- the members field now holds a longer list than before
    simp only [true_iff]
    intro heq
    have hget := congrArg (fun v => Value.get? v "members") heq
    simp only [Value.get?_set, Value.isObj, Value.get?_obj, true_and, if_true] at hget
    rcases hfield with ⟨hf, -⟩ | hf
    · rw [hf] at hget
      cases hget
    · rw [hf] at hget
      simp only [Option.some.injEq, Value.arr.injEq] at hget
      simpa using congrArg List.length hget

/-- Upserting the phase a member already holds changes nothing. -/
theorem upserts_unchanged {ms : List Value} {m : Value} (hd : DistinctNames ms)
    (hms : members (.obj fs) = .ok ms) (hfound : findNamed (.str n) ms = .ok (some m))
    {phase : Value} (hsame : (m.getD "phase").equiv phase = true) :
    Upserts n phase (.obj fs) ms false (.obj fs) ms := by
  have hget : getMember (.obj fs) (.str n) = .ok (some m) := by
    rw [getMember_of_members hms, hfound]
  refine ⟨hms, hms, ⟨m, hget, hsame⟩, hd, rfl, ?_, ?_⟩
  · intro hnone
    rw [hget] at hnone
    cases hnone
  · simp

/-- Upserting a new phase into a member writes it in place. -/
theorem upserts_replace {ms : List Value} {m : Value} (hobj : ∀ x ∈ ms, x.isObj = true)
    (hd : DistinctNames ms) (hfield : Fields.get? fs "members" = some (.arr ms))
    (hfound : ms.find? (hasName n) = some m) {phase : Value} (hphase : phase.equiv phase = true)
    (hnew : (m.getD "phase").equiv phase = false) :
    Upserts n phase (.obj fs) ms true
      ((Value.obj fs).set "members" (.arr (replaceFirstNamed (.str n) (m.set "phase" phase) ms)))
      (replaceFirstNamed (.str n) (m.set "phase" phase) ms) := by
  have hms := members_of_arr hfield
  obtain ⟨hm, pre, post, rfl, hpre⟩ := List.find?_eq_some_iff_append.1 hfound
  have hpre' : ∀ x ∈ pre, hasName n x = false := by simpa using hpre
  have hpre_none : pre.find? (hasName n) = none := List.find?_eq_none.2 (fun x hx => by simp [hpre' x hx])
  have hmobj : m.isObj = true := hobj m (by simp)
  -- the member keeps its name and takes the phase
  have hname : (m.set "phase" phase).getD "name" = m.getD "name" := by
    simp [Value.getD_eq, hmobj]
  have hphase' : (m.set "phase" phase).getD "phase" = phase := by
    simp [Value.getD_eq, hmobj]
  have hm' : hasName n (m.set "phase" phase) = true := by
    simpa [hasName, hname] using hm
  rw [replaceFirstNamed_split n hpre' hm]
  have hobj' : ∀ x ∈ pre ++ m.set "phase" phase :: post, x.isObj = true := by
    intro x hx
    simp only [List.mem_append, List.mem_cons] at hx
    rcases hx with hx | rfl | hx
    · exact hobj x (by simp [hx])
    · simpa using hmobj
    · exact hobj x (by simp [hx])
  refine ⟨hms, members_set_arr _ rfl _, ?_, ?_, ?_, ?_, ?_⟩
  · refine ⟨m.set "phase" phase, ?_, by rw [hphase']; exact hphase⟩
    rw [getMember_of_members (members_set_arr _ rfl _), findNamed_eq_find? hobj']
    simp [List.find?_append, hpre_none, hm']
  · exact distinctNames_congr (by simp [hname]) hd
  · simp [List.filter_append, hm, hm']
  · intro hnone
    rw [getMember_of_members hms, findNamed_eq_find? hobj, hfound] at hnone
    cases hnone
  · -- the member's phase differs from the one it held
    simp only [true_iff]
    intro heq
    have hget := congrArg (fun v => Value.get? v "members") heq
    simp only [Value.get?_set, Value.isObj, Value.get?_obj, true_and, if_true, hfield,
      Option.some.injEq, Value.arr.injEq, List.append_cancel_left_eq, List.cons.injEq] at hget
    have := congrArg (fun v => Value.getD v "phase") hget.1
    simp only [hphase'] at this
    rw [← this, hphase] at hnew
    cases hnew

/-- The laws of an upsert on a status whose members are missing or a list of objects with
distinct names. -/
theorem setMember_upserts (h : MemberList (Fields.get? fs "members"))
    (hnull : Fields.get? fs "members" ≠ some .null) :
    ∃ changed s' ms ms', setMember (.obj fs) (.str n) op operand = .ok (changed, s') ∧
      Upserts n (memberPhase op operand) (.obj fs) ms changed s' ms' := by
  have hphase := memberPhase_equiv_self op operand
  -- the members read: none when the field is missing, its list otherwise
  obtain ⟨ms, hms, hobj, hd, hfield⟩ : ∃ ms, members (.obj fs) = .ok ms ∧
      (∀ m ∈ ms, m.isObj = true) ∧ DistinctNames ms ∧
      (Fields.get? fs "members" = none ∧ ms = [] ∨ Fields.get? fs "members" = some (.arr ms)) := by
    generalize hf : Fields.get? fs "members" = f at h hnull
    cases h with
    | missing => exact ⟨[], members_of_missing hf, by simp, List.Pairwise.nil, .inl ⟨rfl, rfl⟩⟩
    | null => exact absurd rfl hnull
    | list objects distinct => exact ⟨_, members_of_arr hf, objects, distinct, .inr rfl⟩
  cases hfind : ms.find? (hasName n) with
  | none =>
    have hnew : findNamed (.str n) ms = .ok none := by rw [findNamed_eq_find? hobj, hfind]
    refine ⟨true, _, ms, _, ?_, upserts_append hobj hd hfind hms hfield hphase⟩
    rcases hfield with ⟨hf, rfl⟩ | hf
    · exact setMember_of_missing hf
    · exact setMember_of_arr hf hnew
  | some m =>
    have hfound : findNamed (.str n) ms = .ok (some m) := by rw [findNamed_eq_find? hobj, hfind]
    rw [setMember_of_found hms hfound]
    cases hsame : (m.getD "phase").equiv (memberPhase op operand) with
    | true => exact ⟨false, _, ms, ms, by simp, upserts_unchanged hd hms hfound hsame⟩
    | false =>
      -- a member is found, so the field held a list
      have hf : Fields.get? fs "members" = some (.arr ms) := by
        rcases hfield with ⟨-, rfl⟩ | hf
        · cases hfind
        · exact hf
      exact ⟨true, _, ms, _, by simp, upserts_replace hobj hd hf hfind hphase hsame⟩

end Upsert

section Removal

variable {ms : List Value} {n : String}

theorem mapM_field_of_objects (hobj : ∀ m ∈ ms, m.isObj = true) (k : String) :
    ms.mapM (fun m => m.field k) = .ok (ms.map (·.getD k)) := by
  induction ms with
  | nil => rfl
  | cons m ms ih =>
    rw [List.mapM_cons, Value.field_eq_of_isObj (hobj m (by simp)),
      ih (fun x hx => hobj x (by simp [hx]))]
    rfl

/-- Keeping the pairs of items and their images by a test on the image keeps the items that
pass the test. -/
theorem zip_map_filter_fst {α β : Type} (xs : List α) (f : α → β) (p : β → Bool) :
    ((xs.zip (xs.map f)).filter (fun q => p q.2)).map (·.1) = xs.filter (fun x => p (f x)) := by
  induction xs with
  | nil => rfl
  | cons x xs ih =>
    by_cases hx : p (f x) <;> simp [hx, ih]

/-- Removing a name keeps the members of other names, and changes the status only when some
member carried it. -/
theorem removeMember_removes {fs : Fields} (hms : members (.obj fs) = .ok ms)
    (hobj : ∀ m ∈ ms, m.isObj = true) :
    ∃ changed s' ms', removeMember (.obj fs) (.str n) = .ok (changed, s') ∧
      Removes n (.obj fs) ms changed s' ms' := by
  have hrem : removeMember (.obj fs) (.str n) =
      let remaining := ms.filter (fun m => !hasName n m)
      if remaining.length == ms.length then .ok (false, .obj fs)
      else .ok (true, (Value.obj fs).set "members" (.arr remaining)) := by
    simp only [removeMember, hms, mapM_field_of_objects hobj, bind, Except.bind]
    rw [zip_map_filter_fst ms (·.getD "name") (fun v => !v.equiv (.str n))]
    rfl
  have hnone : ∀ m ∈ ms.filter (fun m => !hasName n m), hasName n m = false := by
    intro m hm
    simpa using (List.mem_filter.1 hm).2
  by_cases hlen : (ms.filter (fun m => !hasName n m)).length = ms.length
  · -- nothing carried the name: the status stays as it was
    have hkept : ms.filter (fun m => !hasName n m) = ms :=
      List.filter_eq_self.2 (List.length_filter_eq_length_iff.1 hlen)
    refine ⟨false, .obj fs, ms, by simp [hrem, hlen], hms, hms, ?_, hkept.symm, by simp⟩
    rw [← hkept]
    exact hnone
  · refine ⟨true, _, _, by simp [hrem, hlen], hms, members_set_arr (.obj fs) rfl _, hnone, rfl, ?_⟩
    simp only [true_iff]
    intro heq
    have hread := members_set_arr (.obj fs) rfl (ms.filter (fun m => !hasName n m))
    rw [heq, hms] at hread
    have hsame : ms = ms.filter (fun m => !hasName n m) := Except.ok.inj hread
    exact hlen (congrArg List.length hsame).symm

end Removal

end OperandLifecycle.Status

import Mathlib.Data.List.Perm.Subperm
import OperandLifecycle.Status.Change
import OperandLifecycle.Proofs.Documents
/-!
# What the status comparison leaves out

A status is written only when it changed in something besides a transition time. The
comparison hands DeepDiff the callback `stampPath`, which leaves out every path ending in
`lastTransitionTime']`. Such a path is that of a member whose key ends in
`lastTransitionTime`, whenever the key holds no single quote (`stampPath_keyStep`), and never
that of an array item (`stampPath_indexStep`).

`structuralDiff` is the comparison the status check is written for: two values differ where
their structure does, except at the paths the callback names. Against it, the check finds no
change between two decoded objects exactly when they are structurally equal once every
member whose key ends in `lastTransitionTime` is erased at every depth (`eraseStamps`). The
proof goes by induction on the nesting of the first value, comparing arrays item by item and
objects key by key.
-/

namespace OperandLifecycle.Status

open Json

/-- Whether a member key names a transition time: it ends in `lastTransitionTime`. -/
def stampKey (k : String) : Bool := k.endsWith "lastTransitionTime"

/-- A key that a path writes in single quotes: it holds no single quote. -/
def QuotableKey (k : String) : Prop := Char.ofNat 39 ∉ k.toList

/-! ### Paths the callback leaves out -/

theorem endsWith_iff_suffix (s t : String) : s.endsWith t = true ↔ t.toList <:+ s.toList := by
  simp [← String.endsWith_toSlice]

/-- A suffix of `X ++ c :: K` that does not hold `c` is a suffix of `K`. -/
theorem suffix_of_suffix_append_cons {L X K : List Char} {c : Char} (h : L <:+ X ++ c :: K)
    (hc : c ∉ L) : L <:+ K := by
  rcases List.suffix_or_suffix_of_suffix h (List.suffix_append X (c :: K)) with h' | h'
  · rcases List.suffix_cons_iff.1 h' with rfl | h'
    · exact absurd List.mem_cons_self hc
    · exact h'
  · exact absurd (h'.mem List.mem_cons_self) hc

/-- The path of a member is left out exactly when its key names a transition time. -/
theorem stampPath_keyStep (path k : String) (hk : QuotableKey k) :
    stampPath (path ++ keyStep k) = stampKey k := by
  have hq : k.toList.contains (Char.ofNat 39) = false := by simpa [QuotableKey] using hk
  rw [stampPath, stampKey, keyStep, hq, if_neg Bool.false_ne_true, Bool.eq_iff_iff,
    endsWith_iff_suffix, endsWith_iff_suffix]
  have hsplit : "lastTransitionTime']".toList = "lastTransitionTime".toList ++ "']".toList := by
    decide
  simp only [String.toList_append, hsplit, ← List.append_assoc, List.suffix_append_self_iff]
  constructor
  · -- the quote that opens the key stands between the key and the rest of the path
    intro h
    refine suffix_of_suffix_append_cons (X := path.toList ++ ['[']) (c := Char.ofNat 39) ?_
      (by decide)
    simpa using h
  · exact List.suffix_append_of_suffix

/-- The path of an array item is never left out. -/
theorem stampPath_indexStep (path : String) (i : Nat) :
    stampPath (path ++ indexStep i) = false := by
  rw [stampPath, indexStep, Bool.eq_false_iff, ne_eq, endsWith_iff_suffix]
  have hsplit : "lastTransitionTime']".toList = "lastTransitionTime'".toList ++ "]".toList := by
    decide
  simp only [String.toList_append, hsplit, ← List.append_assoc, List.suffix_append_self_iff]
  intro h
  have hd := suffix_of_suffix_append_cons (X := path.toList) (c := '[') (by simpa using h)
    (by decide)
  -- the index is written in digits, and a digit is no quote
  have hq : Char.ofNat 39 ∈ Nat.toDigits 10 i := hd.mem (by decide)
  exact absurd (Nat.isDigit_of_mem_toDigits (by decide) (by decide) hq) (by decide)

theorem extraItems_stampPath (path : String) (i n : Nat) :
    extraItems stampPath path i n = decide (0 < n) := by
  cases n with
  | zero => rfl
  | succ n => simp [extraItems, List.range'_succ, stampPath_indexStep]

/-! ### Erasing transition times -/

mutual
/-- The value with every member whose key names a transition time removed, at every depth. -/
def eraseStamps : Value → Value
  | .arr xs => .arr (eraseStampItems xs)
  | .obj fs => .obj (eraseStampMembers fs)
  | v => v

/-- `eraseStamps` of each item. -/
def eraseStampItems : List Value → List Value
  | [] => []
  | x :: xs => eraseStamps x :: eraseStampItems xs

/-- The members whose key names no transition time, each with its value erased. -/
def eraseStampMembers : Fields → Fields
  | [] => []
  | (k, x) :: rest =>
    if stampKey k then eraseStampMembers rest else (k, eraseStamps x) :: eraseStampMembers rest
end

theorem eraseStampItems_eq_map (xs : List Value) : eraseStampItems xs = xs.map eraseStamps := by
  induction xs with
  | nil => rfl
  | cons x xs ih => rw [eraseStampItems, ih, List.map_cons]

theorem eraseStampMembers_eq (fs : Fields) :
    eraseStampMembers fs =
      (fs.filter fun p => !stampKey p.1).map fun p => (p.1, eraseStamps p.2) := by
  induction fs with
  | nil => rfl
  | cons p fs ih =>
    obtain ⟨k, x⟩ := p
    rw [eraseStampMembers, ih]
    by_cases hk : stampKey k <;> simp [hk]

theorem mem_eraseStampMembers {fs : Fields} {p : String × Value} :
    p ∈ eraseStampMembers fs ↔
      ∃ x, (p.1, x) ∈ fs ∧ stampKey p.1 = false ∧ p.2 = eraseStamps x := by
  rw [eraseStampMembers_eq]
  constructor
  · rintro hp
    obtain ⟨⟨k, x⟩, hmem, rfl⟩ := List.mem_map.1 hp
    obtain ⟨hx, hs⟩ := List.mem_filter.1 hmem
    exact ⟨x, hx, by simpa using hs, rfl⟩
  · rintro ⟨x, hx, hs, hp⟩
    exact List.mem_map.2 ⟨(p.1, x), List.mem_filter.2 ⟨hx, by simpa using hs⟩, Prod.ext rfl hp.symm⟩

theorem keys_eraseStampMembers (fs : Fields) :
    Fields.keys (eraseStampMembers fs) = (Fields.keys fs).filter fun k => !stampKey k := by
  rw [eraseStampMembers_eq, Fields.keys, Fields.keys, List.map_map, List.filter_map]
  rfl

theorem nodup_keys_eraseStampMembers {fs : Fields} (h : (Fields.keys fs).Nodup) :
    (Fields.keys (eraseStampMembers fs)).Nodup := by
  rw [keys_eraseStampMembers]
  exact h.filter _

theorem get?_eraseStampMembers (fs : Fields) (k : String) :
    Fields.get? (eraseStampMembers fs) k =
      if stampKey k then none else (Fields.get? fs k).map eraseStamps := by
  induction fs with
  | nil => split <;> rfl
  | cons p fs ih =>
    obtain ⟨k₀, x⟩ := p
    rw [eraseStampMembers, Fields.get?_cons]
    by_cases h : k₀ = k
    · subst h
      by_cases hk : stampKey k₀ <;> simp [hk, ih, Fields.get?_cons]
    · by_cases hk : stampKey k₀ <;> simp [hk, ih, Fields.get?_cons, h]

theorem sameMembers_eq_true_iff (A B : Fields) :
    Value.sameMembers A B = true ↔
      ∀ p ∈ A, ∃ b, Fields.get? B p.1 = some b ∧ Value.sameAs p.2 b = true := by
  induction A with
  | nil => simp [Value.sameMembers]
  | cons p rest ih =>
    obtain ⟨k, x⟩ := p
    rw [Value.sameMembers, Bool.and_eq_true, ih, List.forall_mem_cons]
    simp only [Fields.get?]
    cases List.find? (fun p => p.1 == k) B <;> simp

/-- Two lists without repeats, the first within the second, have one length exactly when the
second is within the first. -/
theorem length_eq_iff_subset {A B : List String} (hA : A.Nodup) (hB : B.Nodup) (hAB : A ⊆ B) :
    A.length = B.length ↔ B ⊆ A := by
  constructor
  · intro hlen
    exact ((hA.subperm hAB).perm_of_length_le (Nat.le_of_eq hlen.symm)).symm.subset
  · intro hBA
    exact Nat.le_antisymm (hA.subperm hAB).length_le (hB.subperm hBA).length_le

/-! ### The comparison the status check assumes -/

mutual
/-- DeepDiff as the status comparison assumes it: two values differ exactly where their
structure does (kinds, scalars by value, arrays item by item in order, objects member by
member), except at the places whose path `excluded` names, whether the item there was
compared, added or removed. -/
def structuralDiff (excluded : String → Bool) (path : String) : Value → Value → Bool
  | .null, .null => false
  | .bool a, .bool b => a != b
  | .int a, .int b => a != b
  | .float a, .float b => !(a == b)
  | .str a, .str b => a != b
  | .arr xs, .arr ys => structuralItemsDiff excluded path 0 xs ys
  | .obj xs, .obj ys =>
    structuralMembersDiff excluded path xs ys || addedMembers excluded path xs ys
  | _, _ => true

/-- `structuralDiff` item by item from index `i` on; the items on one side only are added or
removed. -/
def structuralItemsDiff (excluded : String → Bool) (path : String) (i : Nat) :
    List Value → List Value → Bool
  | x :: xs, y :: ys =>
    (!excluded (path ++ indexStep i) && structuralDiff excluded (path ++ indexStep i) x y) ||
      structuralItemsDiff excluded path (i + 1) xs ys
  | xs, ys => extraItems excluded path i (xs.length + ys.length)

/-- `structuralDiff` of the members of the first object against their members in `all`. -/
def structuralMembersDiff (excluded : String → Bool) (path : String) : Fields → Fields → Bool
  | [], _ => false
  | (k, x) :: rest, all =>
    (!excluded (path ++ keyStep k) &&
      match Fields.get? all k with
      | some y => structuralDiff excluded (path ++ keyStep k) x y
      | none => true) || structuralMembersDiff excluded path rest all
end

/-- What the comparison of two decoded statuses takes for granted of a value: objects have
distinct keys, and no key holds a single quote. -/
structure Comparable (v : Value) : Prop where
  wellKeyed : v.WellKeyed
  quotable : v.KeysAll QuotableKey

namespace Comparable

variable {fs : Fields} {xs : List Value}

theorem keys_quotable (h : Comparable (.obj fs)) : ∀ p ∈ fs, QuotableKey p.1 :=
  fun _ hp => (h.quotable.member hp).1

theorem member (h : Comparable (.obj fs)) {p : String × Value} (hp : p ∈ fs) : Comparable p.2 :=
  ⟨h.wellKeyed.member hp, (h.quotable.member hp).2⟩

theorem of_get? (h : Comparable (.obj fs)) {k : String} {v : Value}
    (hv : Fields.get? fs k = some v) : Comparable v :=
  h.member (Fields.mem_of_get? hv)

theorem item (h : Comparable (.arr xs)) {x : Value} (hx : x ∈ xs) : Comparable x :=
  ⟨h.wellKeyed.item hx, h.quotable.item hx⟩

theorem of_checkKeys {v : Value}
    (h : v.checkKeys (fun k => !k.toList.contains (Char.ofNat 39)) = true) : Comparable v := by
  obtain ⟨hw, hk⟩ := Value.keysAll_of_checkKeys h
  exact ⟨hw, hk.mono fun k hq => by simpa [QuotableKey] using hq⟩

end Comparable

theorem structuralMembersDiff_eq_false_iff {xs : Fields} (hk : ∀ p ∈ xs, QuotableKey p.1)
    (path : String) (all : Fields) :
    structuralMembersDiff stampPath path xs all = false ↔
      ∀ p ∈ xs, stampKey p.1 = false →
        ∃ y, Fields.get? all p.1 = some y ∧
          structuralDiff stampPath (path ++ keyStep p.1) p.2 y = false := by
  induction xs with
  | nil => simp [structuralMembersDiff]
  | cons p rest ih =>
    obtain ⟨k, x⟩ := p
    rw [structuralMembersDiff, Bool.or_eq_false_iff,
      ih fun q hq => hk q (List.mem_cons_of_mem _ hq),
      stampPath_keyStep path k (hk _ List.mem_cons_self), List.forall_mem_cons]
    cases stampKey k <;> cases Fields.get? all k <;> simp

theorem addedMembers_eq_false_iff {ys : Fields} (hk : ∀ p ∈ ys, QuotableKey p.1)
    (path : String) (xs : Fields) :
    addedMembers stampPath path xs ys = false ↔
      ∀ p ∈ ys, stampKey p.1 = false → p.1 ∈ Fields.keys xs := by
  rw [addedMembers, List.any_eq_false]
  refine forall₂_congr fun p hp => ?_
  rw [stampPath_keyStep path p.1 (hk p hp), ← Fields.contains_eq_true_iff]
  cases stampKey p.1 <;> cases Fields.contains xs p.1 <;> simp

/-- The reading of `structuralDiff` under `stampPath` at one value, against every other. -/
def ErasesTo (x : Value) : Prop :=
  ∀ path y, Comparable y →
    (structuralDiff stampPath path x y = false ↔ (eraseStamps x).sameAs (eraseStamps y) = true)

theorem structuralItemsDiff_stampPath {xs : List Value} (ih : ∀ x ∈ xs, ErasesTo x)
    (path : String) (i : Nat) {ys : List Value} (hys : ∀ y ∈ ys, Comparable y) :
    structuralItemsDiff stampPath path i xs ys = false ↔
      Value.sameItems (xs.map eraseStamps) (ys.map eraseStamps) = true := by
  induction xs generalizing ys i with
  | nil =>
    cases ys with
    | nil => simp [structuralItemsDiff, extraItems_stampPath, Value.sameItems]
    | cons y ys => simp [structuralItemsDiff, extraItems_stampPath, Value.sameItems]
  | cons x xs ihxs =>
    cases ys with
    | nil => simp [structuralItemsDiff, extraItems_stampPath, Value.sameItems]
    | cons y ys =>
      have hx := ih x List.mem_cons_self (path ++ indexStep i) y (hys y List.mem_cons_self)
      have hrest := ihxs (fun x hx => ih x (List.mem_cons_of_mem _ hx)) (i + 1)
        (fun y hy => hys y (List.mem_cons_of_mem _ hy))
      rw [structuralItemsDiff, stampPath_indexStep, List.map_cons, List.map_cons,
        Value.sameItems, Bool.or_eq_false_iff, Bool.and_eq_true, hrest, Bool.not_false,
        Bool.true_and, hx]

/-- Every member of the erased first object is in the erased second one with the same value
exactly when every counted member of the first is in the second with no difference. -/
theorem sameMembers_erase_iff {xs ys : Fields} (ih : ∀ p ∈ xs, ErasesTo p.2)
    (hy : Comparable (.obj ys)) (path : String) :
    (∀ p ∈ xs, stampKey p.1 = false →
        ∃ y, Fields.get? ys p.1 = some y ∧
          structuralDiff stampPath (path ++ keyStep p.1) p.2 y = false) ↔
      Value.sameMembers (eraseStampMembers xs) (eraseStampMembers ys) = true := by
  rw [sameMembers_eq_true_iff]
  constructor
  · intro hmem p hp
    obtain ⟨x, hx, hs, hpx⟩ := mem_eraseStampMembers.1 hp
    obtain ⟨y, hget, hd⟩ := hmem _ hx hs
    refine ⟨eraseStamps y, by rw [get?_eraseStampMembers, hs, hget]; rfl, ?_⟩
    rw [hpx]
    exact (ih _ hx _ y (hy.of_get? hget)).1 hd
  · intro hsame p hp hs
    obtain ⟨b, hb, hsb⟩ :=
      hsame (p.1, eraseStamps p.2) (mem_eraseStampMembers.2 ⟨p.2, hp, hs, rfl⟩)
    rw [get?_eraseStampMembers, hs, if_neg Bool.false_ne_true] at hb
    obtain ⟨y, hget, rfl⟩ := Option.map_eq_some_iff.1 hb
    exact ⟨y, hget, (ih p hp _ y (hy.of_get? hget)).2 hsb⟩

theorem structuralObjDiff_stampPath {xs ys : Fields} (hx : Comparable (.obj xs))
    (ih : ∀ p ∈ xs, ErasesTo p.2) (path : String) (hy : Comparable (.obj ys)) :
    (structuralMembersDiff stampPath path xs ys || addedMembers stampPath path xs ys) = false ↔
      Value.sameAs (.obj (eraseStampMembers xs)) (.obj (eraseStampMembers ys)) = true := by
  rw [Bool.or_eq_false_iff, structuralMembersDiff_eq_false_iff hx.keys_quotable,
    addedMembers_eq_false_iff hy.keys_quotable, sameMembers_erase_iff ih hy, Value.sameAs,
    Bool.and_eq_true, beq_iff_eq]
  have hnx := nodup_keys_eraseStampMembers hx.wellKeyed.keys_nodup
  have hny := nodup_keys_eraseStampMembers hy.wellKeyed.keys_nodup
  have hlen : ∀ fs : Fields, (Fields.keys fs).length = fs.length := fun _ => List.length_map _
  -- a member found in the second object puts its key among the second object's keys
  have hsub : Value.sameMembers (eraseStampMembers xs) (eraseStampMembers ys) = true →
      Fields.keys (eraseStampMembers xs) ⊆ Fields.keys (eraseStampMembers ys) := by
    intro hsame k hk
    obtain ⟨⟨k', v⟩, hp, rfl⟩ := List.mem_map.1 hk
    obtain ⟨b, hb, -⟩ := (sameMembers_eq_true_iff _ _).1 hsame _ hp
    exact (Fields.mem_keys_iff_get?_isSome _ _).2 (by simp [hb])
  -- the keys of the erased second object are its keys that name no transition time
  have hkeys : ∀ k, k ∈ Fields.keys (eraseStampMembers ys) ↔
      ∃ p ∈ ys, p.1 = k ∧ stampKey p.1 = false := by
    intro k
    rw [keys_eraseStampMembers, List.mem_filter, Fields.keys, List.mem_map]
    constructor
    · rintro ⟨⟨p, hp, rfl⟩, hs⟩
      exact ⟨p, hp, rfl, by simpa using hs⟩
    · rintro ⟨p, hp, rfl, hs⟩
      exact ⟨⟨p, hp, rfl⟩, by simp [hs]⟩
  constructor
  · rintro ⟨hsame, hadded⟩
    refine ⟨?_, hsame⟩
    rw [← hlen, ← hlen, length_eq_iff_subset hnx hny (hsub hsame)]
    intro k hk
    obtain ⟨p, hp, rfl, hs⟩ := (hkeys k).1 hk
    rw [keys_eraseStampMembers]
    exact List.mem_filter.2 ⟨hadded p hp hs, by simp [hs]⟩
  · rintro ⟨hlength, hsame⟩
    refine ⟨hsame, fun p hp hs => ?_⟩
    have hback := (length_eq_iff_subset hnx hny (hsub hsame)).1 (by rw [hlen, hlen, hlength])
    have hk := hback ((hkeys p.1).2 ⟨p, hp, rfl, hs⟩)
    rw [keys_eraseStampMembers] at hk
    exact (List.mem_filter.1 hk).1

/-- Under `stampPath`, the assumed comparison finds no difference exactly when the two values
are structurally equal once their transition times are erased. -/
theorem erasesTo_of_comparable {x : Value} (hx : Comparable x) : ErasesTo x := by
  obtain ⟨hw, hq⟩ := hx
  -- induction on the nesting of `x`; each container hands its members' readings up
  induction hw with
  | @arr xs hxs ih =>
    intro path y hy
    cases y with
    | arr ys =>
      rw [structuralDiff, eraseStamps, eraseStamps, Value.sameAs, eraseStampItems_eq_map,
        eraseStampItems_eq_map]
      exact structuralItemsDiff_stampPath (fun x hx => ih x hx (hq.item hx)) path 0
        fun y h => hy.item h
    | _ => simp [structuralDiff, eraseStamps, Value.sameAs]
  | @obj fs hnd hmem ih =>
    intro path y hy
    cases y with
    | obj ys =>
      rw [structuralDiff, eraseStamps, eraseStamps]
      exact structuralObjDiff_stampPath ⟨.obj hnd hmem, hq⟩
        (fun p hp => ih p hp (hq.member hp).2) path hy
    | _ => simp [structuralDiff, eraseStamps, Value.sameAs]
  | @scalar v harr hobj =>
    intro path y hy
    cases v <;> cases y <;>
      simp_all [structuralDiff, eraseStamps, Value.sameAs, Value.floatEq, Value.isArr, Value.isObj]

/-- The status comparison, run with a DeepDiff that reports exactly the structural differences
outside the paths it is told to leave out, counts anything that is not an object as a change,
and finds two decoded objects unchanged exactly when they are structurally equal once every
member whose key ends in `lastTransitionTime` is erased at every depth. -/
theorem statusChanged_ignores_exactly_stamps (diff : Value → Value → (String → Bool) → Bool)
    (hdiff : ∀ x y excluded, diff x y excluded = structuralDiff excluded "root" x y) :
    (∀ a b : Value, a.isObj = false ∨ b.isObj = false → statusChangedWith diff a b = true) ∧
    ∀ xs ys : Fields, Comparable (.obj xs) → Comparable (.obj ys) →
      (statusChangedWith diff (.obj xs) (.obj ys) = false ↔
        (eraseStamps (.obj xs)).sameAs (eraseStamps (.obj ys)) = true) := by
  refine ⟨fun a b hab => ?_, fun xs ys hxs hys => ?_⟩
  · -- the comparison runs only on two objects
    cases a <;> cases b <;> simp_all [statusChangedWith, Value.isObj]
  · rw [statusChangedWith, hdiff]
    exact erasesTo_of_comparable hxs "root" (.obj ys) hys

/-- A condition restamped with a new transition time is no change. -/
theorem restamped_condition_unchanged :
    Comparable (.obj [("conditions", .arr [.obj [("type", .str "Ready"),
      ("lastTransitionTime", .str "t1")]])]) ∧
    Comparable (.obj [("conditions", .arr [.obj [("type", .str "Ready"),
      ("lastTransitionTime", .str "t2")]])]) ∧
    statusChangedWith (fun x y excluded => structuralDiff excluded "root" x y)
      (.obj [("conditions", .arr [.obj [("type", .str "Ready"),
        ("lastTransitionTime", .str "t1")]])])
      (.obj [("conditions", .arr [.obj [("type", .str "Ready"),
        ("lastTransitionTime", .str "t2")]])]) = false := by
  have h₁ := Comparable.of_checkKeys (v := .obj [("conditions", .arr [.obj [("type", .str "Ready"),
    ("lastTransitionTime", .str "t1")]])]) (by decide)
  have h₂ := Comparable.of_checkKeys (v := .obj [("conditions", .arr [.obj [("type", .str "Ready"),
    ("lastTransitionTime", .str "t2")]])]) (by decide)
  exact ⟨h₁, h₂, ((statusChanged_ignores_exactly_stamps _ (fun _ _ _ => rfl)).2 _ _ h₁ h₂).2
    (by decide +kernel)⟩

end OperandLifecycle.Status

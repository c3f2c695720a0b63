import OperandLifecycle.Proofs.SelectorGrammar
import OperandLifecycle.Proofs.Members
/-!
# What a well-formed selector matches

Selectors are matched against flat maps of texts, such as the labels of an object. Over such a
map (`TextMap`, each key holding a text of value characters), each written requirement asks what
its form says (`Written.holds`): `=` and `==` that the key hold the value, `!=` that it be missing
or hold another value, `in` that it hold one of the options, `notin` that it be missing or hold
none of them, a bare key that it be there and `!key` that it be missing.

`selectorHolds_selectorOf` is the agreement of the matcher with that reading: a selector written
from requirements holds of a map exactly when every requirement does, and the empty selector
holds of anything. It is assembled from how the selector is read (`splitRequirements_selectorOf`,
`parse_render`) and what each requirement it is read as asks of the map
(`holds_toRequirement`).
-/

namespace OperandLifecycle.Cluster

open Json

/-- A flat map of texts, as selectors are matched against: each key holds a text of value
characters. -/
abbrev TextMap := List (String × SelectorValue)

/-- The map as the members of an object. -/
def TextMap.toFields (L : TextMap) : Fields := L.map fun p => (p.1, .str p.2.text)

/-- The text under a key; the first one when the key repeats. -/
def TextMap.text? (L : TextMap) (k : String) : Option String := (L.lookup k).map SelectorValue.text

/-- What a requirement, as written, asks of a map of texts. -/
def Written.holds (L : TextMap) : Written → Bool
  | .compare k .ne v _ _ => L.text? k.text != some v.text
  | .compare k _ v _ _ => L.text? k.text == some v.text
  | .set k isIn _ _ o os =>
    if isIn then (L.text? k.text).any fun t => (o :: os).any fun w => t == w.value.text
    else (L.text? k.text).all fun t => !(o :: os).any fun w => t == w.value.text
  | .present k => (L.text? k.text).isSome
  | .absent k _ => (L.text? k.text).isNone

theorem get?_toFields (L : TextMap) (k : String) :
    Fields.get? L.toFields k = (L.lookup k).map fun v => .str v.text := by
  induction L with
  | nil => rfl
  | cons p L ih =>
    obtain ⟨k₀, v⟩ := p
    rw [TextMap.toFields, List.map_cons, Fields.get?_cons, ← TextMap.toFields, ih, List.lookup_cons]
    by_cases h : k₀ = k
    · simp [h]
    · rw [beq_false_of_ne (Ne.symm h)]
      simp [h]

/-- The text a requirement compares is the text the map holds: a value has no blanks to trim. -/
theorem valueText_toFields (L : TextMap) (k : String) : valueText L.toFields k = L.text? k := by
  rw [valueText, get?_toFields, TextMap.text?]
  cases L.lookup k with
  | none => rfl
  | some v =>
    have htrim := trim_value_blanks 0 0 v
    simp only [blanks, List.replicate_zero, List.nil_append, List.append_nil] at htrim
    simp [Value.display, htrim]

theorem contains_toFields (L : TextMap) (k : String) :
    Fields.contains L.toFields k = (L.text? k).isSome := by
  rw [Fields.contains_iff, get?_toFields, TextMap.text?]
  cases L.lookup k <;> rfl

/-- The requirement a written one stands for asks of the object of a map of texts what the
written one asks of the map. -/
theorem holds_toRequirement (L : TextMap) (r : Written) :
    r.toRequirement.holds L.toFields = r.holds L := by
  cases r with
  | compare k op v b a =>
    cases op <;> simp [Written.toRequirement, Written.holds, Requirement.holds, valueText_toFields]
  | set k isIn g₁ g₂ o os =>
    cases isIn <;> cases h : L.text? k.text <;>
      simp only [Written.toRequirement, Written.holds, Bool.false_eq_true, if_true, if_false,
        Requirement.holds, valueText_toFields, h, List.contains_map] <;> rfl
  | present k => simp [Written.toRequirement, Written.holds, Requirement.holds, contains_toFields]
  | absent k g => simp [Written.toRequirement, Written.holds, Requirement.holds, contains_toFields]

/-- Over an object, a textual selector holds exactly when each requirement it is split into
does: reading an object never fails, so no requirement stops the check early with an error. -/
theorem selectorHolds_obj_str (fs : Fields) (s : String) :
    selectorHolds (.obj fs) (.str s) =
      .ok ((splitRequirements s).all fun r => (Requirement.parse r).holds fs) := by
  have hreq : ∀ r, (Requirement.parse r).holdsOn (.obj fs) = pure ((Requirement.parse r).holds fs) :=
    fun _ => rfl
  rw [selectorHolds, selectorRequirements]
  simp only [hreq, List.allM_pure]
  rfl

/-- The empty selector holds of any values, and a selector written from requirements holds of
a map of texts exactly when every requirement does, as its form says. -/
theorem selectorHolds_selectorOf :
    (∀ values : Value, selectorHolds values (.str "") = .ok true) ∧
    ∀ (L : TextMap) (rs : List PaddedRequirement),
      selectorHolds (.obj L.toFields) (.str (selectorOf rs)) =
        .ok (rs.all fun p => p.req.holds L) := by
  refine ⟨fun values => rfl, fun L rs => ?_⟩
  rw [selectorHolds_obj_str, splitRequirements_selectorOf, List.all_map]
  congr 1
  refine List.all_congr rfl fun p => ?_
  rw [Function.comp, parse_render, holds_toRequirement]

example : selectorHolds (.obj [("app", .str "web"), ("tier", .str "db")])
    (.str "app = web, tier in (db, cache), !debug") = .ok true := by rfl

example : selectorHolds (.obj [("app", .str "web"), ("tier", .str "db")])
    (.str " app=web ,tier notin ( db )") = .ok false := by rfl

end OperandLifecycle.Cluster

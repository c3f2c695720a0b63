import OperandLifecycle.Json.Path
import OperandLifecycle.Json.Display
/-!
# Validating settings

A validation tree parallels the settings: nested objects whose leaves are rules, a rule being
an object with a `type` key (`flattenRules` collects them by dotted path). A value passes a
rule when it is `null` and the rule is optional, or when it has the rule's type and lies in
its bounds:

* `number`: an integer or float (not a boolean) within `min` and `max`;
* `int` and `float`: a value of that type (an integer, not a boolean) within `min` and `max`;
* `str`: a text whose length lies within `min_len` and `max_len`;
* `bool`: a boolean;
* `enum`: a text, integer, boolean or `null` among `values`.

`invalidParams` lists the dotted paths of the rules that the settings fail, in the tree's
order.
-/
namespace OperandLifecycle.Config

open Json

/-- The types a rule can demand. -/
inductive RuleType where
  | number | int | float | str | bool | enum
  deriving DecidableEq, Repr

/-- The rule type a word names. -/
def RuleType.ofWord? : String → Option RuleType
  | "number" => some .number
  | "int" => some .int
  | "float" => some .float
  | "str" => some .str
  | "bool" => some .bool
  | "enum" => some .enum
  | _ => none

/-- Whether a value has a rule type. A boolean counts as an integer only for `enum`. -/
def RuleType.admits : RuleType → Value → Bool
  | .number, .int _ | .number, .float _ => true
  | .int, .int _ => true
  | .float, .float _ => true
  | .str, .str _ => true
  | .bool, .bool _ => true
  | .enum, .str _ | .enum, .int _ | .enum, .bool _ | .enum, .null => true
  | _, _ => false

/-- Whether a number compares to a bound as `want` says; a bound that is no number cannot be
compared. -/
def compareBound (v bound : Value) (symbol : String) (want : Ordering → Bool) :
    Except Failure Bool :=
  match v.num?, bound.num? with
  | some x, some y => .ok ((x.compare? y).map want |>.getD false)
  | _, _ => .error (.raised .typeError ("'" ++ symbol ++ "' not supported between instances of '" ++
      v.typeName ++ "' and '" ++ bound.typeName ++ "'"))

/-- Whether a number lies within optional bounds (`null` is no bound). -/
def inRange (v low high : Value) : Except Failure Bool := do
  if !low.isNull then
    if !(← compareBound v low ">=" (· != .lt)) then return false
  if high.isNull then return true
  compareBound v high "<=" (· != .gt)

/-- Whether a value passes a rule. -/
def checkRule (rule value : Value) : Except Failure Bool := do
  if (← rule.field "optional").truthy && value.isNull then return true
  let word ← rule.index "type"
  if !word.hashable then throw (unhashable word)
  let type ← match word with
    | .str w => match RuleType.ofWord? w with
      | some t => pure t
      | none => throw (Failure.assertion ("Unknown validation type: " ++ word.display))
    | other => throw (Failure.assertion ("Unknown validation type: " ++ other.display))
  if !type.admits value then return false
  match type with
  | .number | .int | .float => inRange value (← rule.field "min") (← rule.field "max")
  | .str =>
    let n : Value := .int (match value with | .str s => s.length | _ => 0)
    inRange n (← rule.field "min_len") (← rule.field "max_len")
  | .bool => pure true
  | .enum => Value.memberOf value (← rule.fieldOr "values" (.arr []))

/-- Adds the rules of a validation tree under a prefix: every object holding a `type` key, by
its dotted path; other objects are walked, other values skipped. -/
def flattenRulesInto (acc : Fields) (pfx : String) (fs : Fields) : Fields :=
  match fs with
  | [] => acc
  | (k, v) :: rest =>
    let key := if pfx.isEmpty then k else pfx ++ "." ++ k
    let acc' := match v with
      | .obj inner =>
        if Fields.contains inner "type" then Fields.insert acc key v
        else flattenRulesInto acc key inner
      | _ => acc
    flattenRulesInto acc' pfx rest
termination_by sizeOf fs

/-- The rules of a validation tree by dotted path. -/
def flattenRules (fs : Fields) : Fields := flattenRulesInto [] "" fs

/-- The dotted paths of the rules that the settings fail, in the tree's order. -/
def invalidParams (settings : Value) (rules : Fields) : Except Failure (List String) := do
  let failed ← (flattenRules rules).filterM (fun p => do
    let value ← settings.getPath p.1 .null
    pure !(← checkRule p.2 value))
  pure (failed.map (·.1))

end OperandLifecycle.Config

import OperandLifecycle.Json.Value
import OperandLifecycle.Number.Shortest
import OperandLifecycle.Text.Literal
/-!
# The text forms of values

Messages, selectors and digests show values in two forms. `Value.literal` writes a value so
that its kind shows: text quoted, `None`, `True` and `False` for null and the booleans,
arrays in brackets and objects in braces with `key: value` pairs, items separated by ", ".
`Value.display` is the same except that a text stands for itself.

Floats are written with the fewest digits that read back, as `inf`, `-inf` and `nan` when
they are not finite.
-/
namespace OperandLifecycle.Json

/-- The text form of a float. -/
def floatDisplay (x : Float) : String :=
  Number.Shortest.render Number.Shortest.Style.standard x

mutual
/-- A value written so that its kind shows. -/
def Value.literal : Value → String
  | .null => "None"
  | .bool true => "True"
  | .bool false => "False"
  | .int n => toString n
  | .float x => floatDisplay x
  | .str s => Text.quoteLiteral s
  | .arr xs => "[" ++ ", ".intercalate (literalItems xs) ++ "]"
  | .obj fs => "\x7b" ++ ", ".intercalate (literalMembers fs) ++ "\x7d"

/-- Each item written as a literal. -/
def literalItems : List Value → List String
  | [] => []
  | x :: xs => x.literal :: literalItems xs

/-- Each member written as `key: value`. -/
def literalMembers : List (String × Value) → List String
  | [] => []
  | (k, v) :: rest => (Text.quoteLiteral k ++ ": " ++ v.literal) :: literalMembers rest
end

/-- The text of a value used as an object key when written as JSON: a text is itself, `null`
and the booleans are their JSON words, numbers their written form. -/
def Value.keyText : Value → String
  | .str s => s
  | .null => "null"
  | .bool true => "true"
  | .bool false => "false"
  | .int n => toString n
  | .float x =>
    Number.Shortest.render ⟨-3, 16, 2, "Infinity", "NaN"⟩ x
  | v => v.literal

/-- A value as text: a text is itself, any other value its literal. -/
def Value.display : Value → String
  | .str s => s
  | v => v.literal

end OperandLifecycle.Json

import OperandLifecycle.Json.Value
import OperandLifecycle.Number.Shortest
/-!
# Writing JSON text

`Value.write` writes a value as JSON text in a `Layout`: the separators between items and
between a key and its value, and whether object members are written in key order. Text is
written in ASCII: a character outside printable ASCII becomes a `\u` escape of four
lower-case hex digits (two, a surrogate pair, above the first plane). Floats are written with
the fewest digits that read back (`Number.Shortest`), the non-finite ones as the words `NaN`,
`Infinity` and `-Infinity`.

`Layout.compact` (no blanks, keys in order) gives each value one text; the manager orders
sets of values by it.
-/
namespace OperandLifecycle.Json

/-- Separators and member order of written JSON. -/
structure Layout where
  itemSep : String
  keySep : String
  sortKeys : Bool

/-- No blanks between tokens, members in key order. -/
def Layout.compact : Layout := ⟨",", ":", true⟩

/-- A blank after each separator, members in key order. -/
def Layout.spaced : Layout := ⟨", ", ": ", true⟩

/-- A blank after each separator, members in the order they were given. -/
def Layout.plain : Layout := ⟨", ", ": ", false⟩

/-- Four lower-case hexadecimal digits. -/
def hex4Text (n : Nat) : String :=
  let d (i : Nat) : Char := (Nat.toDigits 16 ((n / Nat.pow 16 i) % 16)).headD '0'
  String.ofList [d 3, d 2, d 1, d 0]

/-- The escape of one character in ASCII JSON text. -/
def escapeChar (c : Char) : String :=
  match c with
  | '"' => "\\\""
  | '\\' => "\\\\"
  | '\n' => "\\n"
  | '\r' => "\\r"
  | '\t' => "\\t"
  | '\x08' => "\\b"
  | '\x0c' => "\\f"
  | c =>
    let n := c.toNat
    if 0x20 ≤ n ∧ n < 0x7f then String.singleton c
    else if n < 0x10000 then "\\u" ++ hex4Text n
    else
      let m := n - 0x10000
      "\\u" ++ hex4Text (0xD800 + m / 0x400) ++ "\\u" ++ hex4Text (0xDC00 + m % 0x400)

/-- A string as a quoted ASCII JSON text. -/
def quote (s : String) : String :=
  "\"" ++ String.join (s.toList.map escapeChar) ++ "\""

/-- The JSON text of a float. -/
def floatText (x : Float) : String :=
  if Number.Binary64.isNaN x then "NaN"
  else if !Number.Binary64.isFinite x then
    (if Number.Binary64.signBit x then "-Infinity" else "Infinity")
  else Number.Shortest.render Number.Shortest.Style.standard x

/-- Written members in the order a layout puts them. -/
def orderMembers (lay : Layout) (fs : List (String × String)) : List (String × String) :=
  if lay.sortKeys then fs.mergeSort (fun a b => decide (a.1 ≤ b.1)) else fs

/-- Written members as object text. -/
def joinMembers (lay : Layout) (fs : List (String × String)) : String :=
  lay.itemSep.intercalate ((orderMembers lay fs).map (fun p => quote p.1 ++ lay.keySep ++ p.2))

mutual
/-- The JSON text of a value in a layout. -/
def Value.write (lay : Layout) : Value → String
  | .null => "null"
  | .bool true => "true"
  | .bool false => "false"
  | .int n => toString n
  | .float x => floatText x
  | .str s => quote s
  | .arr xs => "[" ++ lay.itemSep.intercalate (writeItems lay xs) ++ "]"
  | .obj fs => "\x7b" ++ joinMembers lay (writeMembers lay fs) ++ "\x7d"

/-- Each item written. -/
def writeItems (lay : Layout) : List Value → List String
  | [] => []
  | x :: xs => x.write lay :: writeItems lay xs

/-- Each member's key with its value written. -/
def writeMembers (lay : Layout) : List (String × Value) → List (String × String)
  | [] => []
  | (k, v) :: rest => (k, v.write lay) :: writeMembers lay rest
end

/-- The compact text of a value, keys in order. -/
def Value.compact (v : Value) : String := v.write Layout.compact

end OperandLifecycle.Json

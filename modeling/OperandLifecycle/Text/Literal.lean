import OperandLifecycle.Text.Printable
/-!
# Text literals

`quoteLiteral` writes a text as a quoted literal, the way values are shown in messages and
in the text form of containers. The quote is a single quote unless the text holds a single
quote and no double quote. Inside, the backslash and the chosen quote are escaped, tab, line
feed and carriage return get their letter escapes, and every other character that is not
printable gets a hexadecimal escape (`\xNN`, `\uNNNN` or `\UNNNNNNNN` by size).

Which characters are printable is decided by the Unicode database (`isPrintable`).
-/
namespace OperandLifecycle.Text

/-- `n` in lower-case hexadecimal, padded with zeros to `width` digits. -/
def hexPadded (width n : Nat) : String :=
  let ds := Nat.toDigits 16 n
  String.ofList (List.replicate (width - ds.length) '0' ++ ds)

/-- The escape of one character inside a literal quoted with `q`. -/
def literalChar (q : Char) (c : Char) : String :=
  if c == q then "\\" ++ String.singleton c
  else if c == '\\' then "\\\\"
  else if c == '\t' then "\\t"
  else if c == '\n' then "\\n"
  else if c == '\r' then "\\r"
  else if isPrintable c then String.singleton c
  else
    let n := c.toNat
    if n ≤ 0xFF then "\\x" ++ hexPadded 2 n
    else if n ≤ 0xFFFF then "\\u" ++ hexPadded 4 n
    else "\\U" ++ hexPadded 8 n

/-- The single quote character. -/
def singleQuote : Char := Char.ofNat 39

/-- A text as a quoted literal. -/
def quoteLiteral (s : String) : String :=
  let cs := s.toList
  let q := if cs.contains singleQuote && !cs.contains '"' then '"' else singleQuote
  String.singleton q ++ String.join (cs.map (literalChar q)) ++ String.singleton q

end OperandLifecycle.Text

/-!
# Blank characters

Two notions of blank text. `isSpace` is the Unicode one: the characters whose bidirectional
class is a separator or whitespace, or whose general category is a space separator. `isAsciiSpace`
is the byte one: space, tab, line feed, vertical tab, form feed and carriage return.

A text is blank when stripping these from both ends leaves nothing, that is when every
character is one of them (`isBlankText`).
-/
namespace OperandLifecycle.Text

/-- The Unicode white space characters. -/
def isSpace (c : Char) : Bool :=
  let n := c.toNat
  (0x09 ≤ n ∧ n ≤ 0x0D) || (0x1C ≤ n ∧ n ≤ 0x20) || n == 0x85 || n == 0xA0 || n == 0x1680 ||
    (0x2000 ≤ n ∧ n ≤ 0x200A) || n == 0x2028 || n == 0x2029 || n == 0x202F || n == 0x205F ||
    n == 0x3000

/-- The white space bytes. -/
def isAsciiSpace (b : UInt8) : Bool :=
  b == 0x20 || b == 0x09 || b == 0x0A || b == 0x0B || b == 0x0C || b == 0x0D

/-- Whether a text is empty once Unicode white space is stripped from its ends. -/
def isBlankText (s : String) : Bool := s.toList.all isSpace

/-- Whether bytes are empty once white space bytes are stripped from their ends. -/
def isBlankBytes (bs : List UInt8) : Bool := bs.all isAsciiSpace

/-- Removes Unicode white space from both ends. -/
def strip (s : String) : String :=
  String.ofList ((s.toList.dropWhile isSpace).reverse.dropWhile isSpace).reverse

theorem isBlankText_iff (s : String) : isBlankText s = true ↔ ∀ c ∈ s.toList, isSpace c = true := by
  simp [isBlankText]

end OperandLifecycle.Text

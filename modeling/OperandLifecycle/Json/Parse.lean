import OperandLifecycle.Json.Value
/-!
# Reading JSON text

`Value.parse` reads one JSON document, with the leniencies and the error reports of a
common strict reader:

* the words `NaN`, `Infinity` and `-Infinity` stand for the non-finite floats;
* a number with a fraction or an exponent is a float, any other an integer; an integer of
  more than 4300 digits is refused;
* of two members with one key the later value wins, at the place of the first;
* blanks are space, tab, line feed and carriage return only, and a text that starts with a
  byte order mark is refused.

Each refusal names a fault and the character where it was found (`DecodeError`); its
message gives that place as line, column and character offset. The reader works on the
list of characters; a fault records how many characters were left from its place, so the
offset is the document's length less that count.
-/
namespace OperandLifecycle.Json

/-- Why a text is not a JSON document. -/
inductive DecodeFault where
  | expectingValue
  | expectingPropertyName
  | expectingColon
  | expectingComma
  | invalidEscape
  | invalidUnicodeEscape
  | unterminatedString
  | invalidControl
  | extraData
  | byteOrderMark
  deriving DecidableEq, Repr

/-- A refusal: a positioned fault, or an integer with too many digits. -/
inductive DecodeError where
  | at (fault : DecodeFault) (left : Nat)
  | integerTooLong (digits : Nat)
  deriving DecidableEq, Repr

/-- The words of each fault. -/
def DecodeFault.text : DecodeFault → String
  | .expectingValue => "Expecting value"
  | .expectingPropertyName => "Expecting property name enclosed in double quotes"
  | .expectingColon => "Expecting ':' delimiter"
  | .expectingComma => "Expecting ',' delimiter"
  | .invalidEscape => "Invalid \\escape"
  | .invalidUnicodeEscape => "Invalid \\uXXXX escape"
  | .unterminatedString => "Unterminated string starting at"
  | .invalidControl => "Invalid control character at"
  | .extraData => "Extra data"
  | .byteOrderMark => "Unexpected UTF-8 BOM (decode using utf-8-sig)"

/-- The most digits an integer may have. -/
def maxIntegerDigits : Nat := 4300

/-- The message of a refusal of the document `doc`: the fault, then its line, its column and
its character offset, each counted from one except the offset. -/
def DecodeError.message (doc : String) : DecodeError → String
  | .integerTooLong n =>
    "Exceeds the limit (" ++ toString maxIntegerDigits ++
      " digits) for integer string conversion: value has " ++ toString n ++
      " digits; use sys.set_int_max_str_digits() to increase the limit"
  | .at fault left =>
    let cs := doc.toList
    let pos := cs.length - left
    let before := cs.take pos
    let line := before.count '\n' + 1
    -- the column counts from the last line feed before the fault
    let col := match before.reverse.findIdx? (· == '\n') with
      | some i => i + 1
      | none => pos + 1
    fault.text ++ ": line " ++ toString line ++ " column " ++ toString col ++
      " (char " ++ toString pos ++ ")"

namespace Parse

/-- The blanks between tokens. -/
def isBlank (c : Char) : Bool := c == ' ' || c == '\t' || c == '\n' || c == '\r'

/-- Drops leading blanks. -/
def skipBlank : List Char → List Char
  | [] => []
  | c :: cs => if isBlank c then skipBlank cs else c :: cs

theorem length_skipBlank_le (cs : List Char) : (skipBlank cs).length ≤ cs.length := by
  induction cs with
  | nil => simp [skipBlank]
  | cons c cs ih =>
    simp only [skipBlank]
    split
    · exact Nat.le_succ_of_le ih
    · exact Nat.le_refl _

/-- The value of a hexadecimal digit. -/
def hexValue (c : Char) : Option Nat :=
  if '0' ≤ c ∧ c ≤ '9' then some (c.toNat - '0'.toNat)
  else if 'a' ≤ c ∧ c ≤ 'f' then some (c.toNat - 'a'.toNat + 10)
  else if 'A' ≤ c ∧ c ≤ 'F' then some (c.toNat - 'A'.toNat + 10)
  else none

/-- The number written by four hexadecimal digits. -/
def hex4 : List Char → Option Nat
  | [a, b, c, d] => do
    let a ← hexValue a; let b ← hexValue b; let c ← hexValue c; let d ← hexValue d
    pure (((a * 16 + b) * 16 + c) * 16 + d)
  | _ => none

/-- The character of a one-letter escape. -/
def simpleEscape : Char → Option Char
  | '"' => some '"'
  | '\\' => some '\\'
  | '/' => some '/'
  | 'b' => some '\x08'
  | 'f' => some '\x0c'
  | 'n' => some '\n'
  | 'r' => some '\r'
  | 't' => some '\t'
  | _ => none

/-- A code point as a character; a lone surrogate, which no character can hold, becomes the
replacement character. -/
def codeChar (n : Nat) : Char :=
  if n.isValidChar then Char.ofNat n else '�'

/-- Reads the rest of a string after its opening quote. `begin` is the count of characters
left at the quote, where an unterminated string is reported. -/
def scanString (begin : Nat) (acc : List Char) : List Char → Except DecodeError (String × List Char)
  | [] => .error (.at .unterminatedString begin)
  | '"' :: rest => .ok (String.ofList acc.reverse, rest)
  | '\\' :: rest =>
    match rest with
    | [] => .error (.at .unterminatedString begin)
    | 'u' :: hex =>
      -- four digits and at least one character after them
      if hex.length < 5 then .error (.at .invalidUnicodeEscape (hex.length + 1))
      else match hex4 (hex.take 4) with
        | none => .error (.at .invalidUnicodeEscape (hex.length + 1))
        | some c =>
          let after := hex.drop 4
          if 0xD800 ≤ c ∧ c ≤ 0xDBFF ∧ after.length > 6 ∧ after.take 2 = ['\\', 'u'] then
            -- a high surrogate followed by a second escape: join them when it is a low one
            let hex2 := after.drop 2
            match hex4 (hex2.take 4) with
            | none => .error (.at .invalidUnicodeEscape (hex2.length + 1))
            | some c2 =>
              if 0xDC00 ≤ c2 ∧ c2 ≤ 0xDFFF then
                let joined := 0x10000 + (c - 0xD800) * 0x400 + (c2 - 0xDC00)
                scanString begin (codeChar joined :: acc) (hex2.drop 4)
              else scanString begin (codeChar c :: acc) after
          else scanString begin (codeChar c :: acc) after
    | e :: rest' =>
      match simpleEscape e with
      | some c => scanString begin (c :: acc) rest'
      | none => .error (.at .invalidEscape (rest.length + 1))
  | c :: rest =>
    if c.toNat ≤ 0x1f then .error (.at .invalidControl (rest.length + 1))
    else scanString begin (c :: acc) rest
termination_by cs => cs.length
decreasing_by all_goals simp only [List.length_drop, List.length_cons]; omega

/-- A number as written: its sign, whole digits, fraction digits and exponent. -/
structure NumberToken where
  negative : Bool
  whole : List Char
  fraction : List Char
  exponentNegative : Bool
  exponent : List Char
  /-- Whether a fraction or an exponent was written, which makes the number a float. -/
  isFloat : Bool

/-- Splits off the leading decimal digits. -/
def spanDigits (cs : List Char) : List Char × List Char :=
  (cs.takeWhile Char.isDigit, cs.dropWhile Char.isDigit)

/-- The optional exponent of a number: a mark, an optional sign and at least one digit; without
a digit nothing is taken. -/
def scanExponent (cs : List Char) : Option (Bool × List Char × List Char) :=
  match cs with
  | e :: r =>
    if e == 'e' || e == 'E' then
      let (neg, r') := match r with
        | '+' :: q => (false, q)
        | '-' :: q => (true, q)
        | q => (false, q)
      match r' with
      | d :: q => if d.isDigit then some (neg, d :: (spanDigits q).1, (spanDigits q).2) else none
      | [] => none
    else none
  | [] => none

/-- The optional minus of a number. -/
def scanSign : List Char → Bool × List Char
  | '-' :: r => (true, r)
  | r => (false, r)

/-- The whole part of a number: `0`, or a digit run not starting with `0`. -/
def scanWhole : List Char → Option (List Char × List Char)
  | '0' :: r => some (['0'], r)
  | c :: r => if '1' ≤ c ∧ c ≤ '9' then some (c :: (spanDigits r).1, (spanDigits r).2) else none
  | [] => none

/-- The optional fraction of a number: a point and at least one digit; without a digit nothing
is taken. -/
def scanFraction (cs : List Char) : List Char × List Char :=
  match cs with
  | '.' :: d :: r => if d.isDigit then (d :: (spanDigits r).1, (spanDigits r).2) else ([], cs)
  | _ => ([], cs)

/-- The number token at the start of `cs`: an optional minus, then `0` or a digit run not
starting with `0`, then an optional fraction (a point and at least one digit) and exponent. -/
def scanNumber (cs : List Char) : Option (NumberToken × List Char) :=
  let (neg, r0) := scanSign cs
  (scanWhole r0).map fun (w, r1) =>
    let (frac, r2) := scanFraction r1
    match scanExponent r2 with
    | some (eneg, ds, r3) => (⟨neg, w, frac, eneg, ds, true⟩, r3)
    | none => (⟨neg, w, frac, false, [], !frac.isEmpty⟩, r2)

/-- The number written by decimal digits. -/
def digitsValue (ds : List Char) : Nat :=
  ds.foldl (fun n c => 10 * n + (c.toNat - '0'.toNat)) 0

/-- The float nearest to `m · 10^s`. Values beyond the float range are settled by their
number of digits alone, so that no huge power is ever formed. -/
def decimalFloat (negative : Bool) (m : Nat) (s : Int) : Float :=
  let d : Int := (Nat.toDigits 10 m).length
  if m = 0 then Number.Binary64.pack negative 0 0
  else if s + d > 310 then Number.Binary64.pack negative (Nat.pow 2 52) 972
  else if s + d < -330 then Number.Binary64.pack negative 0 0
  else if s ≥ 0 then Number.Binary64.nearest negative (m * Nat.pow 10 s.toNat) 1
  else Number.Binary64.nearest negative m (Nat.pow 10 (-s).toNat)

/-- The value of a number token. -/
def NumberToken.toValue (t : NumberToken) : Except DecodeError Value :=
  if t.isFloat then
    let e : Int := if t.exponentNegative then -(digitsValue t.exponent : Int) else digitsValue t.exponent
    .ok (.float (decimalFloat t.negative (digitsValue (t.whole ++ t.fraction)) (e - t.fraction.length)))
  else if t.whole.length > maxIntegerDigits then .error (.integerTooLong t.whole.length)
  else
    let n : Int := digitsValue t.whole
    .ok (.int (if t.negative then -n else n))

/-- The float NaN. -/
def nan : Float := Float.ofBits 0x7FF8000000000000

mutual
/-- Reads one value at the start of `cs` (no blanks before it), and returns the rest. -/
def parseValue (cs : List Char) : Except DecodeError (Value × List Char) :=
  match cs with
  | [] => .error (.at .expectingValue 0)
  | '"' :: rest => (scanString cs.length [] rest).map fun (s, r) => (.str s, r)
  | '{' :: rest =>
    match skipBlank rest with
    | '}' :: r => .ok (.obj [], r)
    | r =>
      if _h : r.length ≤ rest.length then parseMembers [] r else .error (.at .expectingValue 0)
  | '[' :: rest =>
    match skipBlank rest with
    | ']' :: r => .ok (.arr [], r)
    | r =>
      if _h : r.length ≤ rest.length then parseItems [] r else .error (.at .expectingValue 0)
  | 'n' :: 'u' :: 'l' :: 'l' :: rest => .ok (.null, rest)
  | 't' :: 'r' :: 'u' :: 'e' :: rest => .ok (.bool true, rest)
  | 'f' :: 'a' :: 'l' :: 's' :: 'e' :: rest => .ok (.bool false, rest)
  | 'N' :: 'a' :: 'N' :: rest => .ok (.float nan, rest)
  | 'I' :: 'n' :: 'f' :: 'i' :: 'n' :: 'i' :: 't' :: 'y' :: rest =>
    .ok (.float Number.Binary64.infinity, rest)
  | '-' :: 'I' :: 'n' :: 'f' :: 'i' :: 'n' :: 'i' :: 't' :: 'y' :: rest =>
    .ok (.float (-Number.Binary64.infinity), rest)
  | _ =>
    match scanNumber cs with
    | some (tok, rest) => tok.toValue.map (·, rest)
    | none => .error (.at .expectingValue cs.length)
termination_by (cs.length, 0)

/-- Reads the items of an array after its first blank-free position, up to the closing
bracket; `acc` holds the items read so far, last first. -/
def parseItems (acc : List Value) (cs : List Char) : Except DecodeError (Value × List Char) :=
  match parseValue cs with
  | .error e => .error e
  | .ok (v, r1) =>
    if h1 : r1.length < cs.length then
      have := length_skipBlank_le r1
      match h2 : skipBlank r1 with
      | ']' :: r => .ok (.arr (v :: acc).reverse, r)
      | ',' :: r =>
        have := length_skipBlank_le r
        have : r.length + 1 ≤ r1.length := by
          have h := length_skipBlank_le r1
          rw [h2] at h
          simpa using h
        parseItems (v :: acc) (skipBlank r)
      | r => .error (.at .expectingComma r.length)
    else .error (.at .expectingValue cs.length)
termination_by (cs.length, 1)

/-- Reads the members of an object from the position of a key, up to the closing brace;
`acc` holds the members read so far. -/
def parseMembers (acc : Fields) (cs : List Char) : Except DecodeError (Value × List Char) :=
  match cs with
  | '"' :: rest =>
    match scanString cs.length [] rest with
    | .error e => .error e
    | .ok (k, r1) =>
      match skipBlank r1 with
      | ':' :: r2 =>
        let r3 := skipBlank r2
        if _h3 : r3.length < rest.length + 1 then
          match parseValue r3 with
          | .error e => .error e
          | .ok (v, r4) =>
            let acc' := Fields.insert acc k v
            match skipBlank r4 with
            | '}' :: r => .ok (.obj acc', r)
            | ',' :: r =>
              let r6 := skipBlank r
              if _h6 : r6.length < rest.length + 1 then parseMembers acc' r6
              else .error (.at .expectingValue cs.length)
            | r => .error (.at .expectingComma r.length)
        else .error (.at .expectingValue cs.length)
      | r => .error (.at .expectingColon r.length)
  | _ => .error (.at .expectingPropertyName cs.length)
termination_by (cs.length, 1)
end

end Parse

/-- Reads a whole JSON document from its characters: blanks may surround the one value,
nothing else may follow. -/
def Value.parseChars (cs : List Char) : Except DecodeError Value :=
  match Parse.parseValue (Parse.skipBlank cs) with
  | .error e => .error e
  | .ok (v, r) =>
    match Parse.skipBlank r with
    | [] => .ok v
    | r' => .error (.at .extraData r'.length)

/-- Reads a whole JSON text. A text that starts with a byte order mark is refused: the mark
belongs to an encoding of bytes, not to text. -/
def Value.parse (s : String) : Except DecodeError Value :=
  match s.toList with
  | '\uFEFF' :: rest => .error (.at .byteOrderMark (rest.length + 1))
  | cs => Value.parseChars cs

end OperandLifecycle.Json

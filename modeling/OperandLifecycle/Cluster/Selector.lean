import OperandLifecycle.Json.Display
import OperandLifecycle.Json.Path
import OperandLifecycle.Text.Blank
/-!
# Label and field selectors

A selector is a comma-separated list of requirements on a flat map of values; a map
satisfies the selector when it satisfies every requirement. Commas inside parentheses do not
separate, and a last requirement that is blank is dropped.

A requirement (`Requirement.parse`) is one of

* `key in (v₁,…,vₙ)` and `key notin (v₁,…,vₙ)`: the value's text, trimmed, is (not) one of
  the trimmed options; a missing value is in no set;
* `key = v`, `key == v` and `key != v`: the value's text, trimmed, is (not) `v`;
* `key` and `!key`: the key is (not) present.

Keys are runs of characters other than blanks, `!` and `=`. The set form is tried first, so a
value may contain `=`. Text that fits no form is unparseable and matches nothing.
-/
namespace OperandLifecycle.Cluster

open Json

/-- One requirement of a selector. -/
inductive Requirement where
  | inSet (key : String) (options : List String)
  | notInSet (key : String) (options : List String)
  | equals (key : String) (value : String)
  | notEquals (key : String) (value : String)
  | present (key : String)
  | absent (key : String)
  | unparseable (text : String)
  deriving DecidableEq, Repr

/-- One character of a selector taken in during splitting, with the requirements read so far,
the characters of the one being read (last first) and the depth of parentheses: a comma outside
parentheses ends a requirement; any other character joins it. -/
def splitStep (st : List String × List Char × Int) (c : Char) : List String × List Char × Int :=
  let (done, cur, depth) := st
  if c == ',' && depth == 0 then (String.ofList cur.reverse :: done, [], depth)
  else
    let depth' := if c == '(' then depth + 1 else if c == ')' then depth - 1 else depth
    (done, c :: cur, depth')

/-- Splits a selector at the commas outside parentheses; a blank last part is dropped. -/
def splitRequirements (selector : String) : List String :=
  let (done, cur, _) := selector.toList.foldl splitStep ([], [], 0)
  let last := String.ofList cur.reverse
  (if Text.isBlankText last then done else last :: done).reverse

/-- One piece of a selector taken in during splitting: a comma piece outside parentheses ends
a requirement; any other piece is looked up as a parenthesis (so it must serve as a key) and
joined to the requirement being read (so it must be a text). -/
def takePiece (st : List String × String × Int) (p : Value) :
    Except Failure (List String × String × Int) :=
  let (done, cur, depth) := st
  match p with
  | .str "," => if depth == 0 then .ok (cur :: done, "", depth) else .ok (done, cur ++ ",", depth)
  | .str s =>
    .ok (done, cur ++ s, if s == "(" then depth + 1 else if s == ")" then depth - 1 else depth)
  | .arr _ | .obj _ => .error (unhashable p)
  | other => .error (.raised .typeError
      ("can only concatenate str (not \"" ++ other.typeName ++ "\") to str"))

/-- The requirements of a selector given as any value: a text is split by its characters, an
array by its items and an object by its keys, as `splitRequirements` does. -/
def selectorRequirements (selector : Value) : Except Failure (List String) :=
  match selector with
  | .str s => .ok (splitRequirements s)
  | other => do
    let (done, cur, _) ← (← other.iterate).foldlM takePiece ([], "", 0)
    pure (if Text.isBlankText cur then done else cur :: done).reverse

/-- Whether a character may stand in a key. -/
def isKeyChar (c : Char) : Bool := !Text.isSpace c && c != '!' && c != '='

/-- Drops leading blanks. -/
def dropSpace (cs : List Char) : List Char := cs.dropWhile Text.isSpace

/-- The key at the start of `cs` and what follows it; none when there is no key. -/
def takeKey (cs : List Char) : Option (String × List Char) :=
  match cs.takeWhile isKeyChar with
  | [] => none
  | k => some (String.ofList k, cs.dropWhile isKeyChar)

/-- Trims blanks from both ends of a text. -/
def trim (cs : List Char) : String :=
  String.ofList ((cs.dropWhile Text.isSpace).reverse.dropWhile Text.isSpace).reverse

/-- The set form: key, blanks, `in` or `notin`, blanks, and options in parentheses that end
the requirement (blanks apart). The options are the text up to the last closing parenthesis
of the first line. -/
def parseSet (cs : List Char) : Option Requirement := do
  let (key, r) ← takeKey (dropSpace cs)
  let r1 := dropSpace r
  if r1.length == r.length then none
  let (isIn, r2) ← match r1 with
    | 'i' :: 'n' :: q => some (true, q)
    | 'n' :: 'o' :: 't' :: 'i' :: 'n' :: q => some (false, q)
    | _ => none
  let r3 := dropSpace r2
  if r3.length == r2.length then none
  match r3 with
  | '(' :: body =>
    let line := body.takeWhile (· != '\n')
    -- the last closing parenthesis of the line must be followed by blanks only
    let closeAt := line.length - 1 - (line.reverse.findIdx (· == ')'))
    if line.contains ')' && (body.drop (closeAt + 1)).all Text.isSpace then
      let options := ((line.take closeAt).splitOn ',').map trim
      some (if isIn then .inSet key options else .notInSet key options)
    else none
  | _ => none

/-- The equality form: key, an operator (`==`, `!=` or `=`), and a value on one line. -/
def parseEquality (cs : List Char) : Option Requirement := do
  let (key, r) ← takeKey (dropSpace cs)
  let (op, r') ← match dropSpace r with
    | '=' :: '=' :: q => some ("==", q)
    | '!' :: '=' :: q => some ("!=", q)
    | '=' :: q => some ("=", q)
    | _ => none
  let value := trim r'
  if value.toList.contains '\n' then none
  some (if op == "!=" then .notEquals key value else .equals key value)

/-- The existence form: an optional `!` and a key, nothing else. -/
def parseExistence (cs : List Char) : Option Requirement := do
  let r := dropSpace cs
  let (neg, r') := match r with
    | '!' :: q => (true, dropSpace q)
    | q => (false, q)
  let (key, rest) ← takeKey r'
  if rest.all Text.isSpace then some (if neg then .absent key else .present key) else none

/-- Reads one requirement, trying the set form, then equality, then existence. -/
def Requirement.parse (text : String) : Requirement :=
  let cs := text.toList
  match parseSet cs with
  | some r => r
  | none =>
    match parseEquality cs with
    | some r => r
    | none =>
      match parseExistence cs with
      | some r => r
      | none => .unparseable text

/-- The trimmed text of a value, or none for a missing or null value. -/
def valueText (values : Fields) (key : String) : Option String :=
  match Fields.get? values key with
  | none | some .null => none
  | some v => some (trim v.display.toList)

/-- Whether a flat map of values satisfies a requirement. -/
def Requirement.holds (values : Fields) : Requirement → Bool
  | .inSet key options => match valueText values key with
    | some t => options.contains t
    | none => false
  | .notInSet key options => match valueText values key with
    | some t => !options.contains t
    | none => true
  | .equals key value => valueText values key == some value
  | .notEquals key value => valueText values key != some value
  | .present key => Fields.contains values key
  | .absent key => !Fields.contains values key
  | .unparseable _ => false

/-- Whether a flat map of values satisfies every requirement of a selector. -/
def selectorMatches (values : Fields) (selector : String) : Bool :=
  (splitRequirements selector).all (fun r => (Requirement.parse r).holds values)

/-- Whether any value satisfies a requirement: reading a value needs an object, while
presence is membership in whatever collection the values are. -/
def Requirement.holdsOn (values : Value) (r : Requirement) : Except Failure Bool :=
  match values, r with
  | .obj fs, r => .ok (r.holds fs)
  | _, .unparseable _ => .ok false
  | v, .present key => Value.memberOf (.str key) v
  | v, .absent key => (Value.memberOf (.str key) v).map (!·)
  | other, _ => .error (notAnObject other "get")

/-- Whether values satisfy every requirement of a selector, checking the requirements in order
and stopping at the first one that fails. -/
def selectorHolds (values : Value) (selector : Value) : Except Failure Bool := do
  (← selectorRequirements selector).allM (fun r => (Requirement.parse r).holdsOn values)

/-- Adds the members of a nested object to a flat map: every value that is no object, under
the dotted path of keys that leads to it (an empty prefix adds no dot). A path met twice keeps
its first place and its last value. -/
def flattenInto (acc : Fields) (pfx : String) (fs : Fields) : Fields :=
  match fs with
  | [] => acc
  | (k, v) :: rest =>
    let key := if pfx.isEmpty then k else pfx ++ "." ++ k
    let acc' := match v with
      | .obj inner => flattenInto acc key inner
      | other => Fields.insert acc key other
    flattenInto acc' pfx rest
termination_by sizeOf fs

/-- A nested object as a flat map of dotted paths. -/
def flatten (fs : Fields) : Fields := flattenInto [] "" fs

end OperandLifecycle.Cluster

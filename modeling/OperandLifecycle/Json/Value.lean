import OperandLifecycle.Number.Binary64
/-!
# JSON values

A JSON document as the manager holds it. Objects keep their members in insertion order, and
numbers keep the difference between an integer (exact, unbounded) and a binary64 float,
because answers and the status comparison tell `1` and `1.0` apart.

An object is a list of members. `Fields.insert` replaces a member in place or appends it, so
every object built through it has distinct keys; reading a key (`Fields.get?`) takes its
first member.

Two equalities live here. `Value.sameAs` is structural: kinds must agree, so `1` and `1.0`
differ. `Value.equiv` is the equality the manager's comparisons use: numbers compare by
value across integers, floats and booleans (`true` is `1`), objects compare as maps.
-/
namespace OperandLifecycle.Json

/-- A JSON value with ordered object members and two kinds of number. -/
inductive Value where
  | null
  | bool (b : Bool)
  | int (n : Int)
  | float (x : Float)
  | str (s : String)
  | arr (items : List Value)
  | obj (fields : List (String × Value))
  deriving Inhabited

/-- The members of an object, in insertion order. -/
abbrev Fields := List (String × Value)

namespace Fields

/-- The value of the first member named `k`. -/
def get? (fs : Fields) (k : String) : Option Value :=
  (fs.find? (fun p => p.1 == k)).map (·.2)

/-- Whether a member named `k` exists. -/
def contains (fs : Fields) (k : String) : Bool := fs.any (fun p => p.1 == k)

/-- Sets member `k` to `v`: in place when it exists, appended at the end otherwise. -/
def insert (fs : Fields) (k : String) (v : Value) : Fields :=
  if Fields.contains fs k then fs.map (fun p => if p.1 == k then (k, v) else p) else fs ++ [(k, v)]

/-- Drops every member named `k`. -/
def erase (fs : Fields) (k : String) : Fields := fs.filter (fun p => p.1 != k)

/-- The keys, in order. -/
def keys (fs : Fields) : List String := fs.map (·.1)

end Fields

namespace Value

/-- An object with the given members, each later one overriding an earlier one of its name. -/
def ofFields (fs : List (String × Value)) : Value :=
  .obj (fs.foldl (fun acc p => Fields.insert acc p.1 p.2) [])

/-- The member `k` of an object; nothing for a missing key or a value that is no object. -/
def get? (v : Value) (k : String) : Option Value :=
  match v with
  | .obj fs => Fields.get? fs k
  | _ => none

/-- The member `k` of an object, or `null`. -/
def getD (v : Value) (k : String) : Value := (v.get? k).getD .null

/-- The members of an object. -/
def fields? : Value → Option Fields
  | .obj fs => some fs
  | _ => none

/-- The items of an array. -/
def items? : Value → Option (List Value)
  | .arr xs => some xs
  | _ => none

/-- The text of a string. -/
def str? : Value → Option String
  | .str s => some s
  | _ => none

/-- Whether the value is an object. -/
def isObj : Value → Bool
  | .obj _ => true
  | _ => false

/-- Whether the value is an array. -/
def isArr : Value → Bool
  | .arr _ => true
  | _ => false

/-- Whether the value is `null`. -/
def isNull : Value → Bool
  | .null => true
  | _ => false

/-- Sets member `k` of an object; a value that is no object is left as it is. -/
def set (v : Value) (k : String) (x : Value) : Value :=
  match v with
  | .obj fs => .obj (Fields.insert fs k x)
  | other => other

/-- Drops member `k` of an object. -/
def erase (v : Value) (k : String) : Value :=
  match v with
  | .obj fs => .obj (Fields.erase fs k)
  | other => other

/-- Truth of a value: `null`, `false`, zero, the empty text and empty containers are false. -/
def truthy : Value → Bool
  | .null => false
  | .bool b => b
  | .int n => n != 0
  | .float x => !(x == 0.0)
  | .str s => !s.isEmpty
  | .arr xs => !xs.isEmpty
  | .obj fs => !fs.isEmpty

/-- The name of a value's kind, as error texts spell it. -/
def typeName : Value → String
  | .null => "NoneType"
  | .bool _ => "bool"
  | .int _ => "int"
  | .float _ => "float"
  | .str _ => "str"
  | .arr _ => "list"
  | .obj _ => "dict"

/-- Whether two floats are the same number, a NaN being unequal to everything. -/
def floatEq (x y : Float) : Bool := x == y

mutual
/-- Structural equality: kinds agree, numbers agree by value, members agree as maps. -/
def sameAs : Value → Value → Bool
  | .null, .null => true
  | .bool a, .bool b => a == b
  | .int a, .int b => a == b
  | .float a, .float b => floatEq a b
  | .str a, .str b => a == b
  | .arr xs, .arr ys => sameItems xs ys
  | .obj xs, .obj ys => xs.length == ys.length && sameMembers xs ys
  | _, _ => false

/-- Item-wise structural equality of two lists. -/
def sameItems : List Value → List Value → Bool
  | [], [] => true
  | x :: xs, y :: ys => sameAs x y && sameItems xs ys
  | _, _ => false

/-- Every member of the first list has a member of its key in `all` with the same value. -/
def sameMembers : List (String × Value) → List (String × Value) → Bool
  | [], _ => true
  | (k, x) :: rest, all =>
    (match all.find? (fun p => p.1 == k) with
      | some (_, y) => sameAs x y
      | none => false) && sameMembers rest all
end

/-- The number a scalar stands for in comparisons: booleans count as 0 and 1. -/
inductive Num where
  | int (n : Int)
  | float (x : Float)

/-- The number of a numeric value. -/
def num? : Value → Option Num
  | .bool b => some (.int (if b then 1 else 0))
  | .int n => some (.int n)
  | .float x => some (.float x)
  | _ => none

/-- Exact equality of two numbers of either kind. -/
def Num.eq : Num → Num → Bool
  | .int a, .int b => a == b
  | .float a, .float b => a == b
  | .int a, .float b => Number.Binary64.isFinite b && Number.Binary64.compareInt a b == .eq
  | .float a, .int b => Number.Binary64.isFinite a && Number.Binary64.compareInt b a == .eq

/-- The order of two numbers of either kind, exactly; none when a NaN takes part. -/
def Num.compare? : Num → Num → Option Ordering
  | .int a, .int b => some (compare a b)
  | .float a, .float b =>
    if a < b then some .lt else if a == b then some .eq else if b < a then some .gt else none
  | .int a, .float b =>
    if Number.Binary64.isNaN b then none
    else if !Number.Binary64.isFinite b then some (if b < 0 then .gt else .lt)
    else some (Number.Binary64.compareInt a b)
  | .float a, .int b =>
    if Number.Binary64.isNaN a then none
    else if !Number.Binary64.isFinite a then some (if a < 0 then .lt else .gt)
    else some (Number.Binary64.compareInt b a).swap

/-- Whether a value is the float NaN. -/
def isNaN : Value → Bool
  | .float x => Number.Binary64.isNaN x
  | _ => false

mutual
/-- Equality as the manager's comparisons see it: numbers by value whatever their kind,
objects as maps, arrays item by item. Two NaNs compared directly differ; held in containers
they are the same one value (every NaN the manager holds is the reader's one NaN), so
containers that hold NaN at the same place are equal. -/
def equiv : Value → Value → Bool
  | .null, .null => true
  | .str a, .str b => a == b
  | .arr xs, .arr ys => equivItems xs ys
  | .obj xs, .obj ys => xs.length == ys.length && equivMembers xs ys
  | a, b =>
    match a.num?, b.num? with
    | some x, some y => x.eq y
    | _, _ => false

/-- Item-wise equivalence of two lists; NaN items match each other. -/
def equivItems : List Value → List Value → Bool
  | [], [] => true
  | x :: xs, y :: ys => ((x.isNaN && y.isNaN) || equiv x y) && equivItems xs ys
  | _, _ => false

/-- Every member of the first list has a member of its key in the second, equivalent to it;
NaN members match each other. -/
def equivMembers : List (String × Value) → List (String × Value) → Bool
  | [], _ => true
  | (k, x) :: rest, all =>
    (match all.find? (fun p => p.1 == k) with
      | some (_, y) => (x.isNaN && y.isNaN) || equiv x y
      | none => false) && equivMembers rest all
end

/-- Equality of a value held in a container (an array item, a key) to another, as a
membership test or a key lookup sees it: NaN matches NaN there. -/
def heldEquiv (a b : Value) : Bool := (a.isNaN && b.isNaN) || a.equiv b

end Value

end OperandLifecycle.Json

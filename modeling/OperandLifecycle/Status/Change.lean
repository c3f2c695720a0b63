import OperandLifecycle.Json.Value
/-!
# Meaningful status changes

A status update is worth writing only when it changes something besides transition times.
The comparison is DeepDiff's. `deepDiff` walks two values side by side, names each place it
visits by a path (`root['status']['conditions'][0]`), and leaves out every place whose path
the caller's callback excludes, whether the item there was compared, added or removed. Values
of different kinds differ (`1`, `1.0` and `true` are three kinds), numbers and texts by value,
objects member by member, and arrays item by item, except that an array of plain scalars
compares its items by value across kinds.

`statusChangedWith` is the status comparison over any such engine: it leaves out the paths
that end in a `lastTransitionTime` member (`stampPath`) and counts anything that is not an
object as a change. `statusChanged` runs it with `deepDiff`. A key with a single quote is
written in double quotes in a path, so such a member is compared even when its key ends in
`lastTransitionTime`.
-/
namespace OperandLifecycle.Status

open Json

/-- How a path names the member `k`: in single quotes, or in double quotes when the key holds
a single quote. -/
def keyStep (k : String) : String :=
  if k.toList.contains (Char.ofNat 39) then "[\"" ++ k ++ "\"]" else "['" ++ k ++ "']"

/-- How a path names the item at index `i`. -/
def indexStep (i : Nat) : String := "[" ++ toString i ++ "]"

/-- Whether one of the `n` items from index `i` on, present on one side only, is reported. -/
def extraItems (excluded : String → Bool) (path : String) (i n : Nat) : Bool :=
  (List.range' i n).any fun j => !excluded (path ++ indexStep j)

/-- Whether the second object has a member whose key the first lacks and whose path is not
left out. -/
def addedMembers (excluded : String → Bool) (path : String) (xs ys : Fields) : Bool :=
  ys.any fun p => !excluded (path ++ keyStep p.1) && !Fields.contains xs p.1

/-- Whether a value is a plain scalar (no container). -/
def isScalar : Value → Bool
  | .arr _ | .obj _ => false
  | _ => true

mutual
/-- Whether DeepDiff reports a difference between two values at `path`, leaving out the places
whose path `excluded` names. -/
def deepDiff (excluded : String → Bool) (path : String) : Value → Value → Bool
  | .null, .null => false
  | .bool a, .bool b => a != b
  | .int a, .int b => a != b
  | .float a, .float b => !(a == b)
  | .str a, .str b => a != b
  | .arr xs, .arr ys =>
    if xs.all isScalar && ys.all isScalar then !Value.equivItems xs ys
    else itemsDiffer excluded path 0 xs ys
  | .obj xs, .obj ys => membersDiffer excluded path xs ys || addedMembers excluded path xs ys
  | _, _ => true

/-- Whether two arrays differ item by item from index `i` on, or in length. -/
def itemsDiffer (excluded : String → Bool) (path : String) (i : Nat) :
    List Value → List Value → Bool
  | x :: xs, y :: ys =>
    (!excluded (path ++ indexStep i) && deepDiff excluded (path ++ indexStep i) x y) ||
      itemsDiffer excluded path (i + 1) xs ys
  | xs, ys => extraItems excluded path i (xs.length + ys.length)

/-- Whether some member of the first object whose path is not left out is missing from `all`
or differs from its member there. -/
def membersDiffer (excluded : String → Bool) (path : String) : Fields → Fields → Bool
  | [], _ => false
  | (k, x) :: rest, all =>
    (!excluded (path ++ keyStep k) &&
      match Fields.get? all k with
      | some y => deepDiff excluded (path ++ keyStep k) x y
      | none => true) || membersDiffer excluded path rest all
end

/-- The paths a status comparison leaves out: those of members whose key ends in
`lastTransitionTime`. -/
def stampPath (path : String) : Bool := path.endsWith "lastTransitionTime']"

/-- Whether a new status differs meaningfully from the current one, by a comparison `diff` of
the two values that leaves out the paths it is given; anything that is not an object counts as
a change. -/
def statusChangedWith (diff : Value → Value → (String → Bool) → Bool) (current new : Value) :
    Bool :=
  match current, new with
  | .obj _, .obj _ => diff current new stampPath
  | _, _ => true

/-- Whether a new status differs meaningfully from the current one, as DeepDiff compares them. -/
def statusChanged (current new : Value) : Bool :=
  statusChangedWith (fun a b excluded => deepDiff excluded "root" a b) current new

end OperandLifecycle.Status

import OperandLifecycle.Json.Value
import OperandLifecycle.Json.Display
import OperandLifecycle.Failure
import OperandLifecycle.Text.Literal
/-!
# Dotted paths

A dotted key `a.b.c` names a member inside nested objects. `Value.getPath` follows it: a
missing or null step on the way gives the default, a step that is some other non-object
value is a `typeError` naming the path walked so far, and the last step gives its member or
the default.
-/
namespace OperandLifecycle.Json

/-- The failure of reading a member of something that is no object. -/
def notAnObject (v : Value) (attr : String) : Failure :=
  .raised .attributeError ("'" ++ v.typeName ++ "' object has no attribute '" ++ attr ++ "'")

/-- Whether a value can serve as a key: containers cannot. -/
def Value.hashable (v : Value) : Bool := !(v.isObj || v.isArr)

/-- The failure of using a container as a key. -/
def unhashable (v : Value) : Failure :=
  .raised .typeError ("unhashable type: '" ++ v.typeName ++ "'")

/-- The member of an object under a key value: a text names a member, another scalar names
none, and a container cannot be a key. -/
def Fields.lookup (fs : Fields) (key : Value) : Except Failure (Option Value) :=
  match key with
  | .str k => .ok (Fields.get? fs k)
  | .arr _ | .obj _ => .error (unhashable key)
  | _ => .ok none

/-- Follows the steps `parts` from the object `fs`; `walked` are the steps taken so far. -/
def Fields.followPath (fs : Fields) (walked : List String) (parts : List String) (dflt : Value) :
    Except Failure Value :=
  match parts with
  | [] => .ok dflt
  | [last] => .ok ((Fields.get? fs last).getD dflt)
  | p :: rest =>
    match Fields.get? fs p with
    | none | some .null => .ok dflt
    | some (.obj inner) => Fields.followPath inner (walked ++ [p]) rest dflt
    | some _ =>
      .error (.raised .typeError ("Intermediate key " ++ ".".intercalate (walked ++ [p]) ++
        " is not a dict"))

/-- The value at a dotted key of an object, or the default. -/
def Value.getPath (v : Value) (key : String) (dflt : Value) : Except Failure Value :=
  match v with
  | .obj fs => Fields.followPath fs [] ((key.toList.splitOn '.').map String.ofList) dflt
  | other => .error (notAnObject other "get")

/-- The member `k` of an object (null when missing); reading a member of anything else fails. -/
def Value.field (v : Value) (k : String) : Except Failure Value :=
  match v with
  | .obj fs => .ok ((Fields.get? fs k).getD .null)
  | other => .error (notAnObject other "get")

/-- The member `k` of an object, `d` when it is missing; reading a member of anything else
fails. -/
def Value.fieldOr (v : Value) (k : String) (d : Value) : Except Failure Value :=
  match v with
  | .obj fs => .ok ((Fields.get? fs k).getD d)
  | other => .error (notAnObject other "get")

/-- The attribute `k` of a record-like value: the member of an object (null when missing);
anything else has no attributes. -/
def Value.attr (v : Value) (k : String) : Except Failure Value :=
  match v with
  | .obj fs => .ok ((Fields.get? fs k).getD .null)
  | other => .error (notAnObject other k)

/-- The first value when it is true, the second otherwise. -/
def Value.or (v w : Value) : Value := if v.truthy then v else w

/-- Whether a value is among the members of a collection: the items of an array, the keys of
an object, the substrings of a text. -/
def Value.memberOf (v coll : Value) : Except Failure Bool :=
  match coll with
  | .arr xs => .ok (xs.any (fun x => v.equiv x))
  | .obj fs =>
    if !v.hashable then .error (unhashable v)
    else .ok (match v with | .str k => Fields.contains fs k | _ => false)
  | .str s =>
    match v with
    | .str t => .ok ((s.splitOn t).length > 1 || t.isEmpty)
    | other => .error (.raised .typeError
        ("'in <string>' requires string as left operand, not " ++ other.typeName))
  | other => .error (.raised .typeError ("argument of type '" ++ other.typeName ++ "' is not iterable"))

/-- The member `k` of an object by subscript: a missing member is a missing key, and only an
object has members. -/
def Value.index (v : Value) (k : String) : Except Failure Value :=
  match v with
  | .obj fs =>
    match Fields.get? fs k with
    | some x => .ok x
    | none => .error (Failure.missingKey (Text.quoteLiteral k))
  | .arr _ => .error (.raised .typeError "list indices must be integers or slices, not str")
  | .str _ => .error (.raised .typeError "string indices must be integers, not 'str'")
  | other => .error (.raised .typeError ("'" ++ other.typeName ++ "' object is not subscriptable"))

/-- The item of a value under a subscript: an object's member (the key must serve as a key,
and a missing one is a missing key), an array's item at an integer position, counted from the
end when negative. -/
def Value.subscript (v : Value) (k : Value) : Except Failure Value :=
  let position : Option Int := match k with
    | .int n => some n
    | .bool b => some (if b then 1 else 0)
    | _ => none
  match v with
  | .obj fs =>
    if !k.hashable then .error (unhashable k)
    else match k with
      | .str key => match Fields.get? fs key with
        | some x => .ok x
        | none => .error (Failure.missingKey k.literal)
      | _ => .error (Failure.missingKey k.literal)
  | .arr xs =>
    match position with
    | some n =>
      let i := if n < 0 then n + xs.length else n
      if 0 ≤ i && i < xs.length then .ok (xs.getD i.toNat .null)
      else .error (.raised .indexError "list index out of range")
    | none => .error (.raised .typeError
        ("list indices must be integers or slices, not " ++ k.typeName))
  | .str s =>
    match position with
    | some n =>
      let cs := s.toList
      let i := if n < 0 then n + cs.length else n
      if 0 ≤ i && i < cs.length then .ok (.str (String.singleton (cs.getD i.toNat ' ')))
      else .error (.raised .indexError "string index out of range")
    | none => .error (.raised .typeError
        ("string indices must be integers, not '" ++ k.typeName ++ "'"))
  | other => .error (.raised .typeError ("'" ++ other.typeName ++ "' object is not subscriptable"))

/-- A value, or the empty object when the value is false. -/
def Value.orEmpty (v : Value) : Value := v.or (.obj [])

/-- The member `k` of an object, the empty object when it is missing or false. -/
def Value.section (v : Value) (k : String) : Except Failure Value :=
  (v.field k).map Value.orEmpty

/-- The items met when walking a value: an array's items, an object's keys, a text's
characters; other values cannot be walked. -/
def Value.iterate (v : Value) : Except Failure (List Value) :=
  match v with
  | .arr xs => .ok xs
  | .obj fs => .ok (fs.map (fun p => .str p.1))
  | .str s => .ok (s.toList.map (fun c => .str (String.singleton c)))
  | other => .error (.raised .typeError ("'" ++ other.typeName ++ "' object is not iterable"))

/-- The items of a value, none for a false value. -/
def Value.itemsOrEmpty (v : Value) : Except Failure (List Value) :=
  if v.truthy then v.iterate else .ok []

end OperandLifecycle.Json

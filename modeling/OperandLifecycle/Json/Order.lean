import OperandLifecycle.Json.Path
/-!
# The order of values

The manager sorts referents and namespaces by the values' own order `<`: numbers (integers,
floats and booleans) by value, texts by code points, arrays and tuples item by item, the first
items that differ deciding and a prefix coming first. Any other pair of values has no order,
and comparing them is a type error.

`sortChecked` sorts stably by such an order. It fails exactly when two of the items cannot be
compared: for the values the manager sorts no item can lie between two such items, so every
comparison sort has to compare them with each other. The failure reported is that of the first
such pair in list order, the later item on the left, as an insertion sort compares.
-/
namespace OperandLifecycle.Json

/-- The failure of comparing two values that have no order between them. -/
def unorderable (a b : Value) : Failure :=
  .raised .typeError ("'<' not supported between instances of '" ++ a.typeName ++ "' and '" ++
    b.typeName ++ "'")

mutual
/-- Whether `a < b`; numbers compare by value (a NaN is never less), texts by code points,
arrays item by item. -/
def Value.less? : Value → Value → Except Failure Bool
  | .str x, .str y => .ok (decide (x < y))
  | .arr xs, .arr ys => itemsLess? xs ys
  | a, b =>
    match a.num?, b.num? with
    | some x, some y => .ok (decide (x.compare? y = some .lt))
    | _, _ => .error (unorderable a b)

/-- Whether one sequence of items comes before another: the first items that differ (a held
NaN equals itself) decide, and a prefix comes first. -/
def itemsLess? : List Value → List Value → Except Failure Bool
  | [], [] => .ok false
  | [], _ :: _ => .ok true
  | _ :: _, [] => .ok false
  | x :: xs, y :: ys => if x.heldEquiv y then itemsLess? xs ys else x.less? y
end

/-- Compares an item with every later one, then the later ones among themselves; fails with
the first pair that cannot be compared. -/
def checkComparable {α : Type} (less? : α → α → Except Failure Bool) : List α → Except Failure Unit
  | [] => .ok ()
  | x :: rest => do
    rest.forM (fun y => discard (less? y x))
    checkComparable less? rest

/-- Sorts stably by `less?`: an item goes before an earlier one only when it is less. Fails
when two items cannot be compared. -/
def sortChecked {α : Type} (less? : α → α → Except Failure Bool) (xs : List α) :
    Except Failure (List α) := do
  checkComparable less? xs
  pure (xs.mergeSort (fun a b => match less? b a with
    | .ok true => false
    | _ => true))

end OperandLifecycle.Json

import OperandLifecycle.Json.Print
import OperandLifecycle.Failure
/-!
# Answers of the request service

Every request is answered by one JSON object: `{"result": R}` or
`{"error": KIND, "message": TEXT}`. A failure inside a result (the outcome of a reconcile,
an aggregate of failures) is written as an object with its kind and text, the manager's own
failures also with their fatal flag, and an aggregate with its parts.

Floats that JSON cannot write (NaN and the infinities) are written as `{"$float": WORD}`.
-/
namespace OperandLifecycle.Service

open Json

/-- A successful answer. -/
def answerOk (v : Value) : Value := .obj [("result", v)]

/-- A failed answer. -/
def answerFailure (f : Failure) : Value :=
  .obj [("error", .str f.kindName), ("message", .str f.message)]

/-- The answer of a computation. -/
def answerOf (r : Except Failure Value) : Value :=
  match r with
  | .ok v => answerOk v
  | .error f => answerFailure f

mutual
/-- A failure as a value: kind and text, the fatal flag for the manager's own failures, and
the parts of an aggregate. -/
def failureValue : Failure → Value
  | .multi es =>
    .obj [("kind", .str "MultiError"), ("message", .str (Failure.multi es).message),
      ("fatal", .bool (Failure.multi es).isFatal), ("errors", .arr (failureValues es))]
  | f =>
    if f.isOwn then
      .obj [("kind", .str f.kindName), ("message", .str f.message), ("fatal", .bool f.isFatal)]
    else .obj [("kind", .str f.kindName), ("message", .str f.message)]

/-- Several failures as values. -/
def failureValues : List Failure → List Value
  | [] => []
  | f :: fs => failureValue f :: failureValues fs
end

/-- The word written for a float that JSON cannot write. -/
def nonFiniteWord (x : Float) : String :=
  if Number.Binary64.isNaN x then "NaN"
  else if Number.Binary64.signBit x then "-Infinity" else "Infinity"

mutual
/-- Replaces every non-finite float by its written form. -/
def encodeFloats : Value → Value
  | .float x =>
    if Number.Binary64.isFinite x then .float x else .obj [("$float", .str (nonFiniteWord x))]
  | .arr xs => .arr (encodeItems xs)
  | .obj fs => .obj (encodeMembers fs)
  | v => v

/-- Replaces non-finite floats in items. -/
def encodeItems : List Value → List Value
  | [] => []
  | x :: xs => encodeFloats x :: encodeItems xs

/-- Replaces non-finite floats in members. -/
def encodeMembers : List (String × Value) → List (String × Value)
  | [] => []
  | (k, v) :: rest => (k, encodeFloats v) :: encodeMembers rest
end

/-- The text of an answer. -/
def answerText (v : Value) : String := (encodeFloats v).compact

end OperandLifecycle.Service

import OperandLifecycle.Json.Parse
import OperandLifecycle.Json.Display
import OperandLifecycle.Text.Blank
import OperandLifecycle.Failure
/-!
# Requeue delays

A reconcile that asks to run again says after how long. The delay comes from a setting, read
as a number of seconds (`secondsOf`): an integer, a float, a boolean or a decimal text. The
delay is then held as a whole number of microseconds (`Delay.ofSeconds`) and reported back in
seconds (`Delay.seconds`).

Turning seconds into microseconds is exact for the whole seconds. The fraction is scaled by
10⁶ in floating point, and what is left below one microsecond is rounded to the nearest,
with a tie going to an even count. A delay must stay within 999999999 days.
-/
namespace OperandLifecycle.Reconcile

open Json Json.Parse

/-- The digits after the first digit of a digit run, where one underscore may stand between
two digits; returns the digits and the rest. -/
def digitRun : List Char → List Char × List Char
  | '_' :: d :: r =>
    if d.isDigit then
      let (ds, rest) := digitRun r
      (d :: ds, rest)
    else ([], '_' :: d :: r)
  | d :: r =>
    if d.isDigit then
      let (ds, rest) := digitRun r
      (d :: ds, rest)
    else ([], d :: r)
  | [] => ([], [])

/-- A run of at least one digit at the start of the text, underscores between digits
allowed. -/
def digitPart (cs : List Char) : Option (List Char × List Char) :=
  match cs with
  | d :: r => if d.isDigit then some (d :: (digitRun r).1, (digitRun r).2) else none
  | [] => none

/-- The whole and fraction digits of a decimal number: digits with an optional point and
fraction, or a point and a fraction. -/
def mantissaPart (cs : List Char) : Option (List Char × List Char × List Char) :=
  match digitPart cs with
  | some (whole, '.' :: r) =>
    match digitPart r with
    | some (frac, rest) => some (whole, frac, rest)
    | none => some (whole, [], r)
  | some (whole, rest) => some (whole, [], rest)
  | none =>
    match cs with
    | '.' :: r => (digitPart r).map (fun (frac, rest) => ([], frac, rest))
    | _ => none

/-- An optional exponent; a marker without digits reads nothing. -/
def exponentPart (cs : List Char) : Option (Int × List Char) :=
  match cs with
  | c :: r =>
    if c == 'e' || c == 'E' then
      let (neg, r') := match r with
        | '-' :: q => (true, q)
        | '+' :: q => (false, q)
        | q => (false, q)
      (digitPart r').map (fun (ds, rest) =>
        let n : Int := digitsValue ds
        (if neg then -n else n, rest))
    else some (0, cs)
  | [] => some (0, [])

/-- The float a decimal text names: an optional sign, then a decimal number with an optional
exponent, or `inf`, `infinity` or `nan` in any case; blanks around are allowed. -/
def readDecimal (s : String) : Option Float :=
  let cs := (Text.strip s).toList
  let (neg, body) := match cs with
    | '-' :: r => (true, r)
    | '+' :: r => (false, r)
    | r => (false, r)
  let word := String.ofList (body.map Char.toLower)
  if word == "inf" || word == "infinity" then
    some (if neg then -Number.Binary64.infinity else Number.Binary64.infinity)
  else if word == "nan" then some nan
  else do
    let (whole, frac, rest) ← mantissaPart body
    let (e, rest) ← exponentPart rest
    if !rest.isEmpty then none
    some (decimalFloat neg (digitsValue (whole ++ frac)) (e - frac.length))

/-- A value read as a number of seconds: numbers and booleans by value, a text as a decimal. -/
def secondsOf (v : Value) : Except Failure Float :=
  match v with
  | .int n =>
    let x := Number.Binary64.nearest (n < 0) n.natAbs 1
    if Number.Binary64.isFinite x then .ok x
    else .error (.raised .overflowError "int too large to convert to float")
  | .float x => .ok x
  | .bool b => .ok (if b then 1.0 else 0.0)
  | .str s => match readDecimal s with
    | some x => .ok x
    | none => .error (.raised .valueError
        ("could not convert string to float: " ++ Text.quoteLiteral s))
  | other => .error (.raised .typeError
      ("float() argument must be a string or a real number, not '" ++ other.typeName ++ "'"))

/-- A delay, in whole microseconds. -/
structure Delay where
  micros : Int
  deriving DecidableEq, Repr

/-- Microseconds in a second. -/
def microsPerSecond : Nat := Nat.pow 10 6

/-- The greatest number of days a delay may span, either way. -/
def maxDelayDays : Int := 999999999

/-- The whole part (toward zero) and the numerator of the fraction, over `2^k`, of a finite
float. -/
def splitFloat (x : Float) : Int × Nat × Nat :=
  let b := Number.Binary64.ofFloat x
  let sign : Int := if b.negative then -1 else 1
  if b.exponent ≥ 0 then (sign * (b.significand * Nat.pow 2 b.exponent.toNat : Nat), 0, 0)
  else
    let k := (-b.exponent).toNat
    (sign * (b.significand / Nat.pow 2 k : Nat), b.significand % Nat.pow 2 k, k)

/-- The delay of a number of seconds. -/
def Delay.ofSeconds (x : Float) : Except Failure Delay := do
  if Number.Binary64.isNaN x then
    throw (.raised .valueError "cannot convert float NaN to integer")
  if !Number.Binary64.isFinite x then
    throw (.raised .overflowError "cannot convert float infinity to integer")
  let neg := Number.Binary64.signBit x
  let (whole, fracNum, k) := splitFloat x
  let micros : Int :=
    if fracNum = 0 then whole * microsPerSecond
    else
      -- the fraction scaled to microseconds, rounded once to a float
      let scaled := Number.Binary64.nearest neg (microsPerSecond * fracNum) (Nat.pow 2 k)
      let (wholeMicros, leftNum, k2) := splitFloat scaled
      let sign : Int := if neg then -1 else 1
      let base := whole * microsPerSecond + wholeMicros
      let half := Nat.pow 2 k2
      let extra : Int :=
        if leftNum = 0 then 0
        else if 2 * leftNum > half then sign
        else if 2 * leftNum < half then 0
        else if base % 2 = 1 then sign else 0
      base + extra
  let days := micros / ((86400 : Int) * microsPerSecond)
  if days > Int.pow 2 31 - 1 || days < -(Int.pow 2 31) then
    throw (.raised .overflowError "Python int too large to convert to C int")
  if days > maxDelayDays || days < -maxDelayDays then
    throw (.raised .overflowError
      ("days=" ++ toString days ++ "; must have magnitude <= " ++ toString maxDelayDays))
  pure ⟨micros⟩

/-- The delay in seconds, the float nearest to its microseconds over 10⁶. -/
def Delay.seconds (d : Delay) : Float :=
  Number.Binary64.nearest (d.micros < 0) d.micros.natAbs microsPerSecond

/-- The delay a setting gives. -/
def Delay.ofSetting (v : Value) : Except Failure Delay := do
  Delay.ofSeconds (← secondsOf v)

end OperandLifecycle.Reconcile

import OperandLifecycle.Number.Binary64
/-!
# Shortest decimal digits of a binary64 number

A positive finite float `x = m · 2^q` is read back from a decimal `c · 10^k` exactly when the
decimal lies in the rounding interval of `x`: halfway to each neighbour, ends included when `m`
is even (ties go to the even significand). `Shortest.digits` finds, for 1, 2, … 17 digits, the
two points of that digit grid around `x`; the first grid that has a point in the interval
decides, and of two such points the one nearer to `x` wins (an exact tie goes to the even
one). Seventeen digits always suffice for binary64, so the search always ends there.

`Shortest.Style` then lays the digits out; `Shortest.Style.standard` is the layout the manager
writes: positional for decimal point positions from -3 to 16, otherwise one leading digit and a
signed exponent of at least two digits, and always a fractional part.
-/
namespace OperandLifecycle.Number

namespace Shortest

/-- Compares `c · 10^k` with `a · 2^q` exactly. -/
def compareDecBin (c : Nat) (k : Int) (a : Nat) (q : Int) : Ordering :=
  compare (c * Nat.pow 10 k.toNat * Nat.pow 2 (-q).toNat) (a * Nat.pow 2 q.toNat * Nat.pow 10 (-k).toNat)

/-- The rounding interval of `m · 2^q`, in units of `2^(q-2)`: its low and high ends, and
whether the ends belong to it. The gap below is half as wide at a power of two above the
least exponent. -/
structure Interval where
  low : Nat
  high : Nat
  closed : Bool

/-- The rounding interval of a positive float given by its parts. -/
def interval (b : Binary64) : Interval :=
  let m := b.significand
  let lowGap := if m = Nat.pow 2 52 ∧ b.exponent > -1074 then 1 else 2
  ⟨4 * m - lowGap, 4 * m + 2, m % 2 == 0⟩

/-- Whether `c · 10^k` reads back as the float with parts `b`. -/
def readsBack (b : Binary64) (c : Nat) (k : Int) : Bool :=
  let iv := interval b
  let lo := compareDecBin c k iv.low (b.exponent - 2)
  let hi := compareDecBin c k iv.high (b.exponent - 2)
  (lo == .gt || (iv.closed && lo == .eq)) && (hi == .lt || (iv.closed && hi == .eq))

/-- The decimal exponent of a positive float: the `e` with `10^e ≤ x < 10^(e+1)`. -/
def decimalExponent (b : Binary64) : Int :=
  let guess : Int := ((Nat.log2 b.significand : Int) + b.exponent) * 30103 / 100000
  -- the guess is within one of the answer; test it against its neighbours
  if compareDecBin 1 (guess + 1) b.significand b.exponent != .gt then guess + 1
  else if compareDecBin 1 guess b.significand b.exponent == .gt then guess - 1
  else guess

/-- The point of the grid `c · 10^k` at or below `x`, and whether `x` lies on it. -/
def gridFloor (b : Binary64) (k : Int) : Nat × Bool :=
  let num := b.significand * Nat.pow 2 b.exponent.toNat * Nat.pow 10 (-k).toNat
  let den := Nat.pow 2 (-b.exponent).toNat * Nat.pow 10 k.toNat
  (num / den, num % den == 0)

/-- The best point with `n` significant digits that reads back, if there is one. -/
def tryGrid (b : Binary64) (e : Int) (n : Nat) : Option (Nat × Int) :=
  let k := e - n + 1
  let (lo, exact) := gridFloor b k
  let hi := lo + 1
  let loOk := lo > 0 && readsBack b lo k
  let hiOk := !exact && readsBack b hi k
  if loOk && hiOk then
    -- nearer of the two: compare x with their midpoint (2·lo + 1) · 10^k / 2
    match compareDecBin (2 * lo + 1) k (2 * b.significand) b.exponent with
    | .gt => some (lo, k)
    | .lt => some (hi, k)
    | .eq => some (if lo % 2 == 0 then lo else hi, k)
  else if loOk then some (lo, k)
  else if hiOk then some (hi, k)
  else none

/-- Removes trailing zero digits, raising the exponent for each. -/
def trimZeros (c : Nat) (k : Int) (fuel : Nat) : Nat × Int :=
  match fuel with
  | 0 => (c, k)
  | fuel + 1 => if c ≠ 0 ∧ c % 10 = 0 then trimZeros (c / 10) (k + 1) fuel else (c, k)

/-- The fewest decimal digits that read back as the positive float with parts `b`, as a
significand and a power of ten. -/
def digits (b : Binary64) : Nat × Int :=
  let e := decimalExponent b
  let found := (List.range 17).findSome? (fun i => tryGrid b e (i + 1))
  let (c, k) := match found with
    | some p => p
    | none => ((gridFloor b (e - 16)).1, e - 16)
  trimZeros c k 20

/-- How digits are laid out as text. -/
structure Style where
  /-- The least decimal point position written positionally. -/
  positionalLow : Int
  /-- The greatest decimal point position written positionally. -/
  positionalHigh : Int
  /-- The least number of exponent digits. -/
  exponentWidth : Nat
  /-- The text of an infinity, without its sign. -/
  infinity : String
  /-- The text of a NaN. -/
  nan : String

/-- Positional from `0.001` to below `10^16`, otherwise `d.ddde+XX`; a whole number keeps `.0`. -/
def Style.standard : Style := ⟨-3, 16, 2, "inf", "nan"⟩

/-- The digits of `c` in base ten. -/
def decimalText (c : Nat) : List Char := Nat.toDigits 10 c

/-- Lays out `0.d₁d₂… · 10^point` with the digits `ds`. -/
def layout (st : Style) (ds : List Char) (point : Int) : String :=
  if st.positionalLow ≤ point ∧ point ≤ st.positionalHigh then
    if point ≤ 0 then
      "0." ++ String.ofList (List.replicate (-point).toNat '0' ++ ds)
    else if point.toNat < ds.length then
      String.ofList (ds.take point.toNat) ++ "." ++ String.ofList (ds.drop point.toNat)
    else
      String.ofList (ds ++ List.replicate (point.toNat - ds.length) '0') ++ ".0"
  else
    let e := point - 1
    let mant := match ds with
      | d :: [] => String.singleton d
      | d :: rest => String.singleton d ++ "." ++ String.ofList rest
      | [] => "0"
    let ed := decimalText e.natAbs
    let padded := List.replicate (st.exponentWidth - ed.length) '0' ++ ed
    mant ++ "e" ++ (if e < 0 then "-" else "+") ++ String.ofList padded

/-- The text of a float in the given style: the fewest digits that read back, a leading minus
for a negative number (zero included). -/
def render (st : Style) (x : Float) : String :=
  let neg := Binary64.signBit x
  let sign := if neg then "-" else ""
  if Binary64.isNaN x then st.nan
  else if !Binary64.isFinite x then sign ++ st.infinity
  else
    let b := Binary64.ofFloat x
    if b.significand = 0 then sign ++ "0.0"
    else
      let (c, k) := digits b
      let ds := decimalText c
      sign ++ layout st ds (k + ds.length)

end Shortest

end OperandLifecycle.Number

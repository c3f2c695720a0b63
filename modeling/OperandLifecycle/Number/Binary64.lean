/-!
# Binary64 numbers as exact rationals

A finite binary64 number is `(-1)^s · m · 2^q` with an integer significand `m` below `2^53`.
This module reads that triple off the bits of a `Float` (`Binary64.ofFloat`), builds the `Float`
nearest to a positive rational with ties to the even significand (`Binary64.nearest`), and
compares a float with an integer exactly (`Binary64.compareInt`).

All arithmetic is on `Nat` and `Int`, so each of these is a plain function of its inputs: the
rounding of `nearest` is the one of IEEE 754 round-to-nearest-even, carried out on the exact
quotient and remainder.
-/
namespace OperandLifecycle.Number

/-- The parts of a finite binary64 number: its value is `(-1)^negative · significand · 2^exponent`. -/
structure Binary64 where
  negative : Bool
  significand : Nat
  exponent : Int
  deriving Repr, DecidableEq

namespace Binary64

/-- The biased exponent field of a float's bits. -/
def exponentField (x : Float) : Nat := (x.toBits.toNat >>> 52) % 2048

/-- A float is finite unless its exponent field is all ones. -/
def isFinite (x : Float) : Bool := exponentField x != 2047

/-- A float is a NaN when its exponent field is all ones and its fraction is not zero. -/
def isNaN (x : Float) : Bool := exponentField x == 2047 && x.toBits.toNat % Nat.pow 2 52 != 0

/-- The sign bit of a float. -/
def signBit (x : Float) : Bool := x.toBits.toNat >>> 63 == 1

/-- The exact parts of a float; for an infinity or NaN the parts are meaningless. -/
def ofFloat (x : Float) : Binary64 :=
  let bits := x.toBits.toNat
  let e := (bits >>> 52) % 2048
  let f := bits % Nat.pow 2 52
  if e = 0 then ⟨bits >>> 63 == 1, f, -1074⟩ else ⟨bits >>> 63 == 1, f + Nat.pow 2 52, (e : Int) - 1075⟩

/-- The positive infinity. -/
def infinity : Float := Float.ofBits 0x7FF0000000000000

/-- Packs a sign, a significand below `2^53` and an exponent into a float: a significand of
`2^52` or more is normal, a smaller one stands at the least exponent, and an exponent past the
greatest finite one gives an infinity. -/
def pack (negative : Bool) (m : Nat) (q : Int) : Float :=
  let sign : Nat := if negative then Nat.pow 2 63 else 0
  if m = 0 then Float.ofBits (UInt64.ofNat sign)
  else if q > 971 then Float.ofBits (UInt64.ofNat (sign + 0x7FF0000000000000))
  else if m < Nat.pow 2 52 then Float.ofBits (UInt64.ofNat (sign + m))
  else Float.ofBits (UInt64.ofNat (sign + (q + 1075).toNat * Nat.pow 2 52 + (m - Nat.pow 2 52)))

/-- The quotient and remainder of `num · 2^(-q) / den`, for either sign of `q`. -/
def scaledDiv (num den : Nat) (q : Int) : Nat × Nat :=
  let n := num * Nat.pow 2 (-q).toNat
  let d := den * Nat.pow 2 q.toNat
  (n / d, n % d)

/-- The exponent at which `num / den` has a significand of 53 bits, or the least exponent
when the number is below the normal range. -/
def alignExponent (num den : Nat) : Int :=
  let guess : Int := (Nat.log2 num : Int) - (Nat.log2 den : Int) - 52
  -- the guess is off by at most one: move it until the quotient lies in [2^52, 2^53)
  let q :=
    if (scaledDiv num den guess).1 ≥ Nat.pow 2 53 then guess + 1
    else if (scaledDiv num den guess).1 < Nat.pow 2 52 then guess - 1
    else guess
  max q (-1074)

/-- The float nearest to `num / den` with the given sign, ties going to the even significand.
A zero numerator gives a zero; a zero denominator is read as a numerator of zero. -/
def nearest (negative : Bool) (num den : Nat) : Float :=
  if num = 0 ∨ den = 0 then pack negative 0 0
  else
    let q := alignExponent num den
    let (m, r) := scaledDiv num den q
    let d := den * Nat.pow 2 q.toNat
    let up := 2 * r > d ∨ (2 * r = d ∧ m % 2 = 1)
    let m' := if up then m + 1 else m
    if m' = Nat.pow 2 53 then pack negative (Nat.pow 2 52) (q + 1) else pack negative m' q

/-- Compares the integer `n` with the finite float `x`, exactly. -/
def compareInt (n : Int) (x : Float) : Ordering :=
  let b := ofFloat x
  let mag : Int := b.significand
  let v : Int := if b.negative then -mag else mag
  -- both sides are scaled by 2^(-exponent) when the exponent is negative
  if b.exponent ≥ 0 then compare n (v * Int.pow 2 b.exponent.toNat)
  else compare (n * Int.pow 2 (-b.exponent).toNat) v

end Binary64

end OperandLifecycle.Number

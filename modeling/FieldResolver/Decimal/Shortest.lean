/-
**The fewest digits that read back.**

A positive double is written with the fewest decimal digits that lie in the interval of reals which
round to it; of two such decimals the nearer one is taken. The work is exact: a candidate on the
grid of `10 ^ g` is compared with the interval's ends as fractions of natural numbers.
-/

import FieldResolver.Decimal.Binary

namespace FieldResolver.Decimal

/-- Significant digits with the position of the point: `0.d₁d₂… · 10 ^ point`. -/
structure Digits where
  digits : List Char
  point : Int
deriving DecidableEq

/-- The decimal digits of a natural number. -/
def natDigits (n : Nat) : List Char := Nat.toDigits 10 n

/-- Three fractions over one denominator: the ends of an interval and a value inside. -/
structure Interval where
  low : Nat
  value : Nat
  high : Nat
  denominator : Nat
  /-- Whether the ends belong to the interval. -/
  closed : Bool

namespace Interval

/-- The reals that round to `mantissa · 2 ^ exponent`, which is nearer to its lower neighbour when
it is a power of two, except at the bottom of the range. -/
def ofBinary (mantissa : Nat) (exponent : Int) : Interval :=
  let below := if mantissa = 0x10000000000000 ∧ -1074 < exponent then 1 else 2
  let (scale, denominator) := Binary.fraction 1 (exponent - 2)
  { low := (4 * mantissa - below) * scale
    value := 4 * mantissa * scale
    high := (4 * mantissa + 2) * scale
    denominator
    closed := mantissa % 2 == 0 }

/-- Whether the fraction `num / den` lies in the interval. -/
def contains (interval : Interval) (num den : Nat) : Bool :=
  let scaled := num * interval.denominator
  if interval.closed then
    decide (interval.low * den ≤ scaled ∧ scaled ≤ interval.high * den)
  else decide (interval.low * den < scaled ∧ scaled < interval.high * den)

/-- The number of digits in front of the point; for a value below one, minus the zeros behind it. -/
def magnitude (interval : Interval) : Int :=
  let num := interval.value
  let den := interval.denominator
  if den ≤ num then (natDigits (num / den)).length
  else
    let places := (natDigits (den / num)).length
    if den ≤ num * Nat.pow 10 (places - 1) then 2 - places else 1 - places

/-- The neighbour of the value on the grid of `10 ^ exponent` that lies in the interval, the nearer
one if both do. -/
def onGrid? (interval : Interval) (exponent : Int) : Option Nat :=
  let (num, den) : Nat × Nat :=
    if 0 ≤ exponent then (Nat.pow 10 exponent.toNat, 1) else (1, Nat.pow 10 (-exponent).toNat)
  let below := interval.value * den / (interval.denominator * num)
  let belowFits := interval.contains (below * num) den
  let aboveFits := interval.contains ((below + 1) * num) den
  let twice := 2 * interval.value * den
  let middle := (2 * below + 1) * interval.denominator * num
  match belowFits, aboveFits with
  | true, false => some below
  | false, true => some (below + 1)
  | true, true =>
    if twice < middle then some below
    else if middle < twice then some (below + 1)
    else some (if below % 2 = 0 then below else below + 1)
  | false, false => none

/-- Searches the grids of more and more digits. -/
def search (interval : Interval) (magnitude : Int) : Nat → Nat → Option (Nat × Int)
  | 0, _ => none
  | tries + 1, count =>
    let exponent := magnitude - count
    match interval.onGrid? exponent with
    | some n => some (n, exponent)
    | none => search interval magnitude tries (count + 1)

end Interval

/-- The digits of a decimal `n · 10 ^ exponent`, without zeros at the end. -/
def Digits.ofNat (n : Nat) (exponent : Int) : Digits :=
  let all := natDigits n
  { digits := (all.reverse.dropWhile (· == '0')).reverse
    point := all.length + exponent }

/-- The shortest digits of the positive double `mantissa · 2 ^ exponent`: seventeen always do. -/
def shortest (mantissa : Nat) (exponent : Int) : Digits :=
  let interval := Interval.ofBinary mantissa exponent
  match interval.search interval.magnitude 17 1 with
  | some (n, grid) => Digits.ofNat n grid
  | none => ⟨[], 0⟩

end FieldResolver.Decimal

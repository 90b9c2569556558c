/-
**What a double stands for.**

A double is not a number, an infinity, or a signed whole number of powers of two. The decimal
printers and the exact remainder and rounding functions work on this form, in natural numbers.
-/

namespace FieldResolver.Decimal

/-- The value of a double: `finite n m q` is `m · 2 ^ q`, negated if `n`. -/
inductive Binary where
  | notANumber
  | infinite (negative : Bool)
  | finite (negative : Bool) (mantissa : Nat) (exponent : Int)
deriving DecidableEq

namespace Binary

/-- Reads the sign, the exponent and the fraction out of a double's bits. -/
def ofFloat (x : Float) : Binary :=
  let bits : Nat := x.toBits.toNat
  let negative := bits / 0x8000000000000000 == 1
  let exponent : Nat := bits / 0x10000000000000 % 0x800
  let fraction : Nat := bits % 0x10000000000000
  if exponent = 2047 then
    if fraction = 0 then .infinite negative else .notANumber
  else if exponent = 0 then .finite negative fraction (-1074)
  else .finite negative (fraction + 0x10000000000000) ((exponent : Int) - 1075)

/-- A mantissa and its power of two as a fraction. -/
def fraction (mantissa : Nat) (exponent : Int) : Nat × Nat :=
  if 0 ≤ exponent then (mantissa * Nat.pow 2 exponent.toNat, 1)
  else (mantissa, Nat.pow 2 (-exponent).toNat)

end Binary

/-- Whether a double is an ordinary number. -/
def isFinite (x : Float) : Bool :=
  match Binary.ofFloat x with
  | .finite .. => true
  | _ => false

/-- The whole number a double stands for, if it stands for one. -/
def whole? (x : Float) : Option Int :=
  match Binary.ofFloat x with
  | .finite negative mantissa exponent =>
    let (num, den) := Binary.fraction mantissa exponent
    if num % den = 0 then some (if negative then -((num / den : Nat) : Int) else (num / den : Nat))
    else none
  | _ => none

/-- The whole part of a double, toward zero; `none` for what is not an ordinary number. -/
def truncated? (x : Float) : Option Int :=
  match Binary.ofFloat x with
  | .finite negative mantissa exponent =>
    let (num, den) := Binary.fraction mantissa exponent
    some (if negative then -((num / den : Nat) : Int) else (num / den : Nat))
  | _ => none

/-- The order of two doubles; none if one is not a number. -/
def compareFloats (a b : Float) : Option Ordering :=
  if a < b then some .lt else if a == b then some .eq else if b < a then some .gt else none

/-- The remainder of two doubles with the sign of the first, computed without rounding. -/
def remainder (x y : Float) : Float :=
  match Binary.ofFloat x, Binary.ofFloat y with
  | .finite negative m q, .finite _ m' q' =>
    if m' = 0 then 0.0 / 0.0
    else
      let low := min q q'
      let rest := (m * Nat.pow 2 (q - low).toNat) % (m' * Nat.pow 2 (q' - low).toNat)
      let size :=
        if 0 ≤ low then Float.ofNat (rest * Nat.pow 2 low.toNat)
        else Float.ofScientific (rest * Nat.pow 5 (-low).toNat) true (-low).toNat
      if negative then -size else size
  | .finite .., .infinite _ => x
  | _, _ => 0.0 / 0.0

end FieldResolver.Decimal

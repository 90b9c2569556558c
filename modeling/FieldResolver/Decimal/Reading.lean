/-
**Reading decimal numbers.**

Two rules turn a decimal into a double. `nearest` rounds once, to the nearest double. `scaled?` is
the rule of JSON text: the significand is rounded to a double first and then multiplied or divided
by a power of ten, and a number beyond the greatest double is refused.

`int?` and `float?` read a whole text as a number and leave nothing over.
-/

import FieldResolver.Decimal.Binary

namespace FieldResolver.Decimal

/-- Whether a character is one of the ten decimal digits. -/
def isDigit (c : Char) : Bool := decide ('0' ≤ c ∧ c ≤ '9')

/-- The value of a decimal digit. -/
def digitValue (c : Char) : Nat := c.toNat - '0'.toNat

/-- The natural number that a list of digits stands for, after the digits read so far. -/
def natOfDigits (digits : List Char) (sofar : Nat) : Nat :=
  digits.foldl (fun n c => 10 * n + digitValue c) sofar

/-- The double nearest to `significand · 10 ^ exponent`. -/
def nearest (significand : Nat) (exponent : Int) : Float :=
  if significand = 0 then 0.0
  else if 400 < exponent then 1.0 / 0.0
  else if exponent < -(400 + (significand.log2 : Int)) then 0.0
  else Float.ofScientific significand (decide (exponent < 0)) exponent.natAbs

/-- A power of ten as a double. -/
def powerOfTen (exponent : Nat) : Float := Float.ofScientific 1 false exponent

/-- Divides by a power of ten, `10 ^ 308` at a time; zero stays zero. -/
def scaleDown (x : Float) (places : Nat) : Float :=
  if places ≤ 308 then x / powerOfTen places
  else if x == 0.0 then x
  else scaleDown (x / powerOfTen 308) (places - 308)
termination_by places

/-- The significand as a double times a power of ten; nothing if that exceeds every double. -/
def scaled? (significand : Nat) (exponent : Int) : Option Float :=
  let x := Float.ofNat significand
  if exponent < 0 then some (scaleDown x exponent.natAbs)
  else if 308 < exponent then if significand = 0 then some x else none
  else
    let product := x * powerOfTen exponent.toNat
    if isFinite product then some product else none

/-- A sign in front of a number, and what follows it. -/
def splitSign : List Char → Bool × List Char
  | '-' :: rest => (true, rest)
  | '+' :: rest => (false, rest)
  | rest => (false, rest)

/-- A signed 64-bit whole number: a sign and at least one digit. -/
def int? (text : List Char) : Option Int :=
  let (negative, digits) := splitSign text
  if digits.isEmpty || !digits.all isDigit then none
  else
    let size : Int := natOfDigits digits 0
    let value := if negative then -size else size
    if -0x8000000000000000 ≤ value ∧ value < 0x8000000000000000 then some value else none

/-- A natural number below `2 ^ 64`: perhaps a plus sign and at least one digit. -/
def nat? (text : List Char) : Option Nat :=
  let digits := match text with
    | '+' :: rest => rest
    | _ => text
  if digits.isEmpty || !digits.all isDigit then none
  else
    let value := natOfDigits digits 0
    if value < 0x10000000000000000 then some value else none

/-- The exponent of a number: nothing, or a letter, a sign and at least one digit. -/
def exponent? : List Char → Option Int
  | [] => some 0
  | c :: rest =>
    if c = 'e' || c = 'E' then
      let (negative, digits) := splitSign rest
      if digits.isEmpty || !digits.all isDigit then none
      else
        let size : Int := natOfDigits digits 0
        some (if negative then -size else size)
    else none

/-- A double: digits with at most one point among or around them and an exponent, or a name of an
infinity or of what is not a number, in letters of either case. -/
def float? (text : List Char) : Option Float :=
  let (negative, body) := splitSign text
  let sign (x : Float) : Float := if negative then -x else x
  let name := String.ofList (body.map Char.toLower)
  if name = "inf" || name = "infinity" then some (sign (1.0 / 0.0))
  else if name = "nan" then some (sign (0.0 / 0.0))
  else
    let whole := body.takeWhile isDigit
    let rest := body.dropWhile isDigit
    let fraction := match rest with
      | '.' :: more => more.takeWhile isDigit
      | _ => []
    let tail := match rest with
      | '.' :: more => more.dropWhile isDigit
      | _ => rest
    if whole.isEmpty && fraction.isEmpty then none
    else (exponent? tail).map fun exponent =>
      sign (nearest (natOfDigits (whole ++ fraction) 0) (exponent - fraction.length))

end FieldResolver.Decimal

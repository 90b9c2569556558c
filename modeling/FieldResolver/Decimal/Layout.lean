/-
**How digits are laid out.**

A layout says which numbers are written without an exponent and which whole numbers keep a zero
behind the point. The three layouts of this library differ in nothing else: JSON text, text that a
template builds, and plain text.
-/

import FieldResolver.Decimal.Shortest

namespace FieldResolver.Decimal

/-- The decisions of a number format. -/
structure Layout where
  /-- The positions of the point that are written without an exponent. -/
  positional : Int → Bool
  /-- The positions of the point at which a whole number is written with `.0`. -/
  keepsZero : Int → Bool

namespace Layout

/-- JSON text: an exponent outside `10 ^ -5` to `10 ^ 16`, and a zero behind every whole number. -/
def json : Layout where
  positional point := decide (-5 < point ∧ point ≤ 16)
  keepsZero _ := true

/-- Template text: never an exponent, and a zero behind whole numbers below `10 ^ 16`. -/
def template : Layout where
  positional _ := true
  keepsZero point := decide (point ≤ 16)

/-- Plain text: never an exponent and no zero behind a whole number. -/
def plain : Layout where
  positional _ := true
  keepsZero _ := false

/-- Digits without an exponent. -/
def positionalText (layout : Layout) (digits : List Char) (point : Int) : List Char :=
  if point ≤ 0 then '0' :: '.' :: (List.replicate (-point).toNat '0' ++ digits)
  else if digits.length ≤ point.toNat then
    digits ++ List.replicate (point.toNat - digits.length) '0' ++
      (if layout.keepsZero point then ['.', '0'] else [])
  else digits.take point.toNat ++ '.' :: digits.drop point.toNat

/-- Digits with a signed exponent. -/
def scientificText (digits : List Char) (point : Int) : List Char :=
  let exponent := point - 1
  let sign := if exponent < 0 then '-' else '+'
  let leading := match digits with
    | [] => ['0']
    | [d] => [d]
    | d :: rest => d :: '.' :: rest
  leading ++ 'e' :: sign :: natDigits exponent.natAbs

/-- The text of a positive number. -/
def text (layout : Layout) (shape : Digits) : List Char :=
  if layout.positional shape.point then layout.positionalText shape.digits shape.point
  else scientificText shape.digits shape.point

/-- The text of a double; what is not a number and the infinities have names of their own. -/
def chars (layout : Layout) (x : Float) : List Char :=
  match Binary.ofFloat x with
  | .notANumber => "NaN".toList
  | .infinite negative => if negative then "-inf".toList else "inf".toList
  | .finite negative mantissa exponent =>
    let size :=
      if mantissa = 0 then '0' :: (if layout.keepsZero 1 then ['.', '0'] else [])
      else layout.text (shortest mantissa exponent)
    if negative then '-' :: size else size

/-- The text of a double. -/
def render (layout : Layout) (x : Float) : String := String.ofList (layout.chars x)

end Layout

/-- The decimal text of a whole number. -/
def intChars (n : Int) : List Char :=
  if n < 0 then '-' :: natDigits n.natAbs else natDigits n.natAbs

/-- The decimal text of a whole number. -/
def intText (n : Int) : String := String.ofList (intChars n)

end FieldResolver.Decimal

/-
**Random identifiers as text.**

An identifier has 32 hexadecimal digits in five groups. One digit tells the version and the upper
half of another the variant; all others are random.
-/

namespace FieldResolver.Text

/-- The hexadecimal digits of a number from the highest of `count` places down. -/
def hexPlaces (n : Nat) : Nat → List Char
  | 0 => []
  | places + 1 => Nat.digitChar (n / Nat.pow 16 places % 16) :: hexPlaces n places

/-- The identifier that has the digits of a number where its digits are free. -/
def identifierText (random : Nat) : String :=
  let group (shift count : Nat) := hexPlaces (random / Nat.pow 16 shift) count
  String.ofList (group 24 8 ++ '-' :: (group 20 4 ++ '-' :: '4' :: (group 16 3 ++ '-' ::
    Nat.digitChar (8 + random / Nat.pow 16 15 % 4) :: (group 12 3 ++ '-' :: group 0 12))))

end FieldResolver.Text

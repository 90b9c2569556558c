/-
**JSON values.**

Objects keep their fields in insertion order. A number is a whole number or a double: the two are
never equal, as their texts differ (`1` and `1.0`). `Json.Valid` says what every value that was
read from text satisfies: whole numbers in the 64-bit ranges, ordinary doubles and distinct keys.

A text may write a key of an object more than once. As a value the object has the key once: in its
first place and with its last value. `merged` turns what a text writes into the value; on values
without repeated keys it changes nothing. The fields of a record must not be repeated, so records
are read from what a text writes.

Two values are the same (`same`) if they differ at most in the order of the fields of objects;
doubles compare by value.
-/

import FieldResolver.Dict
import FieldResolver.Decimal.Binary

namespace FieldResolver

/-- A JSON number. -/
inductive Json.Number where
  | int (value : Int)
  | float (value : Float)
deriving DecidableEq

/-- A JSON value. -/
inductive Json where
  | null
  | bool (value : Bool)
  | number (value : Json.Number)
  | string (text : String)
  | array (items : List Json)
  | object (fields : List (String × Json))
deriving Inhabited

namespace Json

/-- The least whole number that is written without becoming a double. -/
def minInt : Int := -0x8000000000000000

/-- The greatest signed 64-bit number. -/
def maxInt : Int := 0x7fffffffffffffff

/-- The greatest whole number that is written without becoming a double. -/
def maxNat : Int := 0xffffffffffffffff

/-- A whole number. -/
def int (value : Int) : Json := .number (.int value)

/-- A double; what is not an ordinary number has no JSON form and becomes `null`. -/
def ofFloat (value : Float) : Json :=
  if Decimal.isFinite value then .number (.float value) else .null

namespace Number

/-- A number as a double, to the nearest one. -/
def toFloat : Number → Float
  | .int value => Float.ofInt value
  | .float value => value

/-- A number as a signed 64-bit whole number, if it is written as one. -/
def toInt? : Number → Option Int
  | .int value => if minInt ≤ value ∧ value ≤ maxInt then some value else none
  | .float _ => none

/-- Whether a number can stand in a JSON text. -/
def Valid : Number → Prop
  | .int value => minInt ≤ value ∧ value ≤ maxNat
  | .float value => Decimal.isFinite value = true

end Number

/-- The text of a string value. -/
def string? : Json → Option String
  | .string text => some text
  | _ => none

/-- The fields of an object. -/
def object? : Json → Option (Dict Json)
  | .object fields => some fields
  | _ => none

/-- The items of an array. -/
def array? : Json → Option (List Json)
  | .array items => some items
  | _ => none

/-- The value under a key of an object; nothing for any other value. -/
def field? (value : Json) (key : String) : Option Json :=
  value.object?.bind fun fields => fields.get? key

/-- A natural number below `2 ^ 64`, written without a fraction or an exponent. -/
def nat? : Json → Option Nat
  | .number (.int value) => if 0 ≤ value ∧ value ≤ maxNat then some value.toNat else none
  | _ => none

mutual

/-- Whether a value can stand in a JSON text: numbers in range and distinct keys at every level. -/
def Valid : Json → Prop
  | .number value => value.Valid
  | .array items => ItemsValid items
  | .object fields => (Dict.keys fields).Nodup ∧ FieldsValid fields
  | _ => True

/-- Every item is valid. -/
def ItemsValid : List Json → Prop
  | [] => True
  | item :: rest => item.Valid ∧ ItemsValid rest

/-- Every field's value is valid. -/
def FieldsValid : List (String × Json) → Prop
  | [] => True
  | (_, value) :: rest => value.Valid ∧ FieldsValid rest

end

mutual

/-- The number of arrays and objects on the longest way into a value. -/
def depth : Json → Nat
  | .array items => itemsDepth items + 1
  | .object fields => fieldsDepth fields + 1
  | _ => 0

/-- The depth of the deepest item. -/
def itemsDepth : List Json → Nat
  | [] => 0
  | item :: rest => max item.depth (itemsDepth rest)

/-- The depth of the deepest field. -/
def fieldsDepth : List (String × Json) → Nat
  | [] => 0
  | (_, value) :: rest => max value.depth (fieldsDepth rest)

end

/-! ### Repeated keys -/

mutual

/-- Merges repeated keys at every level. -/
def merged : Json → Json
  | .array items => .array (mergedItems items)
  | .object fields => .object (Dict.ofEntries (mergedFields fields))
  | value => value

/-- Merges repeated keys in items. -/
def mergedItems : List Json → List Json
  | [] => []
  | item :: rest => item.merged :: mergedItems rest

/-- Merges repeated keys in the values of fields. -/
def mergedFields : List (String × Json) → List (String × Json)
  | [] => []
  | (key, value) :: rest => (key, value.merged) :: mergedFields rest

end

/-! ### Equality -/

/-- Whether two numbers are the same. -/
def Number.same : Number → Number → Bool
  | .int a, .int b => a == b
  | .float a, .float b => a == b
  | _, _ => false

mutual

/-- Whether two values are the same. -/
def same : Json → Json → Bool
  | .null, .null => true
  | .bool a, .bool b => a == b
  | .number a, .number b => a.same b
  | .string a, .string b => a == b
  | .array a, .array b => sameItems a b
  | .object a, .object b => a.length == b.length && sameFields a b
  | _, _ => false

/-- Whether two lists of items are the same, place by place. -/
def sameItems : List Json → List Json → Bool
  | [], [] => true
  | a :: as, b :: bs => a.same b && sameItems as bs
  | _, _ => false

/-- Whether every field has the same value in an object. -/
def sameFields : List (String × Json) → Dict Json → Bool
  | [], _ => true
  | (key, value) :: rest, other =>
    (match other.get? key with
      | some found => value.same found
      | none => false) && sameFields rest other

end

/-- Whether a value is the same as one of a list. -/
def isIn (items : List Json) (value : Json) : Bool := items.any fun item => item.same value

end Json

end FieldResolver

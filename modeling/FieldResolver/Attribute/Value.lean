/-
**Attribute values.**

A table stores typed values: an attribute value is an object with one field, whose name is the type
and whose value the content, such as `{"S": "text"}` or `{"N": "1"}`.

* `marshal` gives the attribute value of plain JSON.
* `unmarshal` gives the plain JSON of an attribute value. Sets become arrays, and numbers are read
  from their text: as whole numbers where they are written and fit as such, otherwise as doubles.
* `compare?` orders attribute values: numbers by value, as doubles, and strings by their characters.
  All others can only be the same or not.
-/

import FieldResolver.Decimal.Layout
import FieldResolver.Decimal.Reading
import FieldResolver.Json.Printer

namespace FieldResolver.Attribute

/-! ### Attribute values of plain JSON -/

/-- An attribute value of a type. -/
def tagged (type : String) (content : Json) : Json := .object [(type, content)]

/-- The decimal text of a number. -/
def numberText (number : Json.Number) : String := String.ofList number.chars

mutual

/-- The attribute value of plain JSON. -/
def marshal : Json → Json
  | .null => tagged "NULL" (.bool true)
  | .bool value => tagged "BOOL" (.bool value)
  | .number number => tagged "N" (.string (numberText number))
  | .string text => tagged "S" (.string text)
  | .array items => tagged "L" (.array (marshalItems items))
  | .object fields => tagged "M" (.object (marshalFields fields))

/-- The attribute values of items. -/
def marshalItems : List Json → List Json
  | [] => []
  | item :: rest => marshal item :: marshalItems rest

/-- The attribute values of fields. -/
def marshalFields : List (String × Json) → List (String × Json)
  | [] => []
  | (name, value) :: rest => (name, marshal value) :: marshalFields rest

end

/-! ### Plain JSON of attribute values -/

/-- Why a value is no attribute value. -/
inductive Malformed where
  | value (found : Json)
  | setMember (found : Json)
  | number (text : String)

/-- The wording of an error. -/
def Malformed.message : Malformed → String
  | .value found => "invalid attribute value: " ++ found.render
  | .setMember found => "invalid number set member: " ++ found.render
  | .number text => "invalid number: " ++ text

/-- The number that a text writes. -/
def number (text : String) : Except Malformed Json :=
  match Decimal.int? text.toList with
  | some n => .ok (.int n)
  | none =>
    match Decimal.float? text.toList with
    | some x => if Decimal.isFinite x then .ok (.number (.float x)) else .error (.number text)
    | none => .error (.number text)

/-- A member of a number set. -/
def numberMember : Json → Except Malformed Json
  | .string text => number text
  | other => .error (.setMember other)

mutual

/-- The plain JSON of an attribute value. -/
def unmarshal : Json → Except Malformed Json
  | .object [("S", .string text)] => .ok (.string text)
  | .object [("B", .string text)] => .ok (.string text)
  | .object [("N", .string text)] => number text
  | .object [("BOOL", .bool value)] => .ok (.bool value)
  | .object [("NULL", _)] => .ok .null
  | .object [("L", .array items)] => (unmarshalItems items).map .array
  | .object [("M", .object fields)] => (unmarshalFields fields).map .object
  | .object [("SS", .array items)] => .ok (.array items)
  | .object [("BS", .array items)] => .ok (.array items)
  | .object [("NS", .array items)] => (items.mapM numberMember).map .array
  | other => .error (.value other)

/-- The plain JSON of attribute values. -/
def unmarshalItems : List Json → Except Malformed (List Json)
  | [] => .ok []
  | item :: rest => do
    let value ← unmarshal item
    return value :: (← unmarshalItems rest)

/-- The plain JSON of an item's attribute values. -/
def unmarshalFields : List (String × Json) → Except Malformed (List (String × Json))
  | [] => .ok []
  | (name, field) :: rest => do
    let value ← unmarshal field
    return (name, value) :: (← unmarshalFields rest)

end

/-- The plain JSON of an item. -/
def unmarshalItem (item : Dict Json) : Except Malformed Json := (unmarshalFields item).map .object

/-! ### The order of attribute values -/

/-- The type and the content of a value with one field. -/
def typed? : Json → Option (String × Json)
  | .object [field] => some field
  | _ => none

/-- The double that a number attribute stands for. -/
def float? : Json → Option Float
  | .object [("N", .string text)] => Decimal.float? text.toList
  | _ => none

/-- The size up to which a whole double is written as a whole number. -/
def wholeLimit : Float := 9.0e15

/-- The text of a double in a number attribute. -/
def floatText (x : Float) : String :=
  match Decimal.whole? x with
  | some n => if x.abs < wholeLimit then Decimal.intText n else Decimal.Layout.plain.render x
  | none => Decimal.Layout.plain.render x

/-- The number attribute of a double. -/
def ofFloat (x : Float) : Json := tagged "N" (.string (floatText x))

/-- The order of two attribute values. -/
def compare? (a b : Json) : Option Ordering :=
  match float? a, float? b with
  | some x, some y => Decimal.compareFloats x y
  | _, _ =>
    match a, b with
    | .object [("S", .string x)], .object [("S", .string y)] => some (compare x y)
    | _, _ => if a.same b then some .eq else none

end FieldResolver.Attribute

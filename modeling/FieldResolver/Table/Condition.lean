/-
**Conditions on items.**

A condition is a formula over comparisons and tests of an item's attributes. `ν` is how an attribute
is named and `ο` how an operand is given: in an expression by placeholders, in a condition that is
tested by the attribute's name and by a value.

A comparison fails if an operand is missing; `<>` holds of operands that have no order.
-/

import FieldResolver.Attribute.Value
import FieldResolver.Text.Search

namespace FieldResolver.Table

/-- An item: attribute values by their names. -/
abbrev Item := Dict Json

/-- The comparisons. -/
inductive Relation where
  | eq | ne | lt | le | gt | ge
deriving DecidableEq, Repr

/-- Whether a comparison holds of an order, which may be missing. -/
def Relation.holds : Relation → Option Ordering → Bool
  | .eq, order => order == some .eq
  | .ne, order => order != some .eq
  | .lt, order => order == some .lt
  | .le, order => order == some .lt || order == some .eq
  | .gt, order => order == some .gt
  | .ge, order => order == some .gt || order == some .eq

/-- An operand: an attribute of the item, or a value. -/
inductive Operand where
  | attribute (name : String)
  | value (value : Json)

/-- The value of an operand for an item. -/
def Operand.of? (item : Item) : Operand → Option Json
  | .attribute name => item.get? name
  | .value constant => some constant

/-- A condition. -/
inductive Condition (ν ο : Type) where
  | and (left right : Condition ν ο)
  | or (left right : Condition ν ο)
  | not (inner : Condition ν ο)
  | compare (left : ο) (relation : Relation) (right : ο)
  | between (value low high : ο)
  | present (name : ν)
  | absent (name : ν)
  | beginsWith (target start : ο)
  | contains (target member : ο)

/-- Whether a string attribute starts with another. -/
def startsWith : Json → Json → Bool
  | .object [("S", .string text)], .object [("S", .string start)] =>
    Text.startsWith text.toList start.toList
  | _, _ => false

/-- Whether a type is a set. -/
def isSet (type : String) : Bool := type == "SS" || type == "NS" || type == "BS"

/-- Whether a string attribute contains another, or a set or a list a member. -/
def contains (target member : Json) : Bool :=
  match Attribute.typed? target with
  | some ("S", .string text) =>
    match Attribute.typed? member with
    | some ("S", .string part) => Text.contains text.toList part.toList
    | _ => false
  | some ("L", .array items) => member.isIn items
  | some (type, .array members) =>
    match Attribute.typed? member with
    | some (_, content) => isSet type && content.isIn members
    | none => false
  | _ => false

/-- Whether a relation holds of two operands, which both have to be there. -/
def ofBoth (item : Item) (a b : Operand) (holds : Json → Json → Bool) : Bool :=
  match a.of? item, b.of? item with
  | some x, some y => holds x y
  | _, _ => false

namespace Condition

/-- Whether a condition holds of an item. -/
def holds (item : Item) : Condition String Operand → Bool
  | and left right => left.holds item && right.holds item
  | or left right => left.holds item || right.holds item
  | not inner => !inner.holds item
  | compare left relation right =>
    ofBoth item left right fun x y => relation.holds (Attribute.compare? x y)
  | between value low high =>
    ofBoth item value low fun x lowest =>
      ofBoth item value high fun _ highest =>
        Relation.ge.holds (Attribute.compare? x lowest) &&
          Relation.le.holds (Attribute.compare? x highest)
  | present name => item.contains name
  | absent name => !item.contains name
  | beginsWith target start => ofBoth item target start startsWith
  | contains target member => ofBoth item target member Table.contains

end Condition

end FieldResolver.Table

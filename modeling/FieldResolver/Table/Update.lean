/-
**Updates of items.**

An update sets, removes, adds to and deletes from attributes. The actions of one kind are applied in
the order in which they are written, the kinds in the order of their names here. Every value that is
set or added is computed from the item as it was before the update.

`ν` is how an attribute is named, `ο` how an operand is given and `κ` how a value is given.
-/

import FieldResolver.Table.Condition

namespace FieldResolver.Table

/-- A value to set. -/
inductive SetValue (ν ο : Type) where
  | operand (operand : ο)
  /-- An attribute's value, or an operand where the attribute is missing. -/
  | ifNotExists (name : ν) (fallback : ο)
  | listAppend (first second : ο)
  | plus (left right : SetValue ν ο)
  | minus (left right : SetValue ν ο)

/-- An update: its actions of each kind. -/
structure Update (ν ο κ : Type) where
  set : List (ν × SetValue ν ο) := []
  remove : List ν := []
  add : List (ν × κ) := []
  delete : List (ν × κ) := []

/-- Why an update cannot be applied. -/
inductive UpdateError where
  | missingAttribute (name : String)
  | listOperands
  | numberOperands
  | addOperands
  | addType
  | deleteType
deriving DecidableEq

/-- The wording of an error. -/
def UpdateError.message : UpdateError → String
  | .missingAttribute name =>
    "The provided expression refers to an attribute that does not exist in the item: " ++ name
  | .listOperands => "list_append requires two list operands"
  | .numberOperands => "arithmetic requires number operands"
  | .addOperands => "ADD requires matching operand types"
  | .addType => "ADD supports only numbers and sets"
  | .deleteType => "DELETE supports only sets"

/-- The value of an operand for an item, which must have the attribute. -/
def Operand.of (item : Item) : Operand → Except UpdateError Json
  | .attribute name =>
    match item.get? name with
    | some found => .ok found
    | none => .error (.missingAttribute name)
  | .value constant => .ok constant

/-- Two list attributes joined. -/
def joinLists : Json → Json → Except UpdateError Json
  | .object [("L", .array xs)], .object [("L", .array ys)] =>
    .ok (Attribute.tagged "L" (.array (xs ++ ys)))
  | _, _ => .error .listOperands

/-- Two number attributes combined. -/
def arithmetic (combine : Float → Float → Float) (a b : Json) : Except UpdateError Json :=
  match Attribute.float? a, Attribute.float? b with
  | some x, some y => .ok (Attribute.ofFloat (combine x y))
  | _, _ => .error .numberOperands

/-- The value that a right-hand side has for an item. -/
def SetValue.of (item : Item) : SetValue String Operand → Except UpdateError Json
  | .operand single => single.of item
  | .ifNotExists name fallback =>
    match item.get? name with
    | some value => .ok value
    | none => fallback.of item
  | .listAppend first second => do
    let first ← first.of item
    joinLists first (← second.of item)
  | .plus left right => do
    let left ← left.of item
    arithmetic (· + ·) left (← right.of item)
  | .minus left right => do
    let left ← left.of item
    arithmetic (· - ·) left (← right.of item)

/-- The members of a set followed by the new ones among others. -/
def joinMembers (members extra : List Json) : List Json :=
  extra.foldl (fun sofar member => if member.isIn sofar then sofar else sofar ++ [member]) members

/-- What an attribute becomes when a value is added to it. -/
def added (before : Option Json) (value : Json) : Except UpdateError Json :=
  match before with
  | none => .ok value
  | some existing =>
    match Attribute.typed? value with
    | some ("N", _) =>
      match Attribute.float? existing, Attribute.float? value with
      | some x, some y => .ok (Attribute.ofFloat (x + y))
      | _, _ => .error .addOperands
    | some (type, .array extra) =>
      if isSet type then
        match Attribute.typed? existing with
        | some (found, .array members) =>
          if found = type then .ok (Attribute.tagged type (.array (joinMembers members extra)))
          else .error .addOperands
        | _ => .error .addOperands
      else .error .addType
    | _ => .error .addType

/-- What an attribute becomes when members are deleted from it; none if no member is left. -/
def deleted (existing value : Json) : Except UpdateError (Option Json) :=
  match Attribute.typed? existing, Attribute.typed? value with
  | some (type, .array members), some (other, .array removed) =>
    if type = other then
      let kept := members.filter fun member => !member.isIn removed
      .ok (if kept.isEmpty then none else some (Attribute.tagged type (.array kept)))
    else .error .deleteType
  | _, _ => .error .deleteType

/-- Adds to an attribute; the sum is computed from the item before the update. -/
def addTo (before item : Item) (action : String × Json) : Except UpdateError Item := do
  return item.insert action.1 (← added (before.get? action.1) action.2)

/-- Deletes members from an attribute; one that is missing stays so. -/
def deleteFrom (item : Item) (action : String × Json) : Except UpdateError Item :=
  match item.get? action.1 with
  | none => .ok item
  | some existing => do
    match ← deleted existing action.2 with
    | some kept => return item.insert action.1 kept
    | none => return item.swapErase action.1

/-- Applies an update to an item. -/
def Update.apply (update : Update String Operand Json) (before : Item) :
    Except UpdateError Item := do
  let item ← update.set.foldlM
    (fun (item : Item) action => do return item.insert action.1 (← action.2.of before)) before
  let item := update.remove.foldl Dict.swapErase item
  let item ← update.add.foldlM (addTo before) item
  update.delete.foldlM deleteFrom item

end FieldResolver.Table

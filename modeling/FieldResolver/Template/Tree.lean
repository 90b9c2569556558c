/-
**Values written out.**

A container may contain itself, so writing a value out stops where a container occurs inside itself
and leaves a placeholder there. `Heap.unfold` does that once and gives a finite tree; the JSON form
and the text of a value are functions of the tree.

A way down meets every container at most once before it meets one again, so a budget of one more
than the number of containers never runs out.
-/

import FieldResolver.Json.Printer
import FieldResolver.Template.Heap

namespace FieldResolver.Template

/-- A value written out. -/
inductive Tree where
  /-- A value that is no container. -/
  | leaf (value : Value)
  | list (items : List Tree)
  | map (entries : List (String × Tree))
  /-- A container that stands inside itself. -/
  | again (address : Address)

namespace Heap

/-- Writes a value out through at most `budget` levels; `ancestors` are the containers that it
stands in. -/
def unfoldWithin (heap : Heap) : Nat → List Address → Value → Tree
  | 0, _, .list place => .again (.list place)
  | 0, _, .map place => .again (.map place)
  | budget + 1, ancestors, .list place =>
    if ancestors.contains (.list place) then .again (.list place)
    else .list ((heap.list place).map (unfoldWithin heap budget (.list place :: ancestors)))
  | budget + 1, ancestors, .map place =>
    if ancestors.contains (.map place) then .again (.map place)
    else
      .map ((heap.map place).map fun entry =>
        (entry.1, unfoldWithin heap budget (.map place :: ancestors) entry.2))
  | _, _, value => .leaf value

/-- Writes a value out. -/
def unfold (heap : Heap) (value : Value) : Tree := heap.unfoldWithin (heap.size + 1) [] value

end Heap

/-- What stands for a container inside itself. -/
def Address.placeholder : Address → String
  | .list _ => "(this Collection)"
  | .map _ => "(this Map)"

namespace Tree

/-- The JSON form of a value that is no container; what has none becomes `null`. -/
def leafJson : Value → Json
  | .bool value => .bool value
  | .int value => .int value
  | .float value => .ofFloat value
  | .string text => .string text
  | _ => .null

/-- The text of a value that is no container. -/
def leafText : Value → List Char
  | .bool value => if value then "true".toList else "false".toList
  | .int value => Decimal.intChars value
  | .float value => Decimal.Layout.template.chars value
  | .string text => text.toList
  | .functions group => group.path.toList
  | _ => "null".toList

mutual

/-- The JSON form of a tree. -/
def json : Tree → Json
  | .leaf value => leafJson value
  | .list items => .array (itemsJson items)
  | .map entries => .object (entriesJson entries)
  | .again address => .string address.placeholder

/-- The JSON forms of items. -/
def itemsJson : List Tree → List Json
  | [] => []
  | item :: rest => item.json :: itemsJson rest

/-- The JSON forms of entries. -/
def entriesJson : List (String × Tree) → List (String × Json)
  | [] => []
  | (key, value) :: rest => (key, value.json) :: entriesJson rest

end

/-- Pieces of text with a comma and a blank between them. -/
def listed : List (List Char) → List Char
  | [] => []
  | [piece] => piece
  | piece :: rest => piece ++ ',' :: ' ' :: listed rest

mutual

/-- The text of a tree: lists in brackets, maps in braces, keys and values joined by `=`. -/
def text : Tree → List Char
  | .leaf value => leafText value
  | .list items => '[' :: (listed (itemTexts items) ++ [']'])
  | .map entries => '\x7b' :: (listed (entryTexts entries) ++ ['\x7d'])
  | .again address => address.placeholder.toList

/-- The texts of items. -/
def itemTexts : List Tree → List (List Char)
  | [] => []
  | item :: rest => item.text :: itemTexts rest

/-- The texts of entries. -/
def entryTexts : List (String × Tree) → List (List Char)
  | [] => []
  | (key, value) :: rest => (key.toList ++ '=' :: value.text) :: entryTexts rest

end

end Tree

namespace Heap

/-- The JSON form of a value. -/
def json (heap : Heap) (value : Value) : Json := (heap.unfold value).json

/-- The text of a value, in which nothing is `null`. -/
def text (heap : Heap) (value : Value) : String := String.ofList (heap.unfold value).text

/-- The text that a value contributes to the output: nothing contributes no text. -/
def rendered (heap : Heap) (value : Value) : String :=
  if value.isNothing then "" else heap.text value

end Heap

end FieldResolver.Template

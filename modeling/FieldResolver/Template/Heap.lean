/-
**Lists and maps in memory.**

A heap holds the contents of every list and map by its place. Two values with one address are one
container: what is written through one is read through the other.

* `list_allocList`, `map_allocMap`: a new container holds what it was made with;
* `map_setMap_self`, `map_setMap_of_ne`: writing one container leaves the others alone.
-/

import FieldResolver.Json.Basic
import FieldResolver.Template.Value

namespace FieldResolver.Template

/-- The contents of the lists and the maps, by their places. -/
structure Heap where
  lists : Array (List Value) := #[]
  maps : Array (Dict Value) := #[]

namespace Heap

/-- The number of containers. -/
def size (heap : Heap) : Nat := heap.lists.size + heap.maps.size

/-- The items of a list. -/
def list (heap : Heap) (place : Nat) : List Value := heap.lists.getD place []

/-- The entries of a map. -/
def map (heap : Heap) (place : Nat) : Dict Value := heap.maps.getD place []

/-- Replaces the items of a list. -/
def setList (heap : Heap) (place : Nat) (items : List Value) : Heap :=
  { heap with lists := heap.lists.setIfInBounds place items }

/-- Replaces the entries of a map. -/
def setMap (heap : Heap) (place : Nat) (entries : Dict Value) : Heap :=
  { heap with maps := heap.maps.setIfInBounds place entries }

/-- Makes a list. -/
def allocList (heap : Heap) (items : List Value) : Value × Heap :=
  (.list heap.lists.size, { heap with lists := heap.lists.push items })

/-- Makes a map. -/
def allocMap (heap : Heap) (entries : Dict Value) : Value × Heap :=
  (.map heap.maps.size, { heap with maps := heap.maps.push entries })

/-- A new list holds its items. -/
theorem list_allocList (heap : Heap) (items : List Value) :
    (heap.allocList items).2.list heap.lists.size = items := by
  simp [allocList, list]

/-- A new map holds its entries. -/
theorem map_allocMap (heap : Heap) (entries : Dict Value) :
    (heap.allocMap entries).2.map heap.maps.size = entries := by
  simp [allocMap, map]

/-- A map that is written holds what was written. -/
theorem map_setMap_self (heap : Heap) {place : Nat} (entries : Dict Value)
    (known : place < heap.maps.size) : (heap.setMap place entries).map place = entries := by
  simp [setMap, map, known]

/-- Writing one map leaves the others alone. -/
theorem map_setMap_of_ne (heap : Heap) {place other : Nat} (entries : Dict Value)
    (different : place ≠ other) : (heap.setMap place entries).map other = heap.map other := by
  simp [setMap, map, different]

mutual

/-- Puts a JSON value on the heap; whole numbers beyond the range of templates become doubles. -/
def ofJson (heap : Heap) : Json → Value × Heap
  | .null => (.null, heap)
  | .bool value => (.bool value, heap)
  | .number number =>
    match number.toInt? with
    | some value => (.int value, heap)
    | none => (.float number.toFloat, heap)
  | .string text => (.string text, heap)
  | .array items =>
    let (values, heap) := ofItems heap items
    heap.allocList values
  | .object fields =>
    let (entries, heap) := ofFields heap fields
    heap.allocMap entries

/-- Puts items on the heap in order. -/
def ofItems (heap : Heap) : List Json → List Value × Heap
  | [] => ([], heap)
  | item :: rest =>
    let (value, heap) := ofJson heap item
    let (values, heap) := ofItems heap rest
    (value :: values, heap)

/-- Puts the fields of an object on the heap in order. -/
def ofFields (heap : Heap) : List (String × Json) → Dict Value × Heap
  | [] => ([], heap)
  | (key, field) :: rest =>
    let (value, heap) := ofJson heap field
    let (entries, heap) := ofFields heap rest
    ((key, value) :: entries, heap)

end

end Heap

end FieldResolver.Template

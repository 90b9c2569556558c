/-
**JSON values on the heap and back.**

A JSON value that is put on a heap takes new places, its parts before the whole. As long as these
places keep their contents, the value is written out as what it was, with the numbers that templates
can hold.

* `Heap.Extends`: whether a heap still holds what another one holds;
* `Heap.ofJson_extends`: putting a value on a heap leaves what is there as it is;
* `Heap.json_ofJson`: a value that was put on the heap, written out at any later time;
* `Heap.get?_ofFields`, `Heap.keys_ofFields`: where the fields of an object are;
* `Heap.ofJson_distinct`: a value without repeated keys brings maps with distinct keys.
-/

import Mathlib.Order.Nat
import FieldResolver.Proofs.Json.Narrowed
import FieldResolver.Template.Tree

namespace FieldResolver.Template

open Json (narrowedItems narrowedFields)

namespace Heap

/-- Whether a container is on a heap. -/
def Holds (heap : Heap) : Address → Prop
  | .list place => place < heap.lists.size
  | .map place => place < heap.maps.size

/-- There is nothing behind the last map. -/
theorem map_of_size_le {heap : Heap} {place : Nat} (beyond : heap.maps.size ≤ place) :
    heap.map place = [] := by
  simp [map, beyond]

/-- Whether a heap still holds what another one holds, and perhaps more. -/
structure Extends (before after : Heap) : Prop where
  lists_le : before.lists.size ≤ after.lists.size
  maps_le : before.maps.size ≤ after.maps.size
  list_eq : ∀ place < before.lists.size, after.list place = before.list place
  map_eq : ∀ place < before.maps.size, after.map place = before.map place

section

variable {before middle after : Heap}

theorem Extends.refl (heap : Heap) : heap.Extends heap where
  lists_le := le_rfl
  maps_le := le_rfl
  list_eq _ _ := rfl
  map_eq _ _ := rfl

theorem Extends.trans (first : before.Extends middle) (second : middle.Extends after) :
    before.Extends after where
  lists_le := first.lists_le.trans second.lists_le
  maps_le := first.maps_le.trans second.maps_le
  list_eq place known :=
    (second.list_eq place (known.trans_le first.lists_le)).trans (first.list_eq place known)
  map_eq place known :=
    (second.map_eq place (known.trans_le first.maps_le)).trans (first.map_eq place known)

theorem Extends.holds (more : before.Extends after) {address : Address}
    (known : before.Holds address) : after.Holds address := by
  cases address with
  | list place => exact Nat.lt_of_lt_of_le known more.lists_le
  | map place => exact Nat.lt_of_lt_of_le known more.maps_le

theorem Extends.size_le (more : before.Extends after) : before.size ≤ after.size :=
  Nat.add_le_add more.lists_le more.maps_le

/-- What is found in a map that is on the heap is found there later. -/
theorem Extends.get? (more : before.Extends after) {place : Nat} {key : String} {value : Value}
    (found : (before.map place).get? key = some value) :
    (after.map place).get? key = some value := by
  by_cases known : place < before.maps.size
  · rwa [more.map_eq place known]
  · rw [map_of_size_le (Nat.le_of_not_lt known)] at found
    cases found

/-- A new list leaves what is there as it is. -/
theorem extends_allocList (heap : Heap) (items : List Value) :
    heap.Extends (heap.allocList items).2 where
  lists_le := by simp [allocList]
  maps_le := le_rfl
  list_eq place known := by
    have other : place ≠ heap.lists.size := known.ne
    simp [allocList, list, Array.getElem?_push, other]
  map_eq _ _ := rfl

/-- A new map leaves what is there as it is. -/
theorem extends_allocMap (heap : Heap) (entries : Dict Value) :
    heap.Extends (heap.allocMap entries).2 where
  lists_le := le_rfl
  maps_le := by simp [allocMap]
  list_eq _ _ := rfl
  map_eq place known := by
    have other : place ≠ heap.maps.size := known.ne
    simp [allocMap, map, Array.getElem?_push, other]

/-- Writing a map leaves a heap that did not hold it as it is. -/
theorem Extends.setMap (more : before.Extends after) {place : Nat} (entries : Dict Value)
    (unknown : ¬ before.Holds (.map place)) : before.Extends (after.setMap place entries) where
  lists_le := more.lists_le
  maps_le := by simpa [Heap.setMap] using more.maps_le
  list_eq := more.list_eq
  map_eq other known := by
    have different : place ≠ other := by
      rintro rfl
      exact unknown known
    rw [map_setMap_of_ne _ _ different]
    exact more.map_eq other known

end

mutual

/-- Putting a value on a heap leaves what is there as it is. -/
theorem ofJson_extends : (heap : Heap) → (value : Json) → heap.Extends (heap.ofJson value).2
  | heap, .null | heap, .bool _ | heap, .string _ => .refl heap
  | heap, .number number => by
    unfold ofJson
    split <;> exact .refl heap
  | heap, .array items => (ofItems_extends heap items).trans (extends_allocList _ _)
  | heap, .object fields => (ofFields_extends heap fields).trans (extends_allocMap _ _)

theorem ofItems_extends : (heap : Heap) → (items : List Json) →
    heap.Extends (heap.ofItems items).2
  | heap, [] => .refl heap
  | heap, item :: rest => (ofJson_extends heap item).trans (ofItems_extends _ rest)

theorem ofFields_extends : (heap : Heap) → (fields : List (String × Json)) →
    heap.Extends (heap.ofFields fields).2
  | heap, [] => .refl heap
  | heap, (_, field) :: rest => (ofJson_extends heap field).trans (ofFields_extends _ rest)

end

section

variable {later : Heap} {budget : Nat} {ancestors : List Address}

theorem unfoldWithin_leaf {value : Value} (scalar : value.address? = none) :
    later.unfoldWithin budget ancestors value = .leaf value := by
  cases value with
  | list place | map place => cases scalar
  | _ => cases budget <;> rfl

/-- A list that is no part of itself is written out item by item. -/
theorem unfoldWithin_list {place : Nat} (outside : .list place ∉ ancestors) :
    later.unfoldWithin (budget + 1) ancestors (.list place) =
      .list ((later.list place).map (later.unfoldWithin budget (.list place :: ancestors))) := by
  rw [unfoldWithin, if_neg]
  simpa using outside

/-- A map that is no part of itself is written out entry by entry. -/
theorem unfoldWithin_map {place : Nat} (outside : .map place ∉ ancestors) :
    later.unfoldWithin (budget + 1) ancestors (.map place) =
      .map ((later.map place).mapValues
        (later.unfoldWithin budget (.map place :: ancestors))) := by
  rw [unfoldWithin, if_neg]
  · rfl
  · simpa using outside

mutual

/-- A value that was put on the heap is written out as templates see it: none of its containers is
among the ancestors, because parts take their places before the whole. -/
theorem json_unfoldWithin : (heap : Heap) → (value : Json) → {budget : Nat} →
    {ancestors : List Address} → (heap.ofJson value).2.Extends later →
    (heap.ofJson value).2.size ≤ budget →
    (∀ address ∈ ancestors, ¬ (heap.ofJson value).2.Holds address) →
      (later.unfoldWithin budget ancestors (heap.ofJson value).1).json = value.narrowed
  | heap, .null, _, _, _, _, _ | heap, .bool _, _, _, _, _, _ | heap, .string _, _, _, _, _, _ => by
    rw [unfoldWithin_leaf] <;> rfl
  | heap, .number number, _, _, _, _, _ => by
    unfold ofJson Json.narrowed Json.Number.narrowed
    cases number.toInt? <;> exact congrArg Tree.json (unfoldWithin_leaf rfl)
  | heap, .array items, budget, ancestors, more, room, outside => by
    let inner := (heap.ofItems items).2
    have grown : inner.Extends (heap.ofJson (.array items)).2 := extends_allocList _ _
    have size : (heap.ofJson (.array items)).2.size = inner.size + 1 := by
      show (inner.lists.push _).size + inner.maps.size = inner.lists.size + inner.maps.size + 1
      rw [Array.size_push]
      omega
    obtain ⟨below, rfl⟩ : ∃ below, budget = below + 1 := ⟨budget - 1, by omega⟩
    have held : (heap.ofJson (.array items)).2.Holds (.list inner.lists.size) := by
      show inner.lists.size < (inner.lists.push _).size
      simp
    have stored : later.list inner.lists.size = (heap.ofItems items).1 :=
      (more.list_eq _ held).trans (list_allocList inner _)
    show (later.unfoldWithin (below + 1) ancestors (.list inner.lists.size)).json = _
    rw [unfoldWithin_list fun member => outside _ member held, stored, Json.narrowed]
    refine congrArg Json.array (itemsJson_unfoldWithin heap items (grown.trans more)
      (Nat.le_of_succ_le_succ (size.symm.le.trans room)) ?_)
    refine List.forall_mem_cons.mpr ⟨Nat.lt_irrefl _, fun address member known => ?_⟩
    exact outside address member (grown.holds known)
  | heap, .object fields, budget, ancestors, more, room, outside => by
    let inner := (heap.ofFields fields).2
    have grown : inner.Extends (heap.ofJson (.object fields)).2 := extends_allocMap _ _
    have size : (heap.ofJson (.object fields)).2.size = inner.size + 1 := by
      show inner.lists.size + (inner.maps.push _).size = inner.lists.size + inner.maps.size + 1
      rw [Array.size_push]
      omega
    obtain ⟨below, rfl⟩ : ∃ below, budget = below + 1 := ⟨budget - 1, by omega⟩
    have held : (heap.ofJson (.object fields)).2.Holds (.map inner.maps.size) := by
      show inner.maps.size < (inner.maps.push _).size
      simp
    have stored : later.map inner.maps.size = (heap.ofFields fields).1 :=
      (more.map_eq _ held).trans (map_allocMap inner _)
    show (later.unfoldWithin (below + 1) ancestors (.map inner.maps.size)).json = _
    rw [unfoldWithin_map fun member => outside _ member held, stored, Json.narrowed]
    refine congrArg Json.object
      (entriesJson_unfoldWithin heap fields (grown.trans more)
      (Nat.le_of_succ_le_succ (size.symm.le.trans room)) ?_)
    refine List.forall_mem_cons.mpr ⟨Nat.lt_irrefl _, fun address member known => ?_⟩
    exact outside address member (grown.holds known)

theorem itemsJson_unfoldWithin : (heap : Heap) → (items : List Json) → {budget : Nat} →
    {ancestors : List Address} → (heap.ofItems items).2.Extends later →
    (heap.ofItems items).2.size ≤ budget →
    (∀ address ∈ ancestors, ¬ (heap.ofItems items).2.Holds address) →
      Tree.itemsJson ((heap.ofItems items).1.map (later.unfoldWithin budget ancestors)) =
        narrowedItems items
  | _, [], _, _, _, _, _ => rfl
  | heap, item :: rest, _, _, more, room, outside => by
    have grown := ofItems_extends (heap.ofJson item).2 rest
    have first := json_unfoldWithin heap item (grown.trans more) (grown.size_le.trans room)
      fun address member known => outside address member (grown.holds known)
    have others := itemsJson_unfoldWithin (heap.ofJson item).2 rest more room outside
    exact congrArg₂ List.cons first others

theorem entriesJson_unfoldWithin : (heap : Heap) → (fields : List (String × Json)) →
    {budget : Nat} → {ancestors : List Address} → (heap.ofFields fields).2.Extends later →
    (heap.ofFields fields).2.size ≤ budget →
    (∀ address ∈ ancestors, ¬ (heap.ofFields fields).2.Holds address) →
      Tree.entriesJson
          ((heap.ofFields fields).1.mapValues (later.unfoldWithin budget ancestors)) =
        narrowedFields fields
  | _, [], _, _, _, _, _ => rfl
  | heap, (key, field) :: rest, _, _, more, room, outside => by
    have grown := ofFields_extends (heap.ofJson field).2 rest
    have first := json_unfoldWithin heap field (grown.trans more) (grown.size_le.trans room)
      fun address member known => outside address member (grown.holds known)
    have others := entriesJson_unfoldWithin (heap.ofJson field).2 rest more room outside
    exact congrArg₂ List.cons (congrArg (Prod.mk key) first) others

end

/-- **A value that was put on the heap is written out as templates see it**, as long as the heap
still holds it. -/
theorem json_ofJson (heap : Heap) (value : Json) (more : (heap.ofJson value).2.Extends later) :
    later.json (heap.ofJson value).1 = value.narrowed :=
  json_unfoldWithin heap value more (more.size_le.trans (Nat.le_succ _))
    fun _ member => absurd member List.not_mem_nil

end

/-- The value of a field was put on some heap on the way to the whole object. -/
theorem get?_ofFields (heap : Heap) {fields : Dict Json} {key : String} {field : Json}
    (found : fields.get? key = some field) :
    ∃ before : Heap, (heap.ofFields fields).1.get? key = some (before.ofJson field).1 ∧
      (before.ofJson field).2.Extends (heap.ofFields fields).2 := by
  induction fields generalizing heap with
  | nil => cases found
  | cons entry rest ih =>
    obtain ⟨name, value⟩ := entry
    rw [Dict.get?_cons] at found
    by_cases same : name = key
    · rw [if_pos same] at found
      cases found
      refine ⟨heap, ?_, ofFields_extends _ rest⟩
      rw [ofFields, Dict.get?_cons, if_pos same]
    · rw [if_neg same] at found
      obtain ⟨before, read, more⟩ := ih (heap.ofJson value).2 found
      refine ⟨before, ?_, more⟩
      rw [ofFields, Dict.get?_cons, if_neg same]
      exact read

/-- Objects keep their keys on the heap. -/
theorem keys_ofFields (heap : Heap) (fields : List (String × Json)) :
    (ofFields heap fields).1.keys = Dict.keys fields := by
  induction fields generalizing heap with
  | nil => rfl
  | cons field rest ih => exact congrArg (List.cons field.1) (ih _)

/-! ### Maps with distinct keys -/

/-- Whether the maps from a place on have distinct keys. -/
def DistinctFrom (heap : Heap) (first : Nat) : Prop :=
  ∀ place, first ≤ place → (heap.map place).keys.Nodup

/-- New maps with distinct keys behind such maps. -/
theorem DistinctFrom.behind {before after : Heap} {first : Nat} (lower : before.DistinctFrom first)
    (more : before.Extends after) (upper : after.DistinctFrom before.maps.size) :
    after.DistinctFrom first := by
  intro place new
  rcases Nat.lt_or_ge place before.maps.size with known | beyond
  · rw [more.map_eq place known]
    exact lower place new
  · exact upper place beyond

theorem distinctFrom_size (heap : Heap) : heap.DistinctFrom heap.maps.size := by
  intro place beyond
  rw [map_of_size_le beyond]
  exact List.nodup_nil

theorem DistinctFrom.allocMap {heap : Heap} {first : Nat} (lower : heap.DistinctFrom first)
    {entries : Dict Value} (distinct : entries.keys.Nodup) :
    (heap.allocMap entries).2.DistinctFrom first := by
  refine lower.behind (extends_allocMap heap entries) fun place beyond => ?_
  rcases Nat.eq_or_lt_of_le beyond with rfl | further
  · rw [map_allocMap]
    exact distinct
  · rw [map_of_size_le (by simpa [Heap.allocMap] using Nat.succ_le_of_lt further)]
    exact List.nodup_nil

mutual

/-- **A value without repeated keys brings maps with distinct keys.** -/
theorem ofJson_distinct : (heap : Heap) → {value : Json} → value.merged = value →
    (heap.ofJson value).2.DistinctFrom heap.maps.size
  | heap, .null, _ | heap, .bool _, _ | heap, .string _, _ => heap.distinctFrom_size
  | heap, .number number, _ => by
    unfold ofJson
    split <;> exact heap.distinctFrom_size
  | heap, .array items, once => ofItems_distinct heap (Json.merged_array_eq_iff.mp once)
  | heap, .object fields, once => by
    obtain ⟨distinct, each⟩ := Json.merged_object_eq_iff.mp once
    exact (ofFields_distinct heap each).allocMap ((keys_ofFields heap fields).symm ▸ distinct)

theorem ofItems_distinct : (heap : Heap) → {items : List Json} →
    (∀ item ∈ items, item.merged = item) → (heap.ofItems items).2.DistinctFrom heap.maps.size
  | heap, [], _ => heap.distinctFrom_size
  | heap, _ :: _, once => by
    obtain ⟨first, others⟩ := List.forall_mem_cons.mp once
    exact (ofJson_distinct heap first).behind (ofItems_extends _ _) (ofItems_distinct _ others)

theorem ofFields_distinct : (heap : Heap) → {fields : List (String × Json)} →
    (∀ field ∈ fields, field.2.merged = field.2) →
      (heap.ofFields fields).2.DistinctFrom heap.maps.size
  | heap, [], _ => heap.distinctFrom_size
  | heap, (_, _) :: _, once => by
    obtain ⟨first, others⟩ := List.forall_mem_cons.mp once
    exact (ofJson_distinct heap first).behind (ofFields_extends _ _) (ofFields_distinct _ others)

end

end Heap

end FieldResolver.Template

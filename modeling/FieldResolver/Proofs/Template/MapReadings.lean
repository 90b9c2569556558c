/-
**What templates read of a map.**

Five ways to write a map and eight ways to read it find its entries by the texts of keys. However a
map came about and was written, all of them agree on one list of entries, in the order in which the
keys came in: a key reads back the value last written under its text, and every listing has the same
keys in the same order.

* `text_scalar`: the text of a key that is no container does not change with the heap;
* `json_map`, `entryMaps_ok`: how a map is listed as JSON and as a set of entries;
* `Shows`: what the readings of a map give, as a journal says it;
* **`Course.insertion_ordered`**: this is what they give at any time, and any change is made and
  goes into the journal.
-/

import FieldResolver.Proofs.Template.Loops
import FieldResolver.Proofs.Template.MapCourses
import FieldResolver.Proofs.Template.Unfolding

namespace FieldResolver.Template

open Run

/-! ### Texts and listings -/

/-- The text of what is no container is the same on every heap. -/
theorem text_scalar {value : Value} (scalar : value.address? = none) (heap other : Heap) :
    heap.text value = other.text value := by
  rw [Heap.text, Heap.unfold, Heap.unfoldWithin_leaf scalar, Heap.text, Heap.unfold,
    Heap.unfoldWithin_leaf scalar]

namespace Heap

variable {heap : Heap} {place : Nat}

theorem entriesJson_mapValues (shown : Value → Tree) (entries : Dict Value) :
    Tree.entriesJson (entries.mapValues shown) =
      entries.mapValues fun value => (shown value).json := by
  induction entries with
  | nil => rfl
  | cons entry rest ih => exact congrArg (List.cons _) ih

/-- The JSON form of a map has its entries in order. -/
theorem json_map (known : place < heap.maps.size) :
    heap.json (.map place) =
      .object ((heap.map place).mapValues fun value => (heap.written [.map place] value).json) := by
  have room : heap.room [.map place] < heap.size := by
    rw [← heap.room_nil]
    exact unmet_cons_lt (mem_addresses.mpr known) List.not_mem_nil
  have inside : heap.unfoldWithin heap.size [.map place] = heap.written [.map place] :=
    funext fun value => unfoldWithin_eq_written room
  rw [json, unfold, unfoldWithin_map List.not_mem_nil, inside, Tree.json, entriesJson_mapValues]

/-- Whether a value is a map that stands for an entry. -/
def IsEntry (heap : Heap) (value : Value) (entry : String × Value) : Prop :=
  ∃ place < heap.maps.size, value = .map place ∧
    heap.map place = [("key", .string entry.1), ("value", entry.2)]

theorem IsEntry.extends {later : Heap} {value : Value} {entry : String × Value}
    (stands : heap.IsEntry value entry) (more : heap.Extends later) : later.IsEntry value entry := by
  obtain ⟨place, known, same, stored⟩ := stands
  exact ⟨place, known.trans_le more.maps_le, same, (more.map_eq place known).trans stored⟩

end Heap

/-- A map of each entry is made, in order. -/
theorem entryMaps_ok (entries : Dict Value) (state : State) :
    ∃ values made, entryMaps entries state = .ok values made ∧ state.heap.Extends made.heap ∧
      List.Forall₂ made.heap.IsEntry values entries := by
  induction entries generalizing state with
  | nil => exact ⟨[], state, rfl, .refl _, .nil⟩
  | cons entry rest ih =>
    obtain ⟨key, value⟩ := entry
    let first : Dict Value := [("key", .string key), ("value", value)]
    let middle : State := { state with heap := (state.heap.allocMap first).2 }
    obtain ⟨values, made, done, more, stand⟩ := ih middle
    have here : middle.heap.IsEntry (.map state.heap.maps.size) (key, value) :=
      ⟨state.heap.maps.size, by simp [middle, Heap.allocMap], rfl, Heap.map_allocMap _ _⟩
    refine ⟨.map state.heap.maps.size :: values, made, ?_,
      (Heap.extends_allocMap _ _).trans more, .cons (here.extends more) stand⟩
    show (newMap first >>= fun value => entryMaps rest >>= fun values =>
      pure (value :: values)) state = _
    rw [bind_of_ok (show newMap first state = .ok (.map state.heap.maps.size) middle from rfl),
      bind_of_ok done]
    rfl

/-! ### Readings -/

/-- Whether a step makes a list of some items and otherwise leaves the heap as it is. -/
def Lists (step : Run Value) (state : State) (items : Heap → List Value → Prop) : Prop :=
  ∃ place made, step state = .ok (.list place) made ∧ state.heap.Extends made.heap ∧
    items made.heap (made.heap.list place)

theorem lists_newList (values : List Value) (state : State) :
    Lists (newList values) state fun _ items => items = values :=
  ⟨state.heap.lists.size, { state with heap := (state.heap.allocList values).2 }, rfl,
    Heap.extends_allocList _ _, Heap.list_allocList _ _⟩

/-- What the readings of a map give, as a journal says it. -/
structure Shows (environment : Environment) (place : Nat) (journal : Journal Value)
    (state : State) : Prop where
  get : ∀ key : Value, key.isNothing = false →
    callMethod (.map place) "get" [key] state =
      .ok ((journal.last? (state.heap.text key)).getD .null) state
  containsKey : ∀ key : Value, key.isNothing = false →
    callMethod (.map place) "containsKey" [key] state =
      .ok (.bool (journal.last? (state.heap.text key)).isSome) state
  element : ∀ key : Value, key.isNothing = false →
    element state.heap (.map place) key =
      .ok ((journal.last? (state.heap.text key)).getD .undefined)
  property : ∀ name,
    property state.heap name (.map place) = (journal.last? name).getD .undefined
  size : callMethod (.map place) "size" [] state = .ok (.int journal.keys.length) state
  keySet : Lists (callMethod (.map place) "keySet" []) state fun _ items =>
    items = journal.keys.map .string
  values : Lists (callMethod (.map place) "values" []) state fun _ items =>
    items = journal.entries.values
  entrySet : Lists (callMethod (.map place) "entrySet" []) state fun heap items =>
    List.Forall₂ heap.IsEntry items journal.entries
  /-- Within the map the map itself is not written out again. -/
  toJson : Function.callIn environment .util "toJson" [.map place] state =
    .ok (.string (Json.object (journal.entries.mapValues fun value =>
      (state.heap.written [.map place] value).json)).render) state

section

variable {environment : Environment} {place : Nat} {journal : Journal Value} {state : State}

/-- **The readings of a map give what the journal says that it holds.** -/
theorem shows_of_records (known : place < state.heap.maps.size)
    (records : Journal.Records journal (state.heap.map place)) :
    Shows environment place journal state where
  get key something := by
    have found := keyArgument_eq state.heap "get" something []
    show EStateM.bind (Run.ofExcept (keyArgument state.heap "get" [key])) _ state = _
    rw [found, ← records.get?_eq]
    rfl
  containsKey key something := by
    have found := keyArgument_eq state.heap "containsKey" something []
    show EStateM.bind (Run.ofExcept (keyArgument state.heap "containsKey" [key])) _ state = _
    rw [found, ← records.get?_eq]
    rfl
  element key something := by
    rw [Template.element, something, rendered_eq state.heap something, records.get?_eq]
    rfl
  property name := by rw [Template.property, records.get?_eq]
  size := by
    rw [← records.keys_eq, Dict.keys, List.length_map]
    rfl
  keySet := by
    rw [← records.keys_eq]
    exact lists_newList _ state
  values := by
    rw [← records.eq_entries]
    exact lists_newList _ state
  entrySet := by
    rw [← records.eq_entries]
    obtain ⟨values, middle, done, more, stand⟩ := entryMaps_ok (state.heap.map place) state
    have grown := Heap.extends_allocList middle.heap values
    have listed := Heap.list_allocList middle.heap values
    refine ⟨middle.heap.lists.size, { middle with heap := (middle.heap.allocList values).2 }, ?_,
      more.trans grown, ?_⟩
    · show (entryMaps (state.heap.map place) >>= fun values => newList values) state = _
      rw [bind_of_ok done]
      rfl
    · rw [listed]
      exact stand.imp fun _ _ stands => stands.extends grown
  toJson := by
    rw [← records.eq_entries, ← Heap.json_map known]
    rfl

open Relation (ReflTransGen)

/-- **A map is an insertion-ordered map with unique keys at any time**, whatever it was made with
and whoever wrote it since. Every key is there once, with the value last written under its text, in
the place where it came in; all readings show that. Every change with a scalar for a key is made and
goes into the journal, whichever way leads to the map, and a template makes only such changes. The
texts of scalars are the same throughout. A value within the map is written out as it is alone if no
way leads from it back to the map. -/
theorem Course.insertion_ordered (course : Course environment place journal state.heap) :
    (journal.keys.Nodup ∧ journal.entries.keys = journal.keys ∧
        ∀ key value, (key, value) ∈ journal.entries ↔ journal.last? key = some value) ∧
      Shows environment place journal state ∧
      (∀ change : Change, (∀ key ∈ change.key?, key.isNothing = false ∧ key.address? = none) →
        ∃ after, change.perform place state = .ok () after ∧
          Course environment place (change.events state.heap ++ journal) after.heap) ∧
      (∀ nodes, ∃ more, Course environment place (more ++ journal)
        ((Template.execute environment nodes).after state).heap) ∧
      (∀ key : Value, key.address? = none → ∀ heap : Heap,
        heap.text key = state.heap.text key) ∧
      ∀ value, (∀ found, ReflTransGen state.heap.Part value found → found ≠ .map place) →
        (state.heap.written [.map place] value).json = state.heap.json value := by
  obtain ⟨known, records⟩ := course.records
  refine ⟨⟨journal.nodup_keys, journal.keys_entries, fun _ _ => Journal.mem_entries_iff⟩,
    shows_of_records known records, fun change scalar => ?_, course.execute,
    fun key scalar heap => text_scalar scalar heap state.heap, fun value apart => ?_⟩
  · have keyed : change.Keyed := fun key about => (scalar key about).1
    have made := perform_eq keyed place state
    have goes := course.changes keyed
    rw [Run.after, made] at goes
    exact ⟨_, made, goes⟩
  · rw [Heap.json, Heap.written_of_apart]
    intro found way address here again
    cases List.mem_singleton.mp again
    exact apart found way (Value.eq_of_address? here rfl)

end

namespace Rewritten

/-- The literal `{"a": 1, "b": 2, "a": 3}`. -/
def literal : List Entry :=
  [.mk (.string "a") (.int 1), .mk (.string "b") (.int 2), .mk (.string "a") (.int 3)]

/-- The state that the literal leaves. -/
def made : State where
  heap := { maps := #[[("a", .int 3), ("b", .int 2)]] }

/-- The state after `put(3, "c")`. -/
def put : State := ((Change.put (.int 3) (.string "c")).perform 0).after made

/-- The state after `remove("b")`. -/
def removed : State := ((Change.remove (.string "b")).perform 0).after put

/-- The state after an assignment to `["b"]`. -/
def assigned : State := ((Change.element (.string "b") (.int 5)).perform 0).after removed

/-- What was written. -/
def journal : Journal Value :=
  [.written "b" (.int 5), .removed "b", .written "3" (.string "c"), .written "a" (.int 3),
    .written "b" (.int 2), .written "a" (.int 1)]

/-- **A key that is removed and written again comes in last**, and a number is found by its text. -/
theorem written_again_last :
    Course .still 0 journal assigned.heap ∧
      journal.keys = ["a", "3", "b"] ∧
      callMethod (.map 0) "get" [.int 3] assigned = .ok (.string "c") assigned ∧
      callMethod (.map 0) "size" [] assigned = .ok (.int 3) assigned ∧
      Function.callIn .still .util "toJson" [.map 0] assigned =
        .ok (.string "\x7b\"a\":3,\"3\":\"c\",\"b\":5\x7d") assigned := by
  have evaluated : evaluate .still (.map literal) {} = .ok (.map 0) made := rfl
  have begun : Course .still 0 (Journal.writing (literalEntries .still literal {})) made.heap :=
    .begins (.literal evaluated)
  have keyed {change : Change} (key : Value) (about : change.key? = some key)
      (something : key.isNothing = false) : change.Keyed := by
    rintro _ here
    cases about.symm.trans here
    exact something
  have first : Course .still 0 _ put.heap := begun.changes (keyed (.int 3) rfl rfl)
  have second : Course .still 0 _ removed.heap := first.changes (keyed (.string "b") rfl rfl)
  have third : Course .still 0 _ assigned.heap := second.changes (keyed (.string "b") rfl rfl)
  have course : Course .still 0 journal assigned.heap := by
    convert third using 1
    decide +kernel
  have three : assigned.heap.text (.int 3) = "3" := by decide +kernel
  obtain ⟨_, shows, _⟩ := course.insertion_ordered
  have json : (Json.object (journal.entries.mapValues fun value =>
      (assigned.heap.written [.map 0] value).json)).render =
        "\x7b\"a\":3,\"3\":\"c\",\"b\":5\x7d" := by decide +kernel
  refine ⟨course, by decide, ?_, shows.size, ?_⟩
  · rw [shows.get (.int 3) rfl, three]
    rfl
  · rw [shows.toJson, json]

end Rewritten

end FieldResolver.Template

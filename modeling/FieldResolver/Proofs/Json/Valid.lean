/-
**Parts of valid values.**

What is read out of a value that stands in a JSON text can stand in one itself: the values of
fields, the items of arrays, the fields of records and the entries of dictionaries.

* `holds_of_parts`: induction on values;
* `Valid.merged`, `Valid.merged_eq`: merging repeated keys keeps a value valid, and leaves a valid
  one as it is;
* `merged_array_eq_iff`, `merged_object_eq_iff`: merging leaves a container as it is just when it
  leaves its parts, and no key repeats; `merged_merged`: it does so the second time;
* `Record.valid_of_get?`: a field of a record is valid;
* `fields?_valid`, `fields?_distinct`: an object that is read has valid fields with distinct keys.
-/

import FieldResolver.Json.Record
import FieldResolver.Proofs.Dict
import FieldResolver.Proofs.Fallible

namespace FieldResolver

namespace Json

theorem itemsValid_iff {items : List Json} : ItemsValid items ↔ ∀ item ∈ items, item.Valid := by
  induction items with
  | nil => simp [ItemsValid]
  | cons item rest ih => rw [ItemsValid, ih, List.forall_mem_cons]

theorem fieldsValid_iff {fields : List (String × Json)} :
    FieldsValid fields ↔ ∀ field ∈ fields, field.2.Valid := by
  induction fields with
  | nil => simp [FieldsValid]
  | cons field rest ih =>
    obtain ⟨key, value⟩ := field
    rw [FieldsValid, ih, List.forall_mem_cons]

/-- A value that is read out of valid fields is valid. -/
theorem FieldsValid.get? {fields : Dict Json} (valid : FieldsValid fields) {key : String}
    {value : Json} (found : fields.get? key = some value) : value.Valid :=
  fieldsValid_iff.mp valid _ (Dict.mem_of_get? found)

mutual

/-- What holds of every value if it holds of arrays whose items have it and objects whose fields
have it. -/
theorem holds_of_parts {holds : Json → Prop} (null : holds .null) (bool : ∀ b, holds (.bool b))
    (number : ∀ n, holds (.number n)) (string : ∀ text, holds (.string text))
    (array : ∀ items, (∀ item ∈ items, holds item) → holds (.array items))
    (object : ∀ fields : List (String × Json), (∀ field ∈ fields, holds field.2) →
      holds (.object fields)) : (value : Json) → holds value
  | .null => null
  | .bool b => bool b
  | .number n => number n
  | .string text => string text
  | .array items => array items (items_of_parts null bool number string array object items)
  | .object fields => object fields (fields_of_parts null bool number string array object fields)

theorem items_of_parts {holds : Json → Prop} (null : holds .null) (bool : ∀ b, holds (.bool b))
    (number : ∀ n, holds (.number n)) (string : ∀ text, holds (.string text))
    (array : ∀ items, (∀ item ∈ items, holds item) → holds (.array items))
    (object : ∀ fields : List (String × Json), (∀ field ∈ fields, holds field.2) →
      holds (.object fields)) : (items : List Json) → ∀ item ∈ items, holds item
  | [] => fun _ member => absurd member List.not_mem_nil
  | item :: rest => List.forall_mem_cons.mpr
    ⟨holds_of_parts null bool number string array object item,
      items_of_parts null bool number string array object rest⟩

theorem fields_of_parts {holds : Json → Prop} (null : holds .null) (bool : ∀ b, holds (.bool b))
    (number : ∀ n, holds (.number n)) (string : ∀ text, holds (.string text))
    (array : ∀ items, (∀ item ∈ items, holds item) → holds (.array items))
    (object : ∀ fields : List (String × Json), (∀ field ∈ fields, holds field.2) →
      holds (.object fields)) :
    (fields : List (String × Json)) → ∀ field ∈ fields, holds field.2
  | [] => fun _ member => absurd member List.not_mem_nil
  | (_, value) :: rest => List.forall_mem_cons.mpr
    ⟨holds_of_parts null bool number string array object value,
      fields_of_parts null bool number string array object rest⟩

end

/-! ### Merging repeated keys -/

mutual

/-- Merging repeated keys keeps a value valid. -/
theorem Valid.merged : {value : Json} → value.Valid → value.merged.Valid
  | .null, valid | .bool _, valid | .number _, valid | .string _, valid => valid
  | .array _, valid => ItemsValid.merged valid
  | .object _, ⟨_, valid⟩ => by
    refine ⟨Dict.keys_ofEntries_nodup _, fieldsValid_iff.mpr fun field member => ?_⟩
    exact fieldsValid_iff.mp (FieldsValid.merged valid) field (Dict.mem_of_mem_ofEntries member)

theorem ItemsValid.merged : {items : List Json} → ItemsValid items → ItemsValid (mergedItems items)
  | [], valid => valid
  | _ :: _, ⟨first, rest⟩ => ⟨first.merged, rest.merged⟩

theorem FieldsValid.merged :
    {fields : List (String × Json)} → FieldsValid fields → FieldsValid (mergedFields fields)
  | [], valid => valid
  | (_, _) :: _, ⟨first, rest⟩ => ⟨first.merged, rest.merged⟩

end

mutual

/-- A valid value has no repeated keys to merge. -/
theorem Valid.merged_eq : {value : Json} → value.Valid → value.merged = value
  | .null, _ | .bool _, _ | .number _, _ | .string _, _ => rfl
  | .array _, valid => congrArg Json.array (ItemsValid.merged_eq valid)
  | .object _, ⟨distinct, valid⟩ => by
    rw [merged, FieldsValid.merged_eq valid, Dict.ofEntries_of_distinct distinct]

theorem ItemsValid.merged_eq : {items : List Json} → ItemsValid items → mergedItems items = items
  | [], _ => rfl
  | _ :: _, ⟨first, rest⟩ => by rw [mergedItems, first.merged_eq, rest.merged_eq]

theorem FieldsValid.merged_eq :
    {fields : List (String × Json)} → FieldsValid fields → mergedFields fields = fields
  | [], _ => rfl
  | (_, _) :: _, ⟨first, rest⟩ => by rw [mergedFields, first.merged_eq, rest.merged_eq]

end

theorem mergedItems_eq_map (items : List Json) : mergedItems items = items.map merged := by
  induction items with
  | nil => rfl
  | cons item rest ih => rw [mergedItems, ih, List.map_cons]

theorem mergedFields_eq_map (fields : List (String × Json)) :
    mergedFields fields = fields.map fun field => (field.1, field.2.merged) := by
  induction fields with
  | nil => rfl
  | cons field rest ih => rw [mergedFields, ih, List.map_cons]

/-- When there is nothing to merge in an array. -/
theorem merged_array_eq_iff {items : List Json} :
    (array items).merged = array items ↔ ∀ item ∈ items, item.merged = item := by
  rw [merged, mergedItems_eq_map, array.injEq]
  nth_rewrite 2 [← List.map_id items]
  exact List.map_inj_left

/-- When there is nothing to merge in an object. -/
theorem merged_object_eq_iff {fields : List (String × Json)} :
    (object fields).merged = object fields ↔
      (Dict.keys fields).Nodup ∧ ∀ field ∈ fields, field.2.merged = field.2 := by
  have keys : Dict.keys (mergedFields fields) = Dict.keys fields := by
    rw [mergedFields_eq_map, Dict.keys, List.map_map]
    rfl
  have each : mergedFields fields = fields ↔ ∀ field ∈ fields, field.2.merged = field.2 := by
    rw [mergedFields_eq_map]
    nth_rewrite 2 [← List.map_id fields]
    rw [List.map_inj_left]
    exact forall₂_congr fun field _ => by simp [Prod.ext_iff]
  rw [merged, object.injEq, ← each]
  constructor
  · intro same
    have distinct : (Dict.keys fields).Nodup := by
      rw [← same]
      exact Dict.keys_ofEntries_nodup _
    rw [Dict.ofEntries_of_distinct (keys ▸ distinct)] at same
    exact ⟨distinct, same⟩
  · rintro ⟨distinct, same⟩
    rw [same, Dict.ofEntries_of_distinct distinct]

/-- There is nothing left to merge once repeated keys are merged. -/
theorem merged_merged (value : Json) : value.merged.merged = value.merged := by
  induction value using holds_of_parts with
  | null | bool | number | string => rfl
  | array items each =>
    refine merged_array_eq_iff.mpr fun item member => ?_
    rw [mergedItems_eq_map] at member
    obtain ⟨part, inside, rfl⟩ := List.mem_map.mp member
    exact each part inside
  | object fields each =>
    refine merged_object_eq_iff.mpr ⟨Dict.keys_ofEntries_nodup _, fun field member => ?_⟩
    have written := Dict.mem_of_mem_ofEntries member
    rw [mergedFields_eq_map] at written
    obtain ⟨part, inside, rfl⟩ := List.mem_map.mp written
    exact each part inside

/-! ### Objects and records that are read -/

/-- A valid object is read as it is. -/
theorem fields?_of_valid {fields : Dict Json} (valid : (Json.object fields).Valid) :
    fields? (.object fields) = some fields := by
  rw [fields?, valid.merged_eq, object?]

/-- An object that is read has distinct keys. -/
theorem fields?_distinct {value : Json} {fields : Dict Json} (read : fields? value = some fields) :
    (Dict.keys fields).Nodup := by
  cases value with
  | object entries =>
    cases read
    exact Dict.keys_ofEntries_nodup _
  | _ => cases read

/-- An object that is read out of a valid value has valid fields. -/
theorem fields?_valid {value : Json} {fields : Dict Json} (valid : value.Valid)
    (read : fields? value = some fields) : FieldsValid fields := by
  have merged := valid.merged
  cases value with
  | object entries =>
    cases read
    exact merged.2
  | _ => cases read

/-- A field of a record that is read out of a valid value is valid. -/
theorem Record.valid_of_get? {names : List String} {value : Json} {record : Record}
    (valid : value.Valid) (read : Record.ofJson? names value = some record) {name : String}
    {field : Json} (found : record.fields.get? name = some field) : field.Valid := by
  cases value with
  | object fields =>
    rw [Record.ofJson?, Record.ofObject?] at read
    split at read
    · cases read
      exact valid.2.get? found
    · cases read
  | array items =>
    rw [Record.ofJson?] at read
    split at read
    · cases read
      have zipped := Dict.mem_of_get? found
      exact itemsValid_iff.mp valid _ (List.of_mem_zip zipped).2
    · cases read
  | _ => cases read

section

variable {α : Type} {read : Json → Option α}

/-- What is read out of a required field. -/
theorem Record.of_required {record : Record} {name : String} {content : α}
    (required : record.required name read = some content) :
    ∃ field, record.fields.get? name = some field ∧ read field = some content :=
  Option.bind_eq_some_iff.mp required

/-- What is read out of every item of an array. -/
theorem of_listOf? {value : Json} {contents : List α} (valid : value.Valid)
    (all : listOf? read value = some contents) :
    ∀ content ∈ contents, ∃ item, item.Valid ∧ read item = some content := by
  obtain ⟨items, array, mapped⟩ := Option.bind_eq_some_iff.mp all
  cases value with
  | array found =>
    cases array
    intro content member
    obtain ⟨item, inItems, same⟩ := Fallible.exists_of_mem_mapM mapped content member
    exact ⟨item, itemsValid_iff.mp valid item inItems, same⟩
  | _ => cases array

/-- What is read out of every field of an object. -/
theorem of_dictOf? {value : Json} {contents : Dict α} (valid : value.Valid)
    (all : dictOf? read value = some contents) :
    ∀ entry ∈ contents, ∃ field, field.Valid ∧ read field = some entry.2 := by
  obtain ⟨fields, object, all⟩ := Option.bind_eq_some_iff.mp all
  obtain ⟨entries, mapped, same⟩ := Option.bind_eq_some_iff.mp all
  cases same
  cases value with
  | object found =>
    cases object
    intro entry member
    obtain ⟨field, inFields, same⟩ :=
      Fallible.exists_of_mem_mapM mapped entry (Dict.mem_of_mem_ofEntries member)
    obtain ⟨content, given, rfl⟩ := Option.map_eq_some_iff.mp same
    exact ⟨field.2, fieldsValid_iff.mp valid.2 field inFields, given⟩
  | _ => cases object

end

end Json

end FieldResolver

/-
**Records, read back.**

What is written as an object with known fields is read as the record that was written. The fields
may be missing, `null` or spread among those of another record; a variant may stand among them.

* `Record.ofObject?_object`: an object with distinct keys is a record;
* `Record.optional_of_map`, `Record.optional_of_ofOption`: fields that are left out, or written as
  `null`, where there is no content;
* `tagged?_object`, `spread?_object`: a variant's name and its content;
* `listOf?_map`, `dictOf?_mapValues`: lists and dictionaries, item by item;
* `Readable`: whether a value comes back from its text, and `Readable.parseWritten`: it does.
-/

import FieldResolver.Proofs.Json.Compact

namespace FieldResolver.Json

section

variable {α : Type} {read : Json → Option α} {form : α → Json}

/-! ### Records -/

/-- An object without repeated keys is a record with its fields. -/
theorem Record.ofObject?_object (names : List String) {fields : Dict Json}
    (distinct : (Dict.keys fields).Nodup) :
    Record.ofObject? names (.object fields) = some ⟨fields, false⟩ := by
  have once : Record.distinct names fields = true := by
    refine List.all_eq_true.mpr fun name _ => decide_eq_true ?_
    have count := List.nodup_iff_count_le_one.mp distinct name
    rwa [List.count, Dict.keys, List.countP_map, List.countP_eq_length_filter] at count
  rw [Record.ofObject?, once]
  rfl

theorem Record.ofJson?_object (names : List String) {fields : Dict Json}
    (distinct : (Dict.keys fields).Nodup) :
    Record.ofJson? names (.object fields) = some ⟨fields, false⟩ :=
  Record.ofObject?_object names distinct

/-- An optional field with content. -/
theorem Record.optional_of_get? {record : Record} {name : String} {field : Json} {content : α}
    (found : record.fields.get? name = some field) (present : field ≠ .null)
    (back : read field = some content) : record.optional name read = some (some content) := by
  rw [Record.optional, found]
  cases field with
  | null => exact absurd rfl present
  | _ => simp [back]

/-- A field that is written only if it is there. -/
theorem Record.optional_of_map {fields : Dict Json} {name : String} {value : Option α}
    (found : fields.get? name = value.map form) (present : ∀ content, form content ≠ .null)
    (back : ∀ content ∈ value, read (form content) = some content) :
    Record.optional ⟨fields, false⟩ name read = some value := by
  cases value with
  | none =>
    rw [Record.optional, found]
    rfl
  | some content => exact Record.optional_of_get? found (present content) (back content rfl)

/-- A field that is written as `null` where it is not there. -/
theorem Record.optional_of_ofOption {fields : Dict Json} {name : String} {value : Option α}
    (found : fields.get? name = some (Json.ofOption (value.map form)))
    (present : ∀ content, form content ≠ .null)
    (back : ∀ content ∈ value, read (form content) = some content) :
    Record.optional ⟨fields, false⟩ name read = some value := by
  cases value with
  | none =>
    rw [Record.optional, found]
    rfl
  | some content => exact Record.optional_of_get? found (present content) (back content rfl)

theorem Record.optional_string {fields : Dict Json} {name : String} {value : Option String}
    (found : fields.get? name = value.map .string) :
    Record.optional ⟨fields, false⟩ name string? = some value :=
  Record.optional_of_map found nofun fun _ _ => rfl

theorem Record.optional_stringOrNull {fields : Dict Json} {name : String}
    {value : Option String}
    (found : fields.get? name = some (Json.ofOption (value.map .string))) :
    Record.optional ⟨fields, false⟩ name string? = some value :=
  Record.optional_of_ofOption found nofun fun _ _ => rfl

/-! ### Lists and dictionaries -/

/-- A list is read back if its items are. -/
theorem listOf?_map {items : List α} (back : ∀ item ∈ items, read (form item) = some item) :
    listOf? read (.array (items.map form)) = some items := by
  show (items.map form).mapM read = some items
  induction items with
  | nil => rfl
  | cons item rest ih =>
    obtain ⟨here, others⟩ := List.forall_mem_cons.mp back
    rw [List.map_cons, List.mapM_cons, here, ih others]
    rfl

/-- A dictionary is read back if its values are. -/
theorem dictOf?_mapValues {dict : Dict α} (distinct : (Dict.keys dict).Nodup)
    (back : ∀ entry ∈ dict, read (form entry.2) = some entry.2) :
    dictOf? read (.object (dict.mapValues form)) = some dict := by
  have entries : (dict.mapValues form).mapM
      (fun entry : String × Json => (read entry.2).map (entry.1, ·)) = some dict := by
    clear distinct
    induction dict with
    | nil => rfl
    | cons entry rest ih =>
      obtain ⟨here, others⟩ := List.forall_mem_cons.mp back
      have below := ih others
      rw [Dict.mapValues] at below ⊢
      rw [List.map_cons, List.mapM_cons, below]
      show ((read (form entry.2)).map _ >>= _) = _
      rw [here]
      rfl
  show (((dict.mapValues form).mapM fun entry : String × Json =>
    (read entry.2).map (entry.1, ·)) >>= fun entries => some (Dict.ofEntries entries)) = _
  rw [entries]
  show some (Dict.ofEntries dict) = some dict
  rw [Dict.ofEntries_of_distinct distinct]

theorem listOf?_strings (texts : List String) :
    listOf? string? (.array (texts.map .string)) = some texts :=
  listOf?_map fun _ _ => rfl

theorem dictOf?_strings {dict : Dict String} (distinct : (Dict.keys dict).Nodup) :
    dictOf? string? (.object (dict.mapValues .string)) = some dict :=
  dictOf?_mapValues distinct fun _ _ => rfl

theorem nat?_int {n : Nat} (small : (n : Int) ≤ maxNat) : nat? (.int n) = some n := by
  show (if 0 ≤ (n : Int) ∧ (n : Int) ≤ maxNat then some (n : Int).toNat else none) = some n
  rw [if_pos ⟨Int.natCast_nonneg n, small⟩, Int.toNat_natCast]

theorem Record.optional_nat {fields : Dict Json} {name : String} {value : Option Nat}
    (found : fields.get? name = value.map fun n : Nat => Json.int n)
    (small : ∀ n ∈ value, (n : Int) ≤ maxNat) :
    Record.optional ⟨fields, false⟩ name nat? = some value :=
  Record.optional_of_map found (fun _ => nofun) fun n member => nat?_int (small n member)

theorem Record.optional_natOrNull {fields : Dict Json} {name : String} {value : Option Nat}
    (found : fields.get? name = some (Json.ofOption (value.map fun n : Nat => Json.int n)))
    (small : ∀ n ∈ value, (n : Int) ≤ maxNat) :
    Record.optional ⟨fields, false⟩ name nat? = some value :=
  Record.optional_of_ofOption found (fun _ => nofun) fun n member => nat?_int (small n member)

theorem le_maxNat_of_nat? {value : Json} {n : Nat} (read : value.nat? = some n) :
    (n : Int) ≤ maxNat := by
  cases value with
  | number number =>
    cases number with
    | int value =>
      by_cases range : 0 ≤ value ∧ value ≤ maxNat
      · rw [nat?, if_pos range, Option.some.injEq] at read
        rw [← read, Int.toNat_of_nonneg range.1]
        exact range.2
      · rw [nat?, if_neg range] at read
        cases read
    | float => cases read
  | _ => cases read

end

/-- An optional number that is read is below `2 ^ 64`. -/
theorem Record.le_maxNat_of_optional {record : Record} {name : String} {value : Option Nat}
    (read : record.optional name nat? = some value) : ∀ n ∈ value, (n : Int) ≤ maxNat := by
  rintro n ⟨⟩
  unfold Record.optional at read
  split at read
  · cases read
  · obtain ⟨number, here, same⟩ := Option.map_eq_some_iff.mp read
    cases same
    exact le_maxNat_of_nat? here
  · split at read <;> cases read

/-- What every item that is read has holds of a list that is read, or missing. -/
theorem Record.forall_of_defaulted {α : Type} {read : Json → Option α} {record : Record}
    {name : String} {contents : List α} {holds : α → Prop}
    (each : ∀ {item content}, read item = some content → holds content)
    (all : record.defaulted name [] (listOf? read) = some contents) :
    ∀ content ∈ contents, holds content := by
  unfold Record.defaulted at all
  split at all
  · obtain ⟨items, -, mapped⟩ := Option.bind_eq_some_iff.mp all
    intro content member
    obtain ⟨item, -, here⟩ := Fallible.exists_of_mem_mapM mapped content member
    exact each here
  · cases all
    exact fun _ member => absurd member List.not_mem_nil

/-- A dictionary that is read has distinct keys. -/
theorem dictOf?_distinct {α : Type} {read : Json → Option α} {value : Json} {dict : Dict α}
    (all : dictOf? read value = some dict) : (Dict.keys dict).Nodup := by
  obtain ⟨fields, -, all⟩ := Option.bind_eq_some_iff.mp all
  obtain ⟨entries, -, same⟩ := Option.bind_eq_some_iff.mp all
  cases same
  exact Dict.keys_ofEntries_nodup entries

/-- A dictionary that is read, or missing, has distinct keys. -/
theorem Record.distinct_of_defaulted {α : Type} {read : Json → Option α} {record : Record}
    {name : String} {dict : Dict α}
    (all : record.defaulted name [] (dictOf? read) = some dict) : (Dict.keys dict).Nodup := by
  unfold Record.defaulted at all
  split at all
  · exact dictOf?_distinct all
  · cases all
    exact List.nodup_nil

/-! ### Variants -/

section

variable {tag : String} {fields : Dict Json}

/-- The fields of a variant without its name. -/
theorem filter_of_not_mem (other : tag ∉ Dict.keys fields) :
    fields.filter (fun field => field.1 != tag) = fields := by
  refine List.filter_eq_self.mpr fun field member => bne_iff_ne.mpr ?_
  rintro rfl
  exact other (List.mem_map_of_mem member)

theorem filter_behind (distinct : (tag :: Dict.keys fields).Nodup) (value : Json) :
    List.filter (fun field => field.1 != tag) ((tag, value) :: fields) = fields := by
  rw [List.filter_cons_of_neg (by simp), filter_of_not_mem (List.nodup_cons.mp distinct).1]

/-- A variant whose name is in front of its fields. -/
theorem tagged?_object (distinct : (tag :: Dict.keys fields).Nodup) (name : String) :
    tagged? tag (.object ((tag, .string name) :: fields)) = some (name, .object fields) := by
  have record := @Record.ofObject?_object [tag] ((tag, .string name) :: fields) distinct
  unfold tagged?
  dsimp only
  rw [record, filter_behind distinct]
  simp [Record.required, Dict.get?_cons, string?]

/-- A variant that is spread among the fields of a record. -/
theorem spread?_object (distinct : (tag :: Dict.keys fields).Nodup) (name : String)
    (names : List String) :
    spread? tag names (.object ((tag, .string name) :: fields)) =
      some (name, .object fields) := by
  have record := @Record.ofObject?_object [tag] ((tag, .string name) :: fields) distinct
  unfold spread?
  rw [record]
  simp [Record.required, Dict.get?_cons, string?, filter_behind distinct]

end

/-! ### Texts -/

/-- What a text is read as. -/
def readAs {α : Type} (read : Json → Option α) (text : String) : Option α :=
  (parseWritten text).toOption.bind read

theorem readAs_render {α : Type} (read : Json → Option α) (value : Json) :
    readAs read value.render = (readWritten value.chars).toOption.bind read := by
  rw [readAs, parseWritten, render, String.toList_ofList]
  cases readWritten value.chars <;> rfl

/-- Whether a value comes back from its text, with so many containers inside one another. -/
structure Readable (bound : Nat) (value : Json) : Prop where
  valid : value.Valid
  kept : value.AllNumbers Number.Kept
  within : value.depth ≤ bound

namespace Readable

variable {bound : Nat}

/-- **A value comes back from its text.** -/
theorem parseWritten {value : Json} (readable : Readable maxNesting value) :
    Json.parseWritten value.render = .ok value := by
  have read := (solid_chars readable.valid readable.kept).reads maxNesting [] readable.within
    apart_nil
  rw [List.append_nil] at read
  rw [Json.parseWritten, readWritten, render, String.toList_ofList, read]
  rfl

/-- What was read out of a value is read out of its text. -/
theorem readAs {value : Json} (readable : Readable maxNesting value) {α : Type}
    (read : Json → Option α) : Json.readAs read value.render = read value := by
  rw [Json.readAs, readable.parseWritten]
  rfl

theorem mono {value : Json} (readable : Readable bound value) {larger : Nat}
    (le : bound ≤ larger) : Readable larger value :=
  ⟨readable.valid, readable.kept, readable.within.trans le⟩

theorem null : Readable bound .null := ⟨trivial, trivial, Nat.zero_le bound⟩

theorem string (text : String) : Readable bound (.string text) :=
  ⟨trivial, trivial, Nat.zero_le bound⟩

/-- A natural number comes back. -/
theorem nat {n : Nat} (small : (n : Int) ≤ maxNat) : Readable bound (.int n) := by
  refine ⟨⟨?_, small⟩, trivial, Nat.zero_le bound⟩
  exact le_trans (by decide) (Int.natCast_nonneg n)

theorem array {items : List Json} (each : ∀ item ∈ items, Readable bound item) :
    Readable (bound + 1) (.array items) where
  valid := itemsValid_iff.mpr fun item member => (each item member).valid
  kept := itemNumbers_iff.mpr fun item member => (each item member).kept
  within := Nat.succ_le_succ (itemsDepth_le fun item member => (each item member).within)

theorem object {fields : Dict Json} (distinct : (Dict.keys fields).Nodup)
    (each : ∀ field ∈ fields, Readable bound field.2) :
    Readable (bound + 1) (.object fields) where
  valid := ⟨distinct, fieldsValid_iff.mpr fun field member => (each field member).valid⟩
  kept := fieldNumbers_iff.mpr fun field member => (each field member).kept
  within := Nat.succ_le_succ (fieldsDepth_le fun field member => (each field member).within)

theorem strings (texts : List String) : Readable (bound + 1) (.array (texts.map .string)) :=
  array (List.forall_mem_map.mpr fun text _ => string text)

theorem ofOption {value : Option Json} (content : ∀ found ∈ value, Readable bound found) :
    Readable bound (Json.ofOption value) := by
  cases value with
  | none => exact null
  | some found => exact content found rfl

end Readable

end FieldResolver.Json

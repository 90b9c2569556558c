/-
**Written JSON values.**

A written value is JSON text as it stands, with its blanks, with the spelling of its scalars and
keys, with commas behind the last part of a container if there are any, and with gaps for another
text.

* `Written`, with `fold` to walk a written value and `holds_of_written` for induction;
* `Written.write`, `Written.fill`: the text and the value, with another text and value in the gaps;
* `Written.Formed`: whether a written value is JSON but for commas behind the last parts;
* `Written.isExact`, `Written.tidy`: whether there are no such commas, and the written value without
  them, which is the same value (`Written.fill_tidy`).
-/

import FieldResolver.Proofs.Json.Scalars
import FieldResolver.Proofs.Json.Text

set_option linter.unusedSectionVars false

namespace FieldResolver.Json

/-- Something with what stands in front of it and behind it. -/
structure Padded (α : Type) where
  front : List Char
  content : α
  back : List Char

/-- A key in its spelling, from the blanks in front of it to its colon. -/
structure Label where
  front : List Char
  /-- The text of the key behind its opening quote. -/
  body : List Char
  key : String
  back : List Char

/-- A written value with gaps. -/
inductive Written where
  | gap
  | scalar (text : List Char) (value : Json)
  | array (elements : List (Padded Written)) (comma : Bool) (tail : List Char)
  | object (fields : List (Label × Padded Written)) (comma : Bool) (tail : List Char)

/-- Whether a text has only blanks. -/
def Blank (text : List Char) : Prop := ∀ c ∈ text, isBlank c = true

instance (text : List Char) : Decidable (Blank text) := List.decidableBAll _ text

/-- A text with what stands in front of it and behind it. -/
def Padded.text (padded : Padded (List Char)) : List Char :=
  padded.front ++ (padded.content ++ padded.back)

/-- A key with its colon. -/
def Label.text (label : Label) : List Char :=
  label.front ++ '"' :: (label.body ++ (label.back ++ [':']))

/-- Whether a key is spelled with blanks around it only. -/
structure Label.Formed (label : Label) : Prop where
  front : Blank label.front
  spelled : readText label.body = .ok (label.key, [])
  back : Blank label.back

/-- What stands in front of a closing bracket or brace. -/
def closing (comma : Bool) (tail : List Char) : List Char := if comma then ',' :: tail else tail

namespace Written

section

variable {α : Type} (gap : α) (scalar : List Char → Json → α)
  (array : List (Padded α) → Bool → List Char → α)
  (object : List (Label × Padded α) → Bool → List Char → α)

mutual

/-- Walks a written value. -/
def fold : Written → α
  | .gap => gap
  | .scalar text value => scalar text value
  | .array elements comma tail => array (foldElements elements) comma tail
  | .object fields comma tail => object (foldFields fields) comma tail

/-- Walks the elements of an array. -/
def foldElements : List (Padded Written) → List (Padded α)
  | [] => []
  | ⟨front, content, back⟩ :: rest => ⟨front, fold content, back⟩ :: foldElements rest

/-- Walks the fields of an object. -/
def foldFields : List (Label × Padded Written) → List (Label × Padded α)
  | [] => []
  | (label, ⟨front, content, back⟩) :: rest =>
    (label, ⟨front, fold content, back⟩) :: foldFields rest

end

theorem foldElements_eq_map (elements : List (Padded Written)) :
    foldElements gap scalar array object elements =
      elements.map fun element =>
        ⟨element.front, element.content.fold gap scalar array object, element.back⟩ := by
  induction elements with
  | nil => rfl
  | cons element rest ih => rw [foldElements, ih, List.map_cons]

theorem foldFields_eq_map (fields : List (Label × Padded Written)) :
    foldFields gap scalar array object fields =
      fields.map fun field =>
        (field.1, ⟨field.2.front, field.2.content.fold gap scalar array object, field.2.back⟩) := by
  induction fields with
  | nil => rfl
  | cons field rest ih => rw [foldFields, ih, List.map_cons]

theorem fold_array (elements : List (Padded Written)) (comma : Bool) (tail : List Char) :
    fold gap scalar array object (.array elements comma tail) =
      array (elements.map fun element =>
        ⟨element.front, element.content.fold gap scalar array object, element.back⟩)
        comma tail := by
  rw [fold, foldElements_eq_map]

theorem fold_object (fields : List (Label × Padded Written)) (comma : Bool) (tail : List Char) :
    fold gap scalar array object (.object fields comma tail) =
      object (fields.map fun field =>
        (field.1, ⟨field.2.front, field.2.content.fold gap scalar array object, field.2.back⟩))
        comma tail := by
  rw [fold, foldFields_eq_map]

end

section

variable {holds : Written → Prop} (gap : holds .gap)
  (scalar : ∀ text value, holds (.scalar text value))
  (array : ∀ elements comma tail, (∀ element ∈ elements, holds element.content) →
    holds (.array elements comma tail))
  (object : ∀ fields comma tail, (∀ field ∈ fields, holds field.2.content) →
    holds (.object fields comma tail))

include gap scalar array object

mutual

/-- What holds of every written value if it holds of containers whose parts have it. -/
theorem holds_of_written : (written : Written) → holds written
  | .gap => gap
  | .scalar text value => scalar text value
  | .array elements comma tail => array elements comma tail (elements_of_written elements)
  | .object fields comma tail => object fields comma tail (fields_of_written fields)

theorem elements_of_written : (elements : List (Padded Written)) →
    ∀ element ∈ elements, holds element.content
  | [] => fun _ member => absurd member List.not_mem_nil
  | ⟨_, content, _⟩ :: rest =>
    List.forall_mem_cons.mpr ⟨holds_of_written content, elements_of_written rest⟩

theorem fields_of_written : (fields : List (Label × Padded Written)) →
    ∀ field ∈ fields, holds field.2.content
  | [] => fun _ member => absurd member List.not_mem_nil
  | (_, ⟨_, content, _⟩) :: rest =>
    List.forall_mem_cons.mpr ⟨holds_of_written content, fields_of_written rest⟩

end

end

/-- The text of a written value with another text in its gaps. -/
def write (gap : List Char) : Written → List Char :=
  fold gap (fun text _ => text)
    (fun elements comma tail =>
      '[' :: (commaSeparated (elements.map Padded.text) ++ (closing comma tail ++ [']'])))
    (fun fields comma tail =>
      '\x7b' :: (commaSeparated (fields.map fun field => field.1.text ++ field.2.text) ++
        (closing comma tail ++ ['\x7d'])))

/-- The value of a written value with another value in its gaps. -/
def fill (gap : Json) : Written → Json :=
  fold gap (fun _ value => value) (fun elements _ _ => .array (elements.map Padded.content))
    (fun fields _ _ => .object (fields.map fun field => (field.1.key, field.2.content)))

/-- Whether a written value is JSON but for commas in front of closing brackets and braces. -/
def Formed : Written → Prop :=
  fold True (fun text value => skipBlanks text = text ∧ readValue 0 text = .ok (value, []))
    (fun elements comma tail =>
      (∀ element ∈ elements, Blank element.front ∧ element.content ∧ Blank element.back) ∧
        Blank tail ∧ (comma = true → elements ≠ []))
    (fun fields comma tail =>
      (∀ field ∈ fields, field.1.Formed ∧ Blank field.2.front ∧ field.2.content ∧
        Blank field.2.back) ∧ Blank tail ∧ (comma = true → fields ≠ []))

/-- Whether no commas stand in front of closing brackets and braces. -/
def isExact : Written → Bool :=
  fold true (fun _ _ => true) (fun elements comma _ => elements.all Padded.content && !comma)
    (fun fields comma _ => (fields.all fun field => field.2.content) && !comma)

/-- A written value without the commas in front of closing brackets and braces. -/
def tidy : Written → Written :=
  fold .gap .scalar (fun elements _ tail => .array elements false tail)
    (fun fields _ tail => .object fields false tail)

section

variable (text : List Char) (value : Json) (elements : List (Padded Written))
  (fields : List (Label × Padded Written)) (comma : Bool) (tail : List Char)

/-- The text of an element of an array. -/
def elementText (gap : List Char) (element : Padded Written) : List Char :=
  element.front ++ (element.content.write gap ++ element.back)

/-- The text of a field of an object. -/
def memberText (gap : List Char) (field : Label × Padded Written) : List Char :=
  field.1.text ++ elementText gap field.2

theorem write_array (gap : List Char) :
    (array elements comma tail).write gap =
      '[' :: (commaSeparated (elements.map (elementText gap)) ++
        (closing comma tail ++ [']'])) := by
  rw [write, fold_array, List.map_map]
  rfl

theorem write_object (gap : List Char) :
    (object fields comma tail).write gap =
      '\x7b' :: (commaSeparated (fields.map (memberText gap)) ++
        (closing comma tail ++ ['\x7d'])) := by
  rw [write, fold_object, List.map_map]
  rfl

theorem fill_array (gap : Json) :
    (array elements comma tail).fill gap =
      .array (elements.map fun element => element.content.fill gap) := by
  rw [fill, fold_array, List.map_map]
  rfl

theorem fill_object (gap : Json) :
    (object fields comma tail).fill gap =
      .object (fields.map fun field => (field.1.key, field.2.content.fill gap)) := by
  rw [fill, fold_object, List.map_map]
  rfl

theorem formed_array :
    (array elements comma tail).Formed ↔
      (∀ element ∈ elements, Blank element.front ∧ element.content.Formed ∧ Blank element.back) ∧
        Blank tail ∧ (comma = true → elements ≠ []) := by
  rw [Formed, fold_array, List.forall_mem_map]
  simp only [ne_eq, List.map_eq_nil_iff]

theorem formed_object :
    (object fields comma tail).Formed ↔
      (∀ field ∈ fields, field.1.Formed ∧ Blank field.2.front ∧ field.2.content.Formed ∧
        Blank field.2.back) ∧ Blank tail ∧ (comma = true → fields ≠ []) := by
  rw [Formed, fold_object, List.forall_mem_map]
  simp only [ne_eq, List.map_eq_nil_iff]

theorem isExact_array :
    (array elements comma tail).isExact =
      ((elements.all fun element => element.content.isExact) && !comma) := by
  rw [isExact, fold_array, List.all_map]
  rfl

theorem isExact_object :
    (object fields comma tail).isExact =
      ((fields.all fun field => field.2.content.isExact) && !comma) := by
  rw [isExact, fold_object, List.all_map]
  rfl

theorem tidy_array :
    (array elements comma tail).tidy =
      .array (elements.map fun element => ⟨element.front, element.content.tidy, element.back⟩)
        false tail := by
  rw [tidy, fold_array]

theorem tidy_object :
    (object fields comma tail).tidy =
      .object (fields.map fun field =>
        (field.1, ⟨field.2.front, field.2.content.tidy, field.2.back⟩)) false tail := by
  rw [tidy, fold_object]

end

/-- Tidying up leaves no commas in front of closing brackets and braces. -/
theorem isExact_tidy (written : Written) : written.tidy.isExact = true := by
  induction written using holds_of_written with
  | gap | scalar => rfl
  | array elements comma tail ih =>
    rw [tidy_array, isExact_array, List.all_map, Bool.not_false, Bool.and_true]
    exact List.all_eq_true.mpr ih
  | object fields comma tail ih =>
    rw [tidy_object, isExact_object, List.all_map, Bool.not_false, Bool.and_true]
    exact List.all_eq_true.mpr ih

/-- Tidying up leaves the value as it is. -/
theorem fill_tidy (gap : Json) (written : Written) : written.tidy.fill gap = written.fill gap := by
  induction written using holds_of_written with
  | gap | scalar => rfl
  | array elements comma tail ih =>
    rw [tidy_array, fill_array, fill_array, List.map_map]
    exact congrArg Json.array (List.map_congr_left ih)
  | object fields comma tail ih =>
    rw [tidy_object, fill_object, fill_object, List.map_map]
    refine congrArg Json.object (List.map_congr_left fun field member => ?_)
    exact Prod.ext rfl (ih field member)

theorem formed_tidy {written : Written} (formed : written.Formed) : written.tidy.Formed := by
  induction written using holds_of_written with
  | gap | scalar => exact formed
  | array elements comma tail ih =>
    obtain ⟨formed, tailBlank, -⟩ := (formed_array elements comma tail).mp formed
    rw [tidy_array, formed_array, List.forall_mem_map]
    refine ⟨fun element member => ?_, tailBlank, fun comma => nomatch comma⟩
    obtain ⟨front, content, back⟩ := formed element member
    exact ⟨front, ih element member content, back⟩
  | object fields comma tail ih =>
    obtain ⟨formed, tailBlank, -⟩ := (formed_object fields comma tail).mp formed
    rw [tidy_object, formed_object, List.forall_mem_map]
    refine ⟨fun field member => ?_, tailBlank, fun comma => nomatch comma⟩
    obtain ⟨label, front, content, back⟩ := formed field member
    exact ⟨label, front, ih field member content, back⟩

/-- If a written value repeats no key, there is nothing to merge in it with a value in its gaps that
repeats none either. -/
theorem merged_fill {value : Json} (distinct : value.merged = value) {written : Written}
    (own : (written.fill .null).merged = written.fill .null) :
    (written.fill value).merged = written.fill value := by
  induction written using holds_of_written with
  | gap => exact distinct
  | scalar => exact own
  | array elements comma tail ih =>
    rw [fill_array, merged_array_eq_iff, List.forall_mem_map] at own ⊢
    exact fun element member => ih element member (own element member)
  | object fields comma tail ih =>
    rw [fill_object, merged_object_eq_iff, List.forall_mem_map] at own ⊢
    obtain ⟨keys, own⟩ := own
    refine ⟨?_, fun field member => ih field member (own field member)⟩
    rw [Dict.keys, List.map_map] at keys ⊢
    exact keys

end Written

end FieldResolver.Json

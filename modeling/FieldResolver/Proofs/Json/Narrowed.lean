/-
**The numbers of a value.**

Templates compute with signed 64-bit numbers and with doubles. A whole number beyond the signed
range becomes the nearest double when a template gets to see it; nothing else about a value changes.

* `AllNumbers`: whether a property holds of every number in a value;
* `narrowed`: a value as templates see it, with all its fields (`narrowedFields_eq_mapValues`);
* `narrowed_eq`: a value without whole numbers beyond the signed range stays as it is, and
  `narrowed_int_ne`: such a number does not.
-/

import FieldResolver.Proofs.Json.Valid

namespace FieldResolver.Json

/-- Whether a number is no whole number beyond the signed range. -/
def Number.Signed : Number → Prop
  | .int value => minInt ≤ value ∧ value ≤ maxInt
  | .float _ => True

mutual

/-- Whether a property holds of every number in a value. -/
def AllNumbers (holds : Number → Prop) : Json → Prop
  | .number value => holds value
  | .array items => ItemNumbers holds items
  | .object fields => FieldNumbers holds fields
  | _ => True

/-- Whether a property holds of every number in items. -/
def ItemNumbers (holds : Number → Prop) : List Json → Prop
  | [] => True
  | item :: rest => item.AllNumbers holds ∧ ItemNumbers holds rest

/-- Whether a property holds of every number in the values of fields. -/
def FieldNumbers (holds : Number → Prop) : List (String × Json) → Prop
  | [] => True
  | (_, value) :: rest => value.AllNumbers holds ∧ FieldNumbers holds rest

end

section

variable {holds : Number → Prop}

theorem itemNumbers_iff {items : List Json} :
    ItemNumbers holds items ↔ ∀ item ∈ items, item.AllNumbers holds := by
  induction items with
  | nil => simp [ItemNumbers]
  | cons item rest ih => rw [ItemNumbers, ih, List.forall_mem_cons]

theorem fieldNumbers_iff {fields : List (String × Json)} :
    FieldNumbers holds fields ↔ ∀ field ∈ fields, field.2.AllNumbers holds := by
  induction fields with
  | nil => simp [FieldNumbers]
  | cons field rest ih => rw [FieldNumbers, ih, List.forall_mem_cons]

end

/-- A number as templates see it. -/
def Number.narrowed (number : Number) : Json :=
  match number.toInt? with
  | some value => .int value
  | none => .ofFloat number.toFloat

mutual

/-- A value as templates see it. -/
def narrowed : Json → Json
  | .number value => value.narrowed
  | .array items => .array (narrowedItems items)
  | .object fields => .object (narrowedFields fields)
  | value => value

/-- Items as templates see them. -/
def narrowedItems : List Json → List Json
  | [] => []
  | item :: rest => item.narrowed :: narrowedItems rest

/-- Fields as templates see them. -/
def narrowedFields : List (String × Json) → List (String × Json)
  | [] => []
  | (key, value) :: rest => (key, value.narrowed) :: narrowedFields rest

end

/-- Templates see all fields, in order and under their keys. -/
theorem narrowedFields_eq_mapValues (fields : Dict Json) :
    narrowedFields fields = fields.mapValues narrowed := by
  induction fields with
  | nil => rfl
  | cons field rest ih =>
    obtain ⟨key, value⟩ := field
    rw [narrowedFields, ih]
    rfl

/-- A number that templates can hold is seen as it is. -/
theorem Number.narrowed_eq {number : Number} (valid : number.Valid) (signed : number.Signed) :
    number.narrowed = .number number := by
  cases number with
  | int value =>
    have range : minInt ≤ value ∧ value ≤ maxInt := signed
    unfold Number.narrowed Number.toInt?
    simp only [if_pos range]
    rfl
  | float value =>
    have ordinary : Decimal.isFinite value = true := valid
    show Json.ofFloat value = _
    rw [ofFloat, if_pos ordinary]

/-- A whole number beyond the signed range is not seen as it is. -/
theorem narrowed_int_ne {value : Int} (great : maxInt < value) :
    (Json.int value).narrowed ≠ .int value := by
  have beyond : ¬ (minInt ≤ value ∧ value ≤ maxInt) := fun range => by omega
  have seen : (Json.int value).narrowed = .ofFloat (Float.ofInt value) := by
    show Number.narrowed (.int value) = _
    unfold Number.narrowed Number.toInt?
    simp only [if_neg beyond]
    rfl
  rw [seen, ofFloat]
  split <;> exact fun same => nomatch same

mutual

/-- **A value without whole numbers beyond the signed range** is seen as it is. -/
theorem narrowed_eq : {value : Json} → value.Valid → value.AllNumbers Number.Signed →
    value.narrowed = value
  | .null, _, _ | .bool _, _, _ | .string _, _, _ => rfl
  | .number _, valid, signed => Number.narrowed_eq valid signed
  | .array _, valid, signed => congrArg Json.array (narrowedItems_eq valid signed)
  | .object _, valid, signed => congrArg Json.object (narrowedFields_eq valid.2 signed)

theorem narrowedItems_eq : {items : List Json} → ItemsValid items →
    ItemNumbers Number.Signed items → narrowedItems items = items
  | [], _, _ => rfl
  | _ :: _, ⟨valid, rest⟩, ⟨signed, others⟩ => by
    rw [narrowedItems, narrowed_eq valid signed, narrowedItems_eq rest others]

theorem narrowedFields_eq : {fields : List (String × Json)} → FieldsValid fields →
    FieldNumbers Number.Signed fields → narrowedFields fields = fields
  | [], _, _ => rfl
  | (_, _) :: _, ⟨valid, rest⟩, ⟨signed, others⟩ => by
    rw [narrowedFields, narrowed_eq valid signed, narrowedFields_eq rest others]

end

end FieldResolver.Json

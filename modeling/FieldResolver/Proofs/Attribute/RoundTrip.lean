/-
**Attribute values of template values, read back.**

Templates make attribute values of plain JSON, with its numbers as texts, and hosts read plain JSON
out of attribute values. What a template makes of a value is read as this value, with the keys in
their order.

* `Attribute.number_numberText`: a number is read back from its text, whole or not;
* `Attribute.unmarshal_marshal`: the attribute value of plain JSON;
* `Template.Function.setOf_ok`, `Attribute.numberMembers_ok`: the sets of texts and of numbers;
* `Template.Function.Gives`: what a template gets from a function of the group;
* `Template.Function.attributes_readBack`: the functions that make attribute values.

Numbers are those that templates hold: whole ones of the signed range and finite doubles. The text
of a double is never that of a whole number (`Decimal.int?_chars`).
-/

import FieldResolver.Attribute.Value
import FieldResolver.Proofs.Decimal.ReadBack
import FieldResolver.Proofs.Template.Memory
import FieldResolver.Template.Function.Call

namespace FieldResolver.Attribute

open Json (Number ItemNumbers FieldNumbers ItemsValid FieldsValid)

/-! ### Numbers -/

/-- A number that templates can hold is read back from its text. -/
theorem number_numberText {n : Number} (valid : n.Valid) (signed : n.Signed) :
    number (numberText n) = .ok (.number n) := by
  rw [number, numberText, String.toList_ofList]
  cases n with
  | int value =>
    have range : Json.minInt ≤ value ∧ value ≤ Json.maxInt := signed
    have read : Decimal.int? (Number.int value).chars = some value :=
      Decimal.int?_intChars range.1 (Int.lt_add_one_of_le range.2)
    rw [read]
    rfl
  | float value =>
    have ordinary : Decimal.isFinite value = true := valid
    have unread : Decimal.int? (Number.float value).chars = none := Decimal.int?_chars ordinary
    have read : Decimal.float? (Number.float value).chars = some value :=
      Decimal.float?_chars ordinary
    rw [unread, read]
    exact if_pos ordinary

/-! ### Values -/

mutual

/-- **The attribute value of plain JSON is read as that JSON.** -/
theorem unmarshal_marshal : {value : Json} → value.Valid → value.AllNumbers Number.Signed →
    unmarshal (marshal value) = .ok value
  | .null, _, _ | .bool _, _, _ | .string _, _, _ => rfl
  | .number n, valid, signed => number_numberText valid signed
  | .array items, valid, signed => by
    show (unmarshalItems (marshalItems items)).map Json.array = _
    rw [unmarshalItems_marshalItems valid signed]
    rfl
  | .object fields, valid, signed => by
    show (unmarshalFields (marshalFields fields)).map Json.object = _
    rw [unmarshalFields_marshalFields valid.2 signed]
    rfl

theorem unmarshalItems_marshalItems : {items : List Json} → ItemsValid items →
    ItemNumbers Number.Signed items → unmarshalItems (marshalItems items) = .ok items
  | [], _, _ => rfl
  | _ :: _, ⟨valid, rest⟩, ⟨signed, others⟩ => by
    rw [marshalItems, unmarshalItems, unmarshal_marshal valid signed,
      unmarshalItems_marshalItems rest others]
    rfl

theorem unmarshalFields_marshalFields : {fields : List (String × Json)} → FieldsValid fields →
    FieldNumbers Number.Signed fields → unmarshalFields (marshalFields fields) = .ok fields
  | [], _, _ => rfl
  | (_, _) :: _, ⟨valid, rest⟩, ⟨signed, others⟩ => by
    rw [marshalFields, unmarshalFields, unmarshal_marshal valid signed,
      unmarshalFields_marshalFields rest others]
    rfl

end

/-! ### Sets -/

/-- The members of a set of texts. -/
def texts (members : List String) : List Json := members.map .string

/-- The texts of numbers are read as these numbers. -/
theorem numberMembers_ok {numbers : List Number} (valid : ∀ n ∈ numbers, n.Valid)
    (signed : ∀ n ∈ numbers, n.Signed) :
    (texts (numbers.map numberText)).mapM numberMember = .ok (numbers.map .number) := by
  induction numbers with
  | nil => rfl
  | cons n rest ih =>
    obtain ⟨validHere, validRest⟩ := List.forall_mem_cons.mp valid
    obtain ⟨signedHere, signedRest⟩ := List.forall_mem_cons.mp signed
    have here : numberMember (.string (numberText n)) = .ok (.number n) :=
      number_numberText validHere signedHere
    show List.mapM numberMember (.string (numberText n) :: texts (rest.map numberText)) = _
    rw [List.mapM_cons, here, ih validRest signedRest]
    rfl

/-! ### Attribute values on the heap -/

mutual

/-- Templates see attribute values as they are, as these hold numbers as texts only. -/
theorem narrowed_marshal : (value : Json) → (marshal value).narrowed = marshal value
  | .null | .bool _ | .string _ | .number _ => rfl
  | .array items => congrArg (fun items => tagged "L" (.array items)) (narrowed_marshalItems items)
  | .object fields =>
    congrArg (fun fields => tagged "M" (.object fields)) (narrowed_marshalFields fields)

theorem narrowed_marshalItems : (items : List Json) →
    Json.narrowedItems (marshalItems items) = marshalItems items
  | [] => rfl
  | item :: rest => congrArg₂ List.cons (narrowed_marshal item) (narrowed_marshalItems rest)

theorem narrowed_marshalFields : (fields : List (String × Json)) →
    Json.narrowedFields (marshalFields fields) = marshalFields fields
  | [] => rfl
  | (key, field) :: rest =>
    congrArg₂ List.cons (congrArg (Prod.mk key) (narrowed_marshal field))
      (narrowed_marshalFields rest)

end

theorem narrowed_texts (members : List String) :
    Json.narrowedItems (texts members) = texts members := by
  induction members with
  | nil => rfl
  | cons member rest ih => exact congrArg (List.cons (.string member)) ih

end FieldResolver.Attribute

namespace FieldResolver.Template.Function

open Attribute
open Json (Number itemsValid_iff itemNumbers_iff)

/-! ### Sets -/

/-- Members that have texts are read as these. -/
theorem mapM_members {member : Json → Option String} {items : List Json} {members : List String}
    (each : items.map member = members.map some) :
    items.mapM (fun item =>
      match member item with
      | some text => Except.ok (Json.string text)
      | none => .error (FunctionFault.setMember item)) = .ok (texts members) := by
  induction items generalizing members with
  | nil =>
    obtain rfl : members = [] := List.map_eq_nil_iff.mp each.symm
    rfl
  | cons item rest ih =>
    obtain ⟨text, others, rfl, here, below⟩ := List.map_eq_cons_iff.mp each.symm
    rw [List.mapM_cons, ih below.symm, ← here]
    rfl

/-- A list whose members have texts makes a set of these texts. -/
theorem setOf_ok {member : Json → Option String} {items : List Json} {members : List String}
    (each : items.map member = members.map some) (type : String) :
    Attributes.setOf type member (.array items) = .ok (tagged type (.array (texts members))) :=
  congrArg (fun texts => texts >>= fun texts => Except.ok (tagged type (.array texts)))
    (mapM_members each)

/-! ### Calls -/

/-- Whether a function of the group, called in a state with some arguments, gives a value whose
JSON form has a property. -/
def Gives (environment : Environment) (state : State) (arguments : List Value) (name : String)
    (holds : Json → Prop) : Prop :=
  ∃ result after, callIn environment .dynamodb name arguments state = .ok result after ∧
    holds (after.heap.json result)

section

variable {environment : Environment} {state : State} {arguments : List Value}

/-- A function that has no twin's name gives the document that it makes of the first argument, if
templates see this document as it is. -/
theorem gives_of_valueOf (name : String) {value document : Json}
    (plain : Attributes.splitName name = (name, false))
    (converted : Call.json ⟨state.heap, arguments⟩ 0 = value)
    (made : Attributes.valueOf name value = .ok document)
    (stays : document.narrowed = document) {holds : Json → Prop} (holding : holds document) :
    Gives environment state arguments name holds := by
  have called : Attributes.call name ⟨state.heap, arguments⟩ = .ok (.json document) := by
    rw [Attributes.call, plain, converted]
    dsimp only
    rw [made]
    rfl
  refine ⟨(state.heap.ofJson document).1, { state with heap := (state.heap.ofJson document).2 },
    ?_, ?_⟩
  · show place .dynamodb name (Attributes.call name ⟨state.heap, arguments⟩) state = _
    rw [called]
    rfl
  · show holds ((state.heap.ofJson document).2.json (state.heap.ofJson document).1)
    rw [Heap.json_ofJson _ _ (.refl _), stays]
    exact holding

/-- **Attribute values made by templates are read as what they were made of.** Whatever plain JSON a
template value stands for, `toDynamoDB` of it is read as this JSON, the attribute values that
`toMapValues` makes of an object are read as this object, and the sets that `toStringSet` and
`toNumberSet` make of a list of strings or of numbers are read as this list. -/
theorem attributes_readBack (environment : Environment) (state : State) (arguments : List Value)
    (value : Json) (converted : Call.json ⟨state.heap, arguments⟩ 0 = value)
    (valid : value.Valid) (signed : value.AllNumbers Number.Signed) :
    Gives environment state arguments "toDynamoDB"
        (fun document => unmarshal document = .ok value) ∧
      (∀ fields, value = .object fields →
        Gives environment state arguments "toMapValues" fun document =>
          ∃ item, document = .object item ∧ unmarshalItem item = .ok value) ∧
      (∀ members, value = .array (texts members) →
        Gives environment state arguments "toStringSet"
          (fun document => unmarshal document = .ok value)) ∧
      ∀ numbers : List Number, value = .array (numbers.map .number) →
        Gives environment state arguments "toNumberSet"
          (fun document => unmarshal document = .ok value) := by
  refine ⟨?_, ?_, ?_, ?_⟩
  · exact gives_of_valueOf "toDynamoDB" rfl converted rfl (narrowed_marshal value)
      (unmarshal_marshal valid signed)
  · rintro fields rfl
    refine gives_of_valueOf "toMapValues" rfl converted rfl
      (congrArg Json.object (narrowed_marshalFields fields)) ⟨marshalFields fields, rfl, ?_⟩
    rw [unmarshalItem, unmarshalFields_marshalFields valid.2 signed]
    rfl
  · rintro members rfl
    have each : (texts members).map Json.string? = members.map some := by
      simp [texts, Function.comp_def, Json.string?]
    exact gives_of_valueOf "toStringSet" rfl converted (setOf_ok each "SS")
      (congrArg (fun items => tagged "SS" (.array items)) (narrowed_texts members)) rfl
  · rintro numbers rfl
    have each : (numbers.map Json.number).map Attributes.numberText? =
        (numbers.map numberText).map some := by
      simp [Function.comp_def, Attributes.numberText?]
    have read : (texts (numbers.map numberText)).mapM numberMember =
        .ok (numbers.map .number) := by
      refine numberMembers_ok (fun n member => ?_) fun n member => ?_
      · exact itemsValid_iff.mp valid _ (List.mem_map_of_mem member)
      · exact itemNumbers_iff.mp signed _ (List.mem_map_of_mem member)
    refine gives_of_valueOf "toNumberSet" rfl converted (setOf_ok each "NS")
      (congrArg (fun items => tagged "NS" (.array items)) (narrowed_texts _)) ?_
    rw [tagged, unmarshal, read]
    rfl

end

namespace Shelf

/-- A map with a list of strings, a list of numbers and a key that is the name of a type. -/
def state : State where
  heap.lists := #[[.string "N", .string ""], [.int (-9223372036854775808), .float 0.5]]
  heap.maps := #[[("tags", .list 0), ("S", .list 1), ("none", .null)]]

/-- The list of strings on the shelf. -/
def labels : Json := .array [.string "N", .string ""]

/-- The list of numbers on the shelf. -/
def ratios : Json := .array [.int (-9223372036854775808), .number (.float 0.5)]

/-- The map on the shelf. -/
def contents : Json := .object [("tags", labels), ("S", ratios), ("none", .null)]

/-- **What lies on the shelf** is read back. -/
theorem readBack :
    Gives ⟨0, "", fun _ => ""⟩ state [.list 0] "toStringSet"
        (fun document => unmarshal document = .ok labels) ∧
      Gives ⟨0, "", fun _ => ""⟩ state [.list 1] "toNumberSet"
        (fun document => unmarshal document = .ok ratios) ∧
      Gives ⟨0, "", fun _ => ""⟩ state [.map 0] "toDynamoDB"
        (fun document => unmarshal document = .ok contents) ∧
      Gives ⟨0, "", fun _ => ""⟩ state [.map 0] "toMapValues" fun document =>
        ∃ item, document = .object item ∧ unmarshalItem item = .ok contents := by
  have low : (Number.int (-9223372036854775808)).Valid := by
    show Json.minInt ≤ _ ∧ _ ≤ Json.maxNat
    decide
  have half : (Number.float 0.5).Valid := show Decimal.isFinite 0.5 = true by decide +kernel
  have signed : (Number.int (-9223372036854775808)).Signed := by
    show Json.minInt ≤ _ ∧ _ ≤ Json.maxInt
    decide
  have distinct : ["tags", "S", "none"].Nodup := by decide
  have validRatios : ratios.Valid := ⟨low, half, trivial⟩
  have signedRatios : ratios.AllNumbers Number.Signed := ⟨signed, trivial, trivial⟩
  obtain ⟨whole, values, -⟩ := attributes_readBack ⟨0, "", fun _ => ""⟩ state [.map 0] contents
    rfl ⟨distinct, ⟨trivial, trivial, trivial⟩, validRatios, trivial, trivial⟩
    ⟨⟨trivial, trivial, trivial⟩, signedRatios, trivial, trivial⟩
  obtain ⟨-, -, strings, -⟩ := attributes_readBack ⟨0, "", fun _ => ""⟩ state [.list 0] labels
    rfl ⟨trivial, trivial, trivial⟩ ⟨trivial, trivial, trivial⟩
  obtain ⟨-, -, -, numbers⟩ := attributes_readBack ⟨0, "", fun _ => ""⟩ state [.list 1] ratios
    rfl validRatios signedRatios
  exact ⟨strings ["N", ""] rfl, numbers [.int (-9223372036854775808), .float 0.5] rfl, whole,
    values _ rfl⟩

end Shelf

end FieldResolver.Template.Function

/-
**Commas behind the last parts of containers.**

A document may have a comma behind the last element of any of its arrays and behind the last field
of any of its objects, with blanks around it. It stands for the value for which it stands without
these commas. Nothing else is dropped: strings and keys stay as they are whatever they say.

* `Written.lace`: a written value with commas put into any of its containers; `formed_lace`,
  `fill_lace`: it is formed as before and has the same value;
* `toOption_document`: what a document stands for, if anything;
* `document_lace`: commas change nothing.
-/

import FieldResolver.Proofs.Json.Accepted
import FieldResolver.Proofs.Template.Documents
import Mathlib.Data.List.ModifyLast

namespace FieldResolver.Json

namespace Written

/-! ### Putting commas into containers -/

/-- More blanks behind a part. -/
def padBack {α : Type} (blank : List Char) (part : Padded α) : Padded α :=
  { part with back := part.back ++ blank }

/-- An array with a comma behind its last element, if it has any, and with blanks around it. The
comma goes between the blanks that belong to the element and those that belong to the array. -/
def laceArray (comma : Option (List Char × List Char)) (elements : List (Padded Written))
    (tail : List Char) : Written :=
  match comma, elements with
  | some (front, back), _ :: _ => .array (elements.modifyLast (padBack front)) true (back ++ tail)
  | _, _ => .array elements false tail

/-- An object with a comma behind its last field, if it has any, and with blanks around it. -/
def laceObject (comma : Option (List Char × List Char)) (fields : List (Label × Padded Written))
    (tail : List Char) : Written :=
  match comma, fields with
  | some (front, back), _ :: _ =>
    .object (fields.modifyLast (Prod.map id (padBack front))) true (back ++ tail)
  | _, _ => .object fields false tail

mutual

/-- A written value with commas put into its containers. Each container is told by the numbers of
the parts that lead to it, and gets a comma with blanks around it or none. -/
def lace (commas : List Nat → Option (List Char × List Char)) : Written → Written
  | .gap => .gap
  | .scalar text value => .scalar text value
  | .array elements _ tail => laceArray (commas []) (laceElements commas 0 elements) tail
  | .object fields _ tail => laceObject (commas []) (laceFields commas 0 fields) tail

/-- The elements of an array with commas put into their containers. -/
def laceElements (commas : List Nat → Option (List Char × List Char)) (number : Nat) :
    List (Padded Written) → List (Padded Written)
  | [] => []
  | ⟨front, content, back⟩ :: rest =>
    ⟨front, lace (fun path => commas (number :: path)) content, back⟩ ::
      laceElements commas (number + 1) rest

/-- The fields of an object with commas put into their containers. -/
def laceFields (commas : List Nat → Option (List Char × List Char)) (number : Nat) :
    List (Label × Padded Written) → List (Label × Padded Written)
  | [] => []
  | (label, ⟨front, content, back⟩) :: rest =>
    (label, ⟨front, lace (fun path => commas (number :: path)) content, back⟩) ::
      laceFields commas (number + 1) rest

end

section

variable {α β : Type} {change : α → α} {parts : List α}

theorem map_modifyLast {content : α → β} (same : ∀ part, content (change part) = content part)
    (parts : List α) : (parts.modifyLast change).map content = parts.map content := by
  rcases List.eq_nil_or_concat parts with rfl | ⟨others, last, rfl⟩
  · rfl
  · rw [List.concat_eq_append, List.modifyLast_concat, List.map_append, List.map_append,
      List.map_singleton, List.map_singleton, same]

theorem forall_mem_modifyLast {holds : α → Prop} (all : ∀ part ∈ parts, holds part)
    (changed : ∀ part ∈ parts, holds (change part)) :
    ∀ part ∈ parts.modifyLast change, holds part := by
  rcases List.eq_nil_or_concat parts with rfl | ⟨others, last, rfl⟩
  · exact fun _ member => nomatch member
  · rw [List.concat_eq_append] at all changed ⊢
    rw [List.modifyLast_concat]
    refine List.forall_mem_append.mpr ⟨(List.forall_mem_append.mp all).1, ?_⟩
    exact List.forall_mem_singleton.mpr (changed last (by simp))

theorem modifyLast_ne_nil (change : α → α) (part : α) (others : List α) :
    (part :: others).modifyLast change ≠ [] := by
  intro none
  have same : ((part :: others).modifyLast change).map (fun _ => ()) =
      (part :: others).map fun _ => () := by
    refine map_modifyLast ?_ _
    exact fun _ => rfl
  rw [none] at same
  cases same

end

section

variable {commas : List Nat → Option (List Char × List Char)} {content : Json}

/-- Whether there are only blanks around commas. -/
def BlankAround (comma : Option (List Char × List Char)) : Prop :=
  ∀ around ∈ comma, Blank around.1 ∧ Blank around.2

theorem mem_laceElements {number : Nat} {elements : List (Padded Written)} {laced : Padded Written}
    (member : laced ∈ laceElements commas number elements) : ∃ element ∈ elements, ∃ index,
      laced = ⟨element.front, lace (fun path => commas (index :: path)) element.content,
        element.back⟩ := by
  induction elements generalizing number with
  | nil => cases member
  | cons element rest ih =>
    rcases List.mem_cons.mp member with rfl | inRest
    · exact ⟨element, List.mem_cons_self, number, rfl⟩
    · obtain ⟨other, inside, shape⟩ := ih inRest
      exact ⟨other, List.mem_cons_of_mem _ inside, shape⟩

theorem mem_laceFields {number : Nat} {fields : List (Label × Padded Written)}
    {laced : Label × Padded Written} (member : laced ∈ laceFields commas number fields) :
    ∃ field ∈ fields, ∃ index,
      laced = (field.1, ⟨field.2.front, lace (fun path => commas (index :: path)) field.2.content,
        field.2.back⟩) := by
  induction fields generalizing number with
  | nil => cases member
  | cons field rest ih =>
    rcases List.mem_cons.mp member with rfl | inRest
    · exact ⟨field, List.mem_cons_self, number, rfl⟩
    · obtain ⟨other, inside, shape⟩ := ih inRest
      exact ⟨other, List.mem_cons_of_mem _ inside, shape⟩

end

section

variable {β : Type} {read : Written → β} {array : List β → β} {object : List (Label × β) → β}
  (arrays : ∀ elements comma tail, read (.array elements comma tail) =
    array (elements.map fun element => read element.content))
  (objects : ∀ fields comma tail, read (.object fields comma tail) =
    object (fields.map fun field => (field.1, read field.2.content)))

include arrays in
theorem same_laceArray (comma : Option (List Char × List Char)) (elements : List (Padded Written))
    (tail : List Char) : read (laceArray comma elements tail) =
      array (elements.map fun element => read element.content) := by
  unfold laceArray
  split
  · rw [arrays]
    refine congrArg array (map_modifyLast ?_ _)
    exact fun _ => rfl
  · exact arrays _ _ _

include objects in
theorem same_laceObject (comma : Option (List Char × List Char))
    (fields : List (Label × Padded Written)) (tail : List Char) :
    read (laceObject comma fields tail) =
      object (fields.map fun field => (field.1, read field.2.content)) := by
  unfold laceObject
  split
  · rw [objects]
    refine congrArg object (map_modifyLast ?_ _)
    exact fun _ => rfl
  · exact objects _ _ _

include arrays objects

/-- **What depends on the parts of containers only is the same with commas.** -/
theorem same_lace (commas : List Nat → Option (List Char × List Char)) (written : Written) :
    read (lace commas written) = read written := by
  induction written using holds_of_written generalizing commas with
  | gap | scalar => rfl
  | array elements comma tail ih =>
    have parts (number : Nat) : (laceElements commas number elements).map
        (fun element => read element.content) = elements.map fun element => read element.content := by
      induction elements generalizing number with
      | nil => rfl
      | cons element rest below =>
        obtain ⟨first, others⟩ := List.forall_mem_cons.mp ih
        exact congrArg₂ List.cons (first _) (below others _)
    rw [lace, same_laceArray arrays, arrays, parts]
  | object fields comma tail ih =>
    have parts (number : Nat) : (laceFields commas number fields).map
        (fun field => (field.1, read field.2.content)) =
          fields.map fun field => (field.1, read field.2.content) := by
      induction fields generalizing number with
      | nil => rfl
      | cons field rest below =>
        obtain ⟨first, others⟩ := List.forall_mem_cons.mp ih
        exact congrArg₂ List.cons (Prod.ext rfl (first _)) (below others _)
    rw [lace, same_laceObject objects, objects, parts]

end

/-- Commas change no value. -/
theorem fill_lace (content : Json) (commas : List Nat → Option (List Char × List Char))
    (written : Written) : (lace commas written).fill content = written.fill content :=
  @same_lace Json (fill content) .array
    (fun fields => .object (fields.map fun field => (field.1.key, field.2)))
    (fun elements comma tail => fill_array elements comma tail content)
    (fun fields comma tail => by rw [fill_object, List.map_map]; rfl) commas written

/-- The texts of the scalars and keys of a written value in order. -/
def spellings : Written → List (List Char) :=
  fold [] (fun text _ => [text]) (fun elements _ _ => (elements.map Padded.content).flatten)
    (fun fields _ _ => fields.flatMap fun field => field.1.body :: field.2.content)

theorem spellings_array (elements : List (Padded Written)) (comma : Bool) (tail : List Char) :
    (array elements comma tail).spellings =
      (elements.map fun element => element.content.spellings).flatten := by
  rw [spellings, fold_array, List.map_map]
  rfl

theorem spellings_object (fields : List (Label × Padded Written)) (comma : Bool)
    (tail : List Char) :
    (object fields comma tail).spellings =
      (fields.map fun field => (field.1, field.2.content.spellings)).flatMap fun field =>
        field.1.body :: field.2 := by
  rw [spellings, fold_object, List.flatMap_map, List.flatMap_map]

/-- Commas change no spelling. -/
theorem spellings_lace (commas : List Nat → Option (List Char × List Char)) (written : Written) :
    (lace commas written).spellings = written.spellings :=
  same_lace spellings_array spellings_object commas written

/-- Tidying up changes no spelling either. -/
theorem spellings_tidy (written : Written) : written.tidy.spellings = written.spellings := by
  induction written using holds_of_written with
  | gap | scalar => rfl
  | array elements comma tail ih =>
    rw [tidy_array, spellings_array, spellings_array, List.map_map]
    exact congrArg List.flatten (List.map_congr_left ih)
  | object fields comma tail ih =>
    rw [tidy_object, spellings_object, spellings_object, List.map_map]
    refine congrArg (List.flatMap _) (List.map_congr_left fun field member => ?_)
    exact Prod.ext rfl (ih field member)

section

theorem formed_laceArray {comma : Option (List Char × List Char)} (around : BlankAround comma)
    {elements : List (Padded Written)} {tail : List Char}
    (formed : ∀ element ∈ elements,
      Blank element.front ∧ element.content.Formed ∧ Blank element.back)
    (tailBlank : Blank tail) : (laceArray comma elements tail).Formed := by
  unfold laceArray
  split
  · rename_i front back element others
    obtain ⟨frontBlank, backBlank⟩ := around _ rfl
    refine (formed_array _ _ _).mpr ⟨forall_mem_modifyLast formed fun part member => ?_,
      backBlank.append tailBlank, fun _ => modifyLast_ne_nil _ _ _⟩
    obtain ⟨ahead, inside, behind⟩ := formed part member
    exact ⟨ahead, inside, behind.append frontBlank⟩
  · exact (formed_array _ _ _).mpr ⟨formed, tailBlank, fun comma => nomatch comma⟩

theorem formed_laceObject {comma : Option (List Char × List Char)} (around : BlankAround comma)
    {fields : List (Label × Padded Written)} {tail : List Char}
    (formed : ∀ field ∈ fields, field.1.Formed ∧ Blank field.2.front ∧ field.2.content.Formed ∧
      Blank field.2.back)
    (tailBlank : Blank tail) : (laceObject comma fields tail).Formed := by
  unfold laceObject
  split
  · rename_i front back field others
    obtain ⟨frontBlank, backBlank⟩ := around _ rfl
    refine (formed_object _ _ _).mpr ⟨forall_mem_modifyLast formed fun part member => ?_,
      backBlank.append tailBlank, fun _ => modifyLast_ne_nil _ _ _⟩
    obtain ⟨label, ahead, inside, behind⟩ := formed part member
    exact ⟨label, ahead, inside, behind.append frontBlank⟩
  · exact (formed_object _ _ _).mpr ⟨formed, tailBlank, fun comma => nomatch comma⟩

/-- A written value with commas is formed as before. -/
theorem formed_lace {commas : List Nat → Option (List Char × List Char)}
    (around : ∀ path, BlankAround (commas path)) {written : Written} (formed : written.Formed) :
    (lace commas written).Formed := by
  induction written using holds_of_written generalizing commas with
  | gap | scalar => exact formed
  | array elements comma tail ih =>
    obtain ⟨formed, tailBlank, -⟩ := (formed_array elements comma tail).mp formed
    refine formed_laceArray (around []) (fun laced member => ?_) tailBlank
    obtain ⟨element, inside, index, rfl⟩ := mem_laceElements member
    obtain ⟨front, content, back⟩ := formed element inside
    exact ⟨front, ih element inside (fun path => around (index :: path)) content, back⟩
  | object fields comma tail ih =>
    obtain ⟨formed, tailBlank, -⟩ := (formed_object fields comma tail).mp formed
    refine formed_laceObject (around []) (fun laced member => ?_) tailBlank
    obtain ⟨field, inside, index, rfl⟩ := mem_laceFields member
    obtain ⟨label, front, content, back⟩ := formed field inside
    exact ⟨label, front, ih field inside (fun path => around (index :: path)) content, back⟩

end

end Written

end FieldResolver.Json

namespace FieldResolver.Template.Output

open Json (Blank Written)

section

variable {front back gap : List Char} {content : Json} {written : Written}

/-- **What a document stands for**: its value, if it is nested no deeper than the reader goes. -/
theorem toOption_document (inlay : Inlay gap content) (formed : written.Formed)
    (frontWhite : White front) (backWhite : White back) :
    (document (front ++ (written.write gap ++ back))).toOption =
      if (written.fill content).depth ≤ Json.maxNesting then some (written.fill content).merged
      else none := by
  by_cases within : (written.fill content).depth ≤ Json.maxNesting
  · rw [document_write inlay formed frontWhite backWhite within, if_pos within]
    rfl
  · rw [if_neg within]
    have refused {other : Written} (formed : other.Formed)
        (same : other.fill content = written.fill content) :
        ∃ error, Json.read (other.write gap) = .error error := by
      unfold Json.read
      cases read : Json.readWritten (other.write gap) with
      | error error => exact ⟨error, rfl⟩
      | ok value =>
        have whole := (Json.readWritten_write inlay.toSolid formed Json.blank_nil
          Json.blank_nil).mp ((congrArg Json.readWritten (List.append_nil _)).trans read)
        exact absurd (same ▸ whole.2.1) within
    obtain ⟨error, strict⟩ := refused formed rfl
    obtain ⟨error', tidied⟩ :=
      refused (Written.formed_tidy formed) (Written.fill_tidy content written)
    obtain ⟨c, rest, start, -⟩ := Written.opens_write inlay.toSolid written formed
    have some : (written.write gap).isEmpty = false := by rw [start]; rfl
    unfold document
    simp only [trim_write inlay formed frontWhite backWhite, some, if_neg Bool.false_ne_true,
      strict, dropCommas_write inlay formed, tidied]
    rfl

end

/-- **Commas behind the last parts of containers change nothing.** Every text that is read as JSON
is a written value with blanks around it and without such commas. For every such text, nested as
deeply as it may be, and for commas in any of its containers, what it stands for as a document is
the same, and in what is read the scalars and keys are spelled as they were. Strings and keys in
particular are passed on whatever they say. -/
theorem document_lace :
    (∀ text value, Json.read text = .ok value →
      ∃ front back, ∃ written : Written, Blank front ∧ Blank back ∧ written.Formed ∧
        written.isExact = true ∧ text = front ++ (written.write Json.null.chars ++ back)) ∧
    ∀ (front back : List Char) (written : Written)
      (commas : List Nat → Option (List Char × List Char)),
      White front → White back → written.Formed →
      (∀ path, Written.BlankAround (commas path)) →
      let laced := (written.lace commas).write Json.null.chars
      (document (front ++ (laced ++ back))).toOption =
          (document (front ++ (written.write Json.null.chars ++ back))).toOption ∧
        ∃ tidied : Written, dropCommas .outside laced = tidied.write Json.null.chars ∧
          tidied.isExact = true ∧ tidied.spellings = written.spellings ∧
          ∀ body, Json.Body body → Tidies ('"' :: body) ('"' :: body) := by
  have inlay : Inlay Json.null.chars .null := inlay_null
  constructor
  · intro text value read
    obtain ⟨found, readWritten, -⟩ := Fallible.map_ok read
    obtain ⟨front, back, written, frontBlank, backBlank, taken, -, same⟩ :=
      (Json.readWritten_iff inlay.toSolid).mp readWritten
    exact ⟨front, back, written, frontBlank, backBlank, taken.formed, taken.exact, same⟩
  · intro front back written commas frontWhite backWhite formed around
    have laced := Written.formed_lace around formed
    refine ⟨?_, (written.lace commas).tidy, dropCommas_write inlay laced, Written.isExact_tidy _, ?_,
      fun body string => tidies_string string⟩
    · rw [toOption_document inlay laced frontWhite backWhite,
        toOption_document inlay formed frontWhite backWhite, Written.fill_lace]
    · rw [Written.spellings_tidy, Written.spellings_lace]

/-- A string that looks like the end of an array stays as it is. -/
example :
    (document "[1, \x7b\"a,]\": \",\\\"]\" ,\n\x7d , ]".toList).map Json.render =
      .ok "[1,\x7b\"a,]\":\",\\\"]\"\x7d]" := by
  decide +kernel

end FieldResolver.Template.Output

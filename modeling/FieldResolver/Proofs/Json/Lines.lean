/-
**Where JSON text breaks into lines.**

A string keeps its line breaks behind escapes, so a line of JSON text ends only where a container is
open. A compact text is a line of its own that opens no more containers than it closes. So lines
that start with something visible and end with a compact text are never JSON as a whole: what opens
in the lines above would have to be closed in the last one.

* `Reader.OneLine`: whether what a reader takes is on one line, as strings are; `oneLine_scalar` and
  `oneLine_chars`: so are scalars and compact texts;
* `Climbs`: how many containers a text leaves open, and how many are open where its lines end;
* `climbs_write`: the lines of a written value end inside its containers;
* `read_lines_ne_ok`: lines that are not JSON as a whole.
-/

import FieldResolver.Proofs.Json.Accepted
import FieldResolver.Proofs.Json.Compact
import FieldResolver.Template.Output

namespace FieldResolver.Json

open Fallible
open Template.Output (Place)

/-! ### Texts on one line -/

/-- Whether what a reader takes is on one line. -/
def Reader.OneLine {α : Type} (read : Reader α) : Prop :=
  ∀ text value rest, read text = .ok (value, rest) → ∃ front, text = front ++ rest ∧ '\n' ∉ front

theorem readUnit_oneLine : Reader.OneLine readUnit := by
  have visible : ∀ {c : Char} {n : Nat}, hexValue? c = some n → '\n' ≠ c := by
    rintro c n digit rfl
    cases digit
  intro text unit rest read
  unfold readUnit at read
  split at read
  · rename_i a b c d more
    split at read
    · rename_i hexA hexB hexC hexD
      cases read
      refine ⟨[a, b, c, d], rfl, ?_⟩
      simp only [List.mem_cons, List.not_mem_nil, or_false, not_or]
      exact ⟨visible hexA, visible hexB, visible hexC, visible hexD⟩
    · cases read
  · cases read

theorem readUnicodeEscape_oneLine : Reader.OneLine readUnicodeEscape := by
  intro text value rest read
  obtain ⟨⟨unit, behind⟩, first, _⟩ := bind_ok read
  rw [readUnicodeEscape_of_unit first] at read
  obtain ⟨front, split, line⟩ := readUnit_oneLine _ _ _ first
  split at read
  · cases read
  · split at read
    · split at read
      · rename_i more
        obtain ⟨⟨second, last⟩, found, done⟩ := bind_ok read
        obtain ⟨front', rfl, line'⟩ := readUnit_oneLine _ _ _ found
        simp only at done
        split at done
        · obtain ⟨-, rfl⟩ := Prod.mk.inj (Except.ok.inj done)
          exact ⟨front ++ '\\' :: 'u' :: front', by simp [split], by simp [line, line']⟩
        · cases done
      all_goals cases read
    · cases read
      exact ⟨front, split, line⟩

theorem readEscape_oneLine : Reader.OneLine readEscape := by
  intro text value rest read
  cases text with
  | nil => cases read
  | cons c tail =>
    unfold readEscape at read
    simp only at read
    split at read
    case h_9 =>
      obtain ⟨front, rfl, line⟩ := readUnicodeEscape_oneLine _ _ _ read
      exact ⟨'u' :: front, rfl, by simp [line]⟩
    case h_10 => cases read
    all_goals
      cases read
      exact ⟨[_], rfl, by decide⟩

theorem readString_oneLine {budget : Nat} {sofar text found rest : List Char}
    (read : readString budget sofar text = .ok (found, rest)) :
    ∃ front, text = front ++ rest ∧ '\n' ∉ front := by
  induction budget generalizing sofar text with
  | zero => cases text <;> cases read
  | succ budget ih =>
    cases text with
    | nil => cases read
    | cons c tail =>
      rw [readString] at read
      split at read
      · rename_i quote
        cases read
        exact ⟨[c], rfl, by rw [quote]; decide⟩
      · split at read
        · rename_i backslash
          obtain ⟨⟨escaped, behind⟩, here, there⟩ := bind_ok read
          obtain ⟨front, rfl, line⟩ := readEscape_oneLine _ _ _ here
          obtain ⟨front', rfl, line'⟩ := ih there
          exact ⟨c :: (front ++ front'), by simp, by simp [backslash, line, line']⟩
        · split at read
          · cases read
          · rename_i visible
            obtain ⟨front, rfl, line⟩ := ih read
            refine ⟨c :: front, rfl, List.not_mem_cons_of_ne_of_not_mem ?_ line⟩
            rintro rfl
            exact visible (by decide)

/-- **A string is on one line.** -/
theorem readText_oneLine : Reader.OneLine readText := by
  intro text key rest read
  obtain ⟨⟨found, behind⟩, here, done⟩ := bind_ok read
  cases done
  exact readString_oneLine here

theorem oneLine_body {body : List Char} {key : String} (spelled : readText body = .ok (key, [])) :
    '\n' ∉ body := by
  obtain ⟨front, split, line⟩ := readText_oneLine _ _ _ spelled
  rwa [split, List.append_nil]

/-- A scalar is on one line. -/
theorem oneLine_scalar {text : List Char} {value : Json} (visible : skipBlanks text = text)
    (read : readValue 0 text = .ok (value, [])) : '\n' ∉ text := by
  cases (readValue_scalar visible read).1 with
  | word known => rcases known with rfl | rfl | rfl <;> decide
  | quoted string =>
    obtain ⟨⟨key, rest⟩, here, done⟩ := bind_ok read
    cases done
    exact List.not_mem_cons_of_ne_of_not_mem (by decide) (oneLine_body here)
  | numeric start below =>
    refine List.not_mem_cons_of_ne_of_not_mem ?_ fun member => ?_
    · rintro rfl
      rcases start with same | digit
      · cases same
      · cases digit
    · cases below _ member

theorem oneLine_quote (text : String) : '\n' ∉ quote text.toList :=
  List.not_mem_cons_of_ne_of_not_mem (by decide) (oneLine_body (readText_escaped text []))

theorem oneLine_commaSeparated {texts : List (List Char)} (lines : ∀ text ∈ texts, '\n' ∉ text) :
    '\n' ∉ commaSeparated texts := by
  induction texts with
  | nil => exact List.not_mem_nil
  | cons text rest ih =>
    obtain ⟨first, others⟩ := List.forall_mem_cons.mp lines
    rw [commaSeparated_cons, List.mem_append, not_or]
    refine ⟨first, ?_⟩
    cases rest with
    | nil => exact List.not_mem_nil
    | cons next more => exact List.not_mem_cons_of_ne_of_not_mem (by decide) (ih others)

/-- **A compact text is on one line.** -/
theorem oneLine_chars {value : Json} (valid : value.Valid) : '\n' ∉ value.chars := by
  induction value using holds_of_parts with
  | null => decide
  | bool b => cases b <;> decide
  | number n => exact fun member => nomatch (Number.chars_numeric valid).2 _ member
  | string text => exact oneLine_quote text
  | array items ih =>
    have valids := itemsValid_iff.mp valid
    have inside : '\n' ∉ commaSeparated (items.map chars) := oneLine_commaSeparated
      (List.forall_mem_map.mpr fun item member => ih item member (valids item member))
    rw [chars, itemTexts_eq_map]
    simp [inside]
  | object fields ih =>
    have valids := fieldsValid_iff.mp valid.2
    have inside : '\n' ∉ commaSeparated (fields.map fieldText) := by
      refine oneLine_commaSeparated (List.forall_mem_map.mpr fun field member => ?_)
      rw [fieldText, List.mem_append, not_or]
      exact ⟨oneLine_quote field.1, List.not_mem_cons_of_ne_of_not_mem (by decide)
        (ih field member (valids field member))⟩
    rw [chars, fieldTexts_eq_map]
    simp [inside]

/-! ### Open containers -/

/-- How many containers a character opens, with closed ones counted off. -/
def weight (c : Char) : Int :=
  if c = '[' ∨ c = '\x7b' then 1 else if c = ']' ∨ c = '\x7d' then -1 else 0

/-- How many containers a text opens outside strings, with closed ones counted off. -/
def rise : Place → List Char → Int
  | _, [] => 0
  | .outside, c :: rest => weight c + rise (Place.after .outside c) rest
  | place, c :: rest => rise (place.after c) rest

/-- The place behind a text. -/
def placeBehind (place : Place) (text : List Char) : Place := text.foldl Place.after place

theorem placeBehind_append (place : Place) (front back : List Char) :
    placeBehind place (front ++ back) = placeBehind (placeBehind place front) back :=
  List.foldl_append

theorem rise_append (place : Place) (front back : List Char) :
    rise place (front ++ back) = rise place front + rise (placeBehind place front) back := by
  induction front generalizing place with
  | nil => cases place <;> exact (Int.zero_add _).symm
  | cons c rest ih =>
    cases place with
    | outside =>
      rw [List.cons_append, rise, rise, ih, Int.add_assoc]
      rfl
    | inString | escaped => exact ih _

/-- Whether a text between strings opens `net` containers more than it closes, and at least `floor`
more at the end of each of its lines. -/
structure Climbs (floor net : Int) (text : List Char) : Prop where
  outside : placeBehind .outside text = .outside
  rise : rise .outside text = net
  lines : ∀ front back, text = front ++ '\n' :: back →
    placeBehind .outside front = .outside ∧ floor ≤ Json.rise .outside front

namespace Climbs

variable {floor net : Int} {text more : List Char}

theorem append {net' : Int} (first : Climbs floor net text)
    (second : Climbs (floor - net) net' more) : Climbs floor (net + net') (text ++ more) where
  outside := by rw [placeBehind_append, first.outside, second.outside]
  rise := by rw [rise_append, first.outside, first.rise, second.rise]
  lines := by
    intro front back same
    rcases List.append_eq_append_iff.mp same with ⟨between, rfl, split⟩ | ⟨between, rfl, split⟩
    · obtain ⟨outside, least⟩ := second.lines between back split
      rw [placeBehind_append, rise_append, first.outside, first.rise]
      exact ⟨outside, by omega⟩
    · cases between with
      | nil =>
        -- The line ends with the first text.
        obtain ⟨-, least⟩ := second.lines [] back split.symm
        have whole := first.rise
        have outside := first.outside
        rw [List.append_nil] at whole outside
        rw [whole]
        exact ⟨outside, Int.le_of_sub_nonpos least⟩
      | cons c rest =>
        obtain ⟨rfl, -⟩ := List.cons.inj split
        exact first.lines front rest rfl

/-- Text on one line. -/
theorem of_oneLine (line : '\n' ∉ text) (outside : placeBehind .outside text = .outside)
    (rise : Json.rise .outside text = net) : Climbs floor net text where
  outside := outside
  rise := rise
  lines := by
    rintro front back rfl
    exact absurd (List.mem_append_right front List.mem_cons_self) line

theorem lower {floor' : Int} (climbs : Climbs floor net text) (below : floor' ≤ floor) :
    Climbs floor' net text where
  outside := climbs.outside
  rise := climbs.rise
  lines front back same :=
    let ⟨outside, least⟩ := climbs.lines front back same
    ⟨outside, below.trans least⟩

/-- Texts that leave nothing open, one behind the other. -/
theorem join (first : Climbs 0 0 text) (second : Climbs 0 0 more) : Climbs 0 0 (text ++ more) :=
  first.append second

/-- The text of a container is one level above what stands in it. -/
theorem enclosed {first last : Char} (opening : weight first = 1) (closing : weight last = -1)
    (inside : Climbs 0 0 text) : Climbs 1 0 (first :: (text ++ [last])) := by
  have mark : ∀ (floor net : Int) {c : Char}, weight c = net → net ≠ 0 →
      Climbs floor net [c] := by
    rintro floor net c rfl some
    refine .of_oneLine ?_ ?_ ?_
    · rw [List.mem_singleton]
      rintro rfl
      exact some rfl
    · refine if_neg ?_
      rintro rfl
      exact some rfl
    · exact Int.add_zero _
  exact (mark 1 1 opening (by decide)).append (inside.append (mark _ _ closing (by decide)))

end Climbs

section

variable {floor : Int} {text : List Char}

/-- Whether a text has neither quotes nor brackets. -/
def Bare (text : List Char) : Prop := ∀ c ∈ text, c ≠ '"' ∧ weight c = 0

instance (text : List Char) : Decidable (Bare text) := List.decidableBAll _ text

/-- Text without quotes and brackets leaves nothing open anywhere. -/
theorem climbs_bare (bare : Bare text) : Climbs 0 0 text := by
  have flat : ∀ text, Bare text →
      placeBehind .outside text = .outside ∧ rise .outside text = 0 := by
    intro text bare
    induction text with
    | nil => exact ⟨rfl, rfl⟩
    | cons c rest ih =>
      obtain ⟨⟨noQuote, level⟩, bare⟩ := List.forall_mem_cons.mp bare
      have stays : Place.after .outside c = .outside := if_neg noQuote
      obtain ⟨outside, even⟩ := ih bare
      constructor
      · rw [placeBehind, List.foldl_cons, stays]
        exact outside
      · rw [rise, stays, even, level]
        rfl
  obtain ⟨outside, even⟩ := flat text bare
  refine ⟨outside, even, ?_⟩
  rintro front back rfl
  obtain ⟨outside, even⟩ := flat front fun c member => bare c (List.mem_append_left _ member)
  exact ⟨outside, even.ge⟩

/-- On one line such text is at every level. -/
theorem climbs_bare_oneLine (bare : Bare text) (line : '\n' ∉ text) : Climbs floor 0 text :=
  .of_oneLine line (climbs_bare bare).outside (climbs_bare bare).rise

theorem climbs_blank (blank : Blank text) : Climbs 0 0 text := by
  refine climbs_bare fun c member => ?_
  have white := blank c member
  unfold isBlank at white
  simp only [Bool.or_eq_true, decide_eq_true_eq] at white
  rcases white with ((rfl | rfl) | rfl) | rfl <;> decide

/-- A string is at every level, whatever brackets stand in it. -/
theorem climbs_string (string : Body text) (line : '\n' ∉ text) : Climbs floor 0 ('"' :: text) := by
  have flat : placeBehind .inString text = .outside ∧ rise .inString text = 0 := by
    induction string with
    | close => exact ⟨rfl, rfl⟩
    | plain noQuote noBackslash _ ih =>
      rename_i c rest _
      obtain ⟨outside, even⟩ := ih (List.not_mem_of_not_mem_cons line)
      have stays : Place.after .inString c = .inString := by
        rw [Place.after, if_neg noBackslash, if_neg noQuote]
      constructor
      · rw [placeBehind, List.foldl_cons, stays]
        exact outside
      · show rise (Place.after .inString c) rest = 0
        rw [stays, even]
    | escape c _ ih =>
      exact ih (List.not_mem_of_not_mem_cons (List.not_mem_of_not_mem_cons line))
  refine .of_oneLine (List.not_mem_cons_of_ne_of_not_mem (by decide) line) flat.1 ?_
  show weight '"' + rise .inString text = 0
  rw [flat.2]
  rfl

theorem bare_of_inNumber {c : Char} (inside : inNumber c = true) : c ≠ '"' ∧ weight c = 0 := by
  refine ⟨?_, ?_⟩
  · rintro rfl
    cases inside
  · unfold weight
    rw [if_neg, if_neg]
    · rintro (rfl | rfl) <;> cases inside
    · rintro (rfl | rfl) <;> cases inside

theorem climbs_scalar {value : Json} (visible : skipBlanks text = text)
    (read : readValue 0 text = .ok (value, [])) : Climbs floor 0 text := by
  have line := oneLine_scalar visible read
  cases (readValue_scalar visible read).1 with
  | word known =>
    refine climbs_bare_oneLine ?_ line
    rcases known with rfl | rfl | rfl <;> decide
  | quoted string => exact climbs_string string (List.not_mem_of_not_mem_cons line)
  | numeric start below =>
    refine climbs_bare_oneLine (List.forall_mem_cons.mpr ⟨?_, fun d member => ?_⟩) line
    · rcases start with rfl | digit
      · decide
      · exact bare_of_inNumber (inNumber_of_isDigit digit)
    · exact bare_of_inNumber (below d member)

theorem climbs_label {label : Label} (formed : label.Formed) : Climbs 0 0 label.text := by
  obtain ⟨front, split, body, -⟩ := readText_ok formed.spelled
  rw [List.append_nil] at split
  have string : Climbs 0 0 ('"' :: label.body) :=
    climbs_string (split ▸ body) (oneLine_body formed.spelled)
  have colon : Climbs 0 0 [':'] := climbs_bare (by decide)
  exact (climbs_blank formed.front).join
    (string.join ((climbs_blank formed.back).join colon))

theorem climbs_separated {texts : List (List Char)} (all : ∀ text ∈ texts, Climbs 0 0 text) :
    Climbs 0 0 (commaSeparated texts) := by
  induction texts with
  | nil => exact climbs_blank blank_nil
  | cons text rest ih =>
    obtain ⟨first, others⟩ := List.forall_mem_cons.mp all
    rw [commaSeparated_cons]
    refine first.join ?_
    cases rest with
    | nil => exact climbs_blank blank_nil
    | cons next more =>
      have comma : Climbs 0 0 [','] := climbs_bare (by decide)
      exact comma.join (ih others)

theorem climbs_closing {comma : Bool} {tail : List Char} (blank : Blank tail) :
    Climbs 0 0 (closing comma tail) := by
  cases comma with
  | false => exact climbs_blank blank
  | true =>
    have mark : Climbs 0 0 [','] := climbs_bare (by decide)
    exact mark.join (climbs_blank blank)

/-- **The lines of a written value end inside its containers.** -/
theorem climbs_write {gap : List Char} (filled : Climbs 1 0 gap) {written : Written}
    (formed : written.Formed) : Climbs 1 0 (written.write gap) := by
  induction written using Written.holds_of_written with
  | gap => exact filled
  | scalar text value => exact climbs_scalar formed.1 formed.2
  | array elements comma tail ih =>
    obtain ⟨formed, tailBlank, -⟩ := (Written.formed_array elements comma tail).mp formed
    rw [Written.write_array, ← List.append_assoc]
    refine .enclosed rfl rfl (.join (climbs_separated ?_) (climbs_closing tailBlank))
    refine List.forall_mem_map.mpr fun element member => ?_
    obtain ⟨front, content, back⟩ := formed element member
    exact (climbs_blank front).join
      (((ih element member content).lower (by decide)).join (climbs_blank back))
  | object fields comma tail ih =>
    obtain ⟨formed, tailBlank, -⟩ := (Written.formed_object fields comma tail).mp formed
    rw [Written.write_object, ← List.append_assoc]
    refine .enclosed rfl rfl (.join (climbs_separated ?_) (climbs_closing tailBlank))
    refine List.forall_mem_map.mpr fun field member => ?_
    obtain ⟨label, front, content, back⟩ := formed field member
    exact (climbs_label label).join ((climbs_blank front).join
      (((ih field member content).lower (by decide)).join (climbs_blank back)))

end

/-! ### Lines above a compact text -/

theorem climbs_null : Climbs 1 0 ['n', 'u', 'l', 'l'] :=
  climbs_bare_oneLine (by decide) (by decide)

theorem climbs_chars {value : Json} (valid : value.Valid) (kept : value.AllNumbers Number.Kept) :
    Climbs 1 0 value.chars := by
  have climbs := climbs_write climbs_null (Written.formed_ofJson valid kept)
  rwa [Written.write_ofJson] at climbs

section

variable {value : Json} (valid : value.Valid) (kept : value.AllNumbers Number.Kept)

include valid kept

/-- A text with blanks behind it that ends with a compact text has the line break above it inside:
blanks cannot make up the last line. -/
theorem break_inside {front text back : List Char} (blank : Blank back)
    (same : front ++ '\n' :: value.chars = text ++ back) :
    ∃ rest, text = front ++ '\n' :: rest := by
  have last : ∀ between, back ≠ between ++ '\n' :: value.chars := by
    rintro between rfl
    obtain ⟨c, rest, head, opened⟩ := (solid_chars valid kept).start
    refine absurd (blank c ?_) (by simp [visible_of_opens opened])
    simp [head]
  rcases List.append_eq_append_iff.mp same with ⟨between, split, below⟩ | ⟨between, -, below⟩
  · cases between with
    | nil => exact absurd below.symm (last [])
    | cons c rest =>
      obtain ⟨rfl, -⟩ := List.cons.inj below
      exact ⟨rest, split⟩
  · exact absurd below (last between)

/-- **Lines that start with something visible and end with a compact text are not JSON.** -/
theorem read_lines_ne_ok {found : Json} {c : Char} (visible : isBlank c = false)
    (log : List Char) : read (c :: log ++ '\n' :: value.chars) ≠ .ok found := by
  have null : Solid ['n', 'u', 'l', 'l'] .null := solid_scalar rfl rfl
  intro read
  obtain ⟨first, whole, -⟩ := map_ok read
  obtain ⟨front, back, written, frontBlank, backBlank, taken, -, same⟩ :=
    (readWritten_iff null).mp whole
  have climbs := climbs_write climbs_null taken.formed
  obtain rfl : front = [] := by
    cases front with
    | nil => rfl
    | cons d more =>
      obtain ⟨rfl, -⟩ := List.cons.inj same
      exact absurd (frontBlank c List.mem_cons_self) (by simp [visible])
  rw [List.nil_append] at same
  obtain ⟨rest, inside⟩ := break_inside valid kept backBlank same
  obtain ⟨outside, above⟩ := climbs.lines _ _ inside
  -- So containers are open in front of the last line, which closes none of them.
  have none : rise .outside (c :: log ++ '\n' :: value.chars) = 0 := by
    rw [same]
    exact ((climbs.lower (by decide)).join (climbs_blank backBlank)).rise
  have some : rise .outside (c :: log ++ '\n' :: value.chars) = rise .outside (c :: log) := by
    have line : rise .outside ('\n' :: value.chars) = 0 := by
      show weight '\n' + rise .outside value.chars = 0
      rw [(climbs_chars valid kept).rise]
      rfl
    rw [rise_append, outside, line, Int.add_zero]
  omega

end

end FieldResolver.Json

/-
**What the reader takes is written JSON.**

Whatever text the reader takes as a value is a written value with blanks in front of it, without
commas in front of closing brackets and braces. So the texts that are read as a whole are the written
values with blanks around them, nested no deeper than the reader goes.

* `Reader.Alone`: whether what a reader takes is read in the same way where the text ends behind it;
  `readNumber_alone` and the lemmas before it go through the parts of a number;
* `readValue_scalar_alone`: the scalar that is read in front of anything;
* `TakesWritten`: whether what a reader takes is a written value;
* `items_of_readItems`, `fields_of_readFields`: the parts of a container, by induction;
* `takesWritten_readValue`, `readWritten_iff`: all values, and all texts;
* `readWritten_write`: a written value is read as a whole just if it is exact and not too deep.
-/

import FieldResolver.Proofs.Json.Reading

namespace FieldResolver.Json

open Decimal Fallible

/-! ### Numbers that are read alone -/

/-- Whether what a reader takes is a scalar, and is read in the same way where the text ends behind
it. -/
def Reader.Alone (read : Reader Json) : Prop :=
  ∀ text value rest, read text = .ok (value, rest) →
    value.depth = 0 ∧ ∃ front, text = front ++ rest ∧ read front = .ok (value, [])

section

variable {text front rest behind : List Char}

/-- A run of digits goes no further where the text ends behind what follows it. -/
theorem run_alone (split : text.dropWhile isDigit = front ++ rest) :
    (text.takeWhile isDigit ++ front).takeWhile isDigit = text.takeWhile isDigit ∧
      (text.takeWhile isDigit ++ front).dropWhile isDigit = front := by
  have ends := Runs.stops_head isDigit text
  rw [split] at ends
  have ends' : ∀ c ∈ front.head?, isDigit c = false := by
    cases front with
    | nil => exact fun _ member => nomatch member
    | cons c more => exact ends
  exact Runs.of_append (fun _ => List.mem_takeWhile_imp) ends'

/-- The digits that fit are the same where the text ends behind what follows them. -/
theorem takeDigits_alone {significand taken : Nat}
    (split : (takeDigits significand taken (front ++ rest)).2.2 = behind ++ rest) :
    takeDigits significand taken front =
      ((takeDigits significand taken (front ++ rest)).1,
        (takeDigits significand taken (front ++ rest)).2.1, behind) := by
  induction front generalizing significand taken with
  | nil =>
    rw [List.nil_append] at split ⊢
    cases rest with
    | nil =>
      rw [List.append_nil] at split
      rw [← split]
    | cons c more =>
      rw [takeDigits] at split ⊢
      by_cases fits : (isDigit c &&
          decide (10 * significand + digitValue c < 0x10000000000000000)) = true
      · rw [if_pos fits] at split
        obtain ⟨digits, parts, _⟩ :=
          takeDigits_front (10 * significand + digitValue c) (taken + 1) more
        rw [split] at parts
        have lengths := congrArg List.length parts
        simp only [List.length_append, List.length_cons] at lengths
        omega
      · rw [if_neg fits] at split ⊢
        rw [List.append_left_eq_self.mp split.symm]
        rfl
  | cons c more ih =>
    rw [List.cons_append, takeDigits] at split ⊢
    rw [takeDigits]
    by_cases fits : (isDigit c &&
        decide (10 * significand + digitValue c < 0x10000000000000000)) = true
    · rw [if_pos fits] at split ⊢
      rw [if_pos fits]
      exact ih split
    · rw [if_neg fits] at split ⊢
      rw [if_neg fits, ← List.append_cancel_right (List.cons_append.trans split)]

end

/-- All digits that come next, as far as they fit and beyond, are the same where the text ends
behind what follows them. -/
theorem digits_alone {significand taken : Nat} {text front rest : List Char}
    (left : (takeDigits significand taken text).2.2.dropWhile isDigit = front ++ rest) :
    ∃ whole behind, text = whole ++ rest ∧
      takeDigits significand taken whole =
        ((takeDigits significand taken text).1, (takeDigits significand taken text).2.1, behind) ∧
      behind.takeWhile isDigit = (takeDigits significand taken text).2.2.takeWhile isDigit ∧
      behind.dropWhile isDigit = front := by
  obtain ⟨digits, parts, -⟩ := takeDigits_front significand taken text
  have behind : (takeDigits significand taken text).2.2 =
      ((takeDigits significand taken text).2.2.takeWhile isDigit ++ front) ++ rest := by
    rw [List.append_assoc, ← left, List.takeWhile_append_dropWhile]
  have whole := parts
  rw [behind, ← List.append_assoc] at whole
  refine ⟨_, _, whole, ?_, run_alone left⟩
  have split := behind
  rw [whole] at split
  rw [takeDigits_alone split, ← whole]

theorem digitNext_eq (text : List Char) :
    digitNext text = !(text.takeWhile isDigit).isEmpty := by
  cases text with
  | nil => rfl
  | cons c rest => by_cases digit : isDigit c = true <;> simp [digitNext, digit]

theorem depth_of_readScaled {negative : Bool} {significand : Nat} {exponent : Int}
    {rest rest' : List Char} {value : Json}
    (read : readScaled negative significand exponent rest = .ok (value, rest')) :
    value.depth = 0 := by
  unfold readScaled at read
  split at read <;> cases read
  rfl

/-- A sign in front of digits is the same in front of any others. -/
theorem splitSign_alone {text after : List Char} {down : Bool} {c : Char}
    (digit : isDigit c = true) (split : splitSign text = (down, c :: after)) :
    ∃ sign, text = sign ++ c :: after ∧
      ∀ other, splitSign (sign ++ c :: other) = (down, c :: other) := by
  unfold splitSign at split
  split at split
  · cases split
    exact ⟨['-'], rfl, fun _ => rfl⟩
  · cases split
    exact ⟨['+'], rfl, fun _ => rfl⟩
  · cases split
    refine ⟨[], rfl, fun other => ?_⟩
    unfold splitSign
    split
    · rename_i same
      cases same
      cases digit
    · rename_i same
      cases same
      cases digit
    · rfl

theorem readExponent_alone (negative : Bool) (significand : Nat) (exponent : Int) :
    Reader.Alone (readExponent negative significand exponent) := by
  intro text value rest read
  unfold readExponent at read
  cases signed : splitSign text with
  | mk down digits =>
    rw [signed] at read
    cases digits with
    | nil => cases read
    | cons c after =>
      simp only at read
      by_cases digit : isDigit c = true
      · rw [if_pos digit] at read
        have scalar := depth_of_readScaled read
        obtain ⟨rfl, scaled⟩ := readScaled_rest read
        obtain ⟨sign, rfl, again⟩ := splitSign_alone digit signed
        refine ⟨scalar, sign ++ c :: after.takeWhile isDigit, ?_, ?_⟩
        · rw [List.append_assoc, List.cons_append, List.takeWhile_append_dropWhile]
        · have run := run_alone (List.nil_append (after.dropWhile isDigit)).symm
          rw [List.append_nil] at run
          unfold readExponent
          rw [again]
          simp only [if_pos digit, run.1, run.2]
          exact scaled []
      · rw [if_neg digit] at read
        cases read

theorem readAfterFraction_alone (negative : Bool) (significand : Nat) (exponent : Int) :
    Reader.Alone (readAfterFraction negative significand exponent) := by
  intro text value rest read
  unfold readAfterFraction at read
  split at read
  · obtain ⟨scalar, front, rfl, again⟩ := readExponent_alone _ _ _ _ _ _ read
    exact ⟨scalar, 'e' :: front, rfl, again⟩
  · obtain ⟨scalar, front, rfl, again⟩ := readExponent_alone _ _ _ _ _ _ read
    exact ⟨scalar, 'E' :: front, rfl, again⟩
  · have scalar := depth_of_readScaled read
    obtain ⟨rfl, scaled⟩ := readScaled_rest read
    exact ⟨scalar, [], rfl, scaled []⟩

theorem readFraction_alone (negative : Bool) (significand : Nat) (exponent : Int) :
    Reader.Alone (readFraction negative significand exponent) := by
  intro text value rest read
  unfold readFraction at read
  simp only at read
  split at read
  · rename_i some
    obtain ⟨scalar, front, left, again⟩ := readAfterFraction_alone _ _ _ _ _ _ read
    obtain ⟨whole, behind, split, taken, run, off⟩ := digits_alone left
    refine ⟨scalar, whole, split, ?_⟩
    rw [digitNext_eq, ← run, ← digitNext_eq] at some
    unfold readFraction
    rw [taken]
    simp only
    rw [if_pos some, off]
    exact again
  · split at read <;> cases read

theorem readAfterWhole_alone (negative : Bool) (significand dropped : Nat) :
    Reader.Alone (readAfterWhole negative significand dropped) := by
  intro text value rest read
  have whole := read
  unfold readAfterWhole at read
  split at read
  · obtain ⟨scalar, front, rfl, again⟩ := readFraction_alone _ _ _ _ _ _ read
    exact ⟨scalar, '.' :: front, rfl, again⟩
  · obtain ⟨scalar, front, rfl, again⟩ := readExponent_alone _ _ _ _ _ _ read
    exact ⟨scalar, 'e' :: front, rfl, again⟩
  · obtain ⟨scalar, front, rfl, again⟩ := readExponent_alone _ _ _ _ _ _ read
    exact ⟨scalar, 'E' :: front, rfl, again⟩
  · rename_i point small great
    have mark : ∀ c ∈ text.head?, c ≠ '.' ∧ c ≠ 'e' ∧ c ≠ 'E' := by
      intro c member
      obtain ⟨tail, rfl⟩ := List.head?_eq_some_iff.mp (Option.mem_def.mp member)
      refine ⟨?_, ?_, ?_⟩ <;> rintro rfl
      · exact point tail rfl
      · exact small tail rfl
      · exact great tail rfl
    obtain ⟨rfl, again⟩ := readAfterWhole_of_head mark whole
    refine ⟨?_, [], rfl, again [] fun _ member => nomatch member⟩
    split at read
    · exact depth_of_readScaled read
    · repeat' split at read
      all_goals
        cases read
        rfl

/-- **A number is read in the same way where the text ends behind it.** -/
theorem readNumber_alone (negative : Bool) : Reader.Alone (readNumber negative) := by
  intro text value rest read
  cases text with
  | nil => cases read
  | cons c tail =>
    by_cases zero : c = '0'
    · subst zero
      have starts (tail : List Char) : readNumber negative ('0' :: tail) =
          if digitNext tail then failAt .badNumber tail else readAfterWhole negative 0 0 tail := rfl
      rw [starts] at read
      split at read
      · cases read
      · rename_i last
        obtain ⟨scalar, front, rfl, again⟩ := readAfterWhole_alone _ _ _ _ _ _ read
        refine ⟨scalar, '0' :: front, rfl, ?_⟩
        rw [starts, if_neg, again]
        cases front with
        | nil => exact Bool.false_ne_true
        | cons => exact last
    · rw [readNumber_of_ne_zero zero] at read
      split at read
      · rename_i digit
        obtain ⟨scalar, front, left, again⟩ := readAfterWhole_alone _ _ _ _ _ _ read
        obtain ⟨whole, behind, split, taken, run, off⟩ := digits_alone left
        refine ⟨scalar, c :: whole, congrArg (List.cons c) split, ?_⟩
        rw [readNumber_of_ne_zero zero, if_pos digit, taken]
        simp only
        rw [run, off]
        exact again
      · cases read

/-! ### Scalars -/

/-- **A scalar is read in the same way where the text ends behind it**, however deeply values may
be nested there. -/
theorem readValue_scalar_alone {nesting : Nat} {c : Char} {text rest : List Char} {value : Json}
    (visible : isBlank c = false) (noArray : c ≠ '[') (noObject : c ≠ '\x7b')
    (read : readValue nesting (c :: text) = .ok (value, rest)) :
    value.depth = 0 ∧ ∃ front, c :: text = c :: front ++ rest ∧
      readValue 0 (c :: front) = .ok (value, []) := by
  unfold readValue at read
  rw [skipBlanks_of_head visible] at read
  simp only at read
  split at read
  · obtain ⟨rfl, rfl⟩ := readWord_ok read
    exact ⟨rfl, ['u', 'l', 'l'], rfl, rfl⟩
  · obtain ⟨rfl, rfl⟩ := readWord_ok read
    exact ⟨rfl, ['r', 'u', 'e'], rfl, rfl⟩
  · obtain ⟨rfl, rfl⟩ := readWord_ok read
    exact ⟨rfl, ['a', 'l', 's', 'e'], rfl, rfl⟩
  · obtain ⟨⟨key, behind⟩, here, done⟩ := bind_ok read
    cases done
    obtain ⟨front, rfl, -, again⟩ := readText_ok here
    have alone := again []
    rw [List.append_nil] at alone
    exact ⟨rfl, front, rfl, readValue_quoted alone⟩
  · obtain ⟨scalar, front, rfl, again⟩ := readNumber_alone _ _ _ _ read
    exact ⟨scalar, front, rfl, again⟩
  · exact absurd rfl noArray
  · exact absurd rfl noObject
  · split at read
    · rename_i digit
      obtain ⟨scalar, front, split, again⟩ := readNumber_alone _ _ _ _ read
      cases front with
      | nil => cases again
      | cons d front =>
        obtain rfl : c = d := (List.cons.inj split).1
        exact ⟨scalar, front, split, (readValue_of_digit digit 0 front).trans again⟩
    · cases read

/-! ### Parts of containers -/

section

variable (gap : List Char) (content : Json) (nesting : Nat)

/-- Whether a written value with a content in its gaps is what a reader takes: JSON without commas
in front of closing brackets and braces that is nested no deeper than the reader goes. -/
structure Written.Taken (written : Written) : Prop where
  formed : written.Formed
  exact : written.isExact = true
  within : (written.fill content).depth ≤ nesting

/-- Whether what a reader takes is a written value with blanks in front of it. -/
def TakesWritten (item : Reader Json) : Prop :=
  ∀ text value rest, item text = .ok (value, rest) →
    ∃ front, ∃ written : Written, Blank front ∧ written.Taken content nesting ∧
      value = written.fill content ∧ text = front ++ (written.write gap ++ rest)

/-- Whether a part of a container is what a reader takes, with blanks around it. -/
structure Padded.Taken (part : Padded Written) : Prop where
  front : Blank part.front
  taken : part.content.Taken content nesting
  back : Blank part.back

end

theorem skipBlanks_split (text : List Char) :
    ∃ blank, Blank blank ∧ text = blank ++ skipBlanks text :=
  ⟨text.takeWhile isBlank, fun _ => List.mem_takeWhile_imp,
    List.takeWhile_append_dropWhile.symm⟩

theorem Blank.append {text other : List Char} (blank : Blank text) (otherBlank : Blank other) :
    Blank (text ++ other) :=
  List.forall_mem_append.mpr ⟨blank, otherBlank⟩

section

variable {gap : List Char} {content : Json} {nesting : Nat} {item : Reader Json}
  {text rest : List Char}

/-- The elements behind one of them, up to the closing bracket. -/
theorem items_of_readItems (takes : TakesWritten gap content nesting item) {budget : Nat}
    {sofar values : List Json} (read : readItems item budget sofar text = .ok (values, rest)) :
    ∃ back, ∃ elements : List (Padded Written), Blank back ∧
      (∀ element ∈ elements, element.Taken content nesting) ∧
      values = sofar.reverse ++ elements.map (fun element => element.content.fill content) ∧
      text = back ++ (following (elements.map (Written.elementText gap)) ++ ']' :: rest) := by
  induction budget generalizing sofar text with
  | zero => cases read
  | succ budget ih =>
    obtain ⟨blank, isBlank, split⟩ := skipBlanks_split text
    rw [readItems] at read
    split at read
    · rename_i shut
      cases read
      exact ⟨blank, [], isBlank, List.forall_mem_nil _, (List.append_nil _).symm,
        split.trans (congrArg (blank ++ ·) shut)⟩
    · rename_i behind comma
      obtain ⟨blank', isBlank', split'⟩ := skipBlanks_split behind
      split at read
      · cases read
      · cases read
      · obtain ⟨⟨value, after⟩, here, there⟩ := bind_ok read
        obtain ⟨front, written, frontBlank, taken, rfl, parts⟩ := takes _ _ _ here
        obtain ⟨back, elements, backBlank, others, rfl, left⟩ := ih there
        refine ⟨blank, ⟨blank' ++ front, written, back⟩ :: elements, isBlank,
          List.forall_mem_cons.mpr ⟨⟨isBlank'.append frontBlank, taken, backBlank⟩, others⟩, ?_, ?_⟩
        · rw [List.reverse_cons, List.append_assoc]
          rfl
        · rw [split, comma, split', parts, left, following_cons, Written.elementText]
          simp only [List.append_assoc, List.cons_append]
    · cases read
    · cases read

/-- An array of such elements is what a reader takes that goes one container deeper. -/
theorem taken_array {elements : List (Padded Written)} {tail : List Char}
    (all : ∀ element ∈ elements, element.Taken content nesting) (tailBlank : Blank tail) :
    (Written.array elements false tail).Taken content (nesting + 1) where
  formed := (Written.formed_array _ _ _).mpr ⟨fun element member =>
    ⟨(all element member).front, (all element member).taken.formed, (all element member).back⟩,
      tailBlank, fun comma => nomatch comma⟩
  exact := by
    rw [Written.isExact_array, Bool.not_false, Bool.and_true]
    exact List.all_eq_true.mpr fun element member => (all element member).taken.exact
  within := by
    rw [Written.fill_array]
    exact Nat.succ_le_succ (itemsDepth_le (List.forall_mem_map.mpr fun element member =>
      (all element member).taken.within))

/-- An array behind its opening bracket. -/
theorem readArray_taken (takes : TakesWritten gap content nesting item) {value : Json}
    (read : readArray item text = .ok (value, rest)) :
    ∃ written : Written, written.Taken content (nesting + 1) ∧ value = written.fill content ∧
      '[' :: text = written.write gap ++ rest := by
  obtain ⟨blank, isBlank, split⟩ := skipBlanks_split text
  unfold readArray at read
  split at read
  · cases read
  · rename_i shut
    cases read
    refine ⟨.array [] false blank, taken_array (fun _ member => nomatch member) isBlank, rfl, ?_⟩
    rw [split, shut, Written.write_array]
    simp [closing, commaSeparated]
  · obtain ⟨⟨value, after⟩, here, there⟩ := bind_ok read
    obtain ⟨⟨values, after'⟩, here', there'⟩ := bind_ok there
    cases there'
    obtain ⟨front, written, frontBlank, taken, rfl, parts⟩ := takes _ _ _ here
    obtain ⟨back, elements, backBlank, others, rfl, left⟩ := items_of_readItems takes here'
    have all : ∀ element ∈ ⟨blank ++ front, written, back⟩ :: elements,
        Padded.Taken content nesting element :=
      List.forall_mem_cons.mpr ⟨⟨isBlank.append frontBlank, taken, backBlank⟩, others⟩
    refine ⟨.array _ false [], taken_array all fun _ member => (nomatch member), ?_, ?_⟩
    · rw [Written.fill_array]
      rfl
    · rw [split, parts, left, Written.write_array, List.map_cons, commaSeparated_cons,
        Written.elementText]
      simp [closing]

/-- A field behind the opening quote of its key. -/
theorem readField_taken (takes : TakesWritten gap content nesting item) {field : String × Json}
    (read : readField item text = .ok (field, rest)) :
    ∃ label : Label, ∃ front, ∃ written : Written, label.Formed ∧ label.front = [] ∧ Blank front ∧
      written.Taken content nesting ∧ field = (label.key, written.fill content) ∧
      '"' :: text = label.text ++ (front ++ (written.write gap ++ rest)) := by
  obtain ⟨⟨key, behind⟩, here, there⟩ := bind_ok read
  obtain ⟨body, rfl, -, again⟩ := readText_ok here
  obtain ⟨blank, isBlank, split⟩ := skipBlanks_split behind
  have spelled := again []
  rw [List.append_nil] at spelled
  simp only at there
  split at there
  · rename_i colon
    obtain ⟨⟨value, after⟩, here', there'⟩ := bind_ok there
    cases there'
    obtain ⟨front, written, frontBlank, taken, rfl, parts⟩ := takes _ _ _ here'
    refine ⟨⟨[], body, key, blank⟩, front, written, ⟨fun _ member => (nomatch member), spelled,
      isBlank⟩, rfl, frontBlank, taken, rfl, ?_⟩
    rw [split, colon, parts, Label.text]
    simp
  · cases there
  · cases there

/-- Whether a field of an object is what a reader takes. -/
structure FieldTaken (content : Json) (nesting : Nat) (field : Label × Padded Written) : Prop where
  label : field.1.Formed
  part : field.2.Taken content nesting

/-- The fields behind one of them, up to the closing brace. -/
theorem fields_of_readFields (takes : TakesWritten gap content nesting item) {budget : Nat}
    {sofar values : List (String × Json)}
    (read : readFields item budget sofar text = .ok (values, rest)) :
    ∃ back, ∃ fields : List (Label × Padded Written), Blank back ∧
      (∀ field ∈ fields, FieldTaken content nesting field) ∧
      values = sofar.reverse ++
        fields.map (fun field => (field.1.key, field.2.content.fill content)) ∧
      text = back ++ (following (fields.map (Written.memberText gap)) ++ '\x7d' :: rest) := by
  induction budget generalizing sofar text with
  | zero => cases read
  | succ budget ih =>
    obtain ⟨blank, isBlank, split⟩ := skipBlanks_split text
    rw [readFields] at read
    split at read
    · rename_i shut
      cases read
      exact ⟨blank, [], isBlank, List.forall_mem_nil _, (List.append_nil _).symm,
        split.trans (congrArg (blank ++ ·) shut)⟩
    · rename_i behind comma
      obtain ⟨blank', isBlank', split'⟩ := skipBlanks_split behind
      split at read
      · cases read
      · rename_i quoted
        obtain ⟨⟨field, after⟩, here, there⟩ := bind_ok read
        obtain ⟨label, front, written, formed, bare, frontBlank, taken, rfl, parts⟩ :=
          readField_taken takes here
        obtain ⟨back, fields, backBlank, others, rfl, left⟩ := ih there
        refine ⟨blank, ({ label with front := blank' }, ⟨front, written, back⟩) :: fields, isBlank,
          List.forall_mem_cons.mpr ⟨⟨⟨isBlank', formed.spelled, formed.back⟩,
            ⟨frontBlank, taken, backBlank⟩⟩, others⟩, ?_, ?_⟩
        · rw [List.reverse_cons, List.append_assoc]
          rfl
        · rw [split, comma, split', quoted, parts, left, following_cons, Written.memberText,
            Written.elementText, Label.text, Label.text, bare]
          simp only [List.append_assoc, List.cons_append, List.nil_append]
      · cases read
      · cases read
    · cases read
    · cases read

/-- An object of such fields is what a reader takes that goes one container deeper. -/
theorem taken_object {fields : List (Label × Padded Written)} {tail : List Char}
    (all : ∀ field ∈ fields, FieldTaken content nesting field) (tailBlank : Blank tail) :
    (Written.object fields false tail).Taken content (nesting + 1) where
  formed := (Written.formed_object _ _ _).mpr ⟨fun field member =>
    ⟨(all field member).label, (all field member).part.front,
      (all field member).part.taken.formed, (all field member).part.back⟩,
      tailBlank, fun comma => nomatch comma⟩
  exact := by
    rw [Written.isExact_object, Bool.not_false, Bool.and_true]
    exact List.all_eq_true.mpr fun field member => (all field member).part.taken.exact
  within := by
    rw [Written.fill_object]
    exact Nat.succ_le_succ (fieldsDepth_le (List.forall_mem_map.mpr fun field member =>
      (all field member).part.taken.within))

/-- An object behind its opening brace. -/
theorem readObject_taken (takes : TakesWritten gap content nesting item) {value : Json}
    (read : readObject item text = .ok (value, rest)) :
    ∃ written : Written, written.Taken content (nesting + 1) ∧ value = written.fill content ∧
      '\x7b' :: text = written.write gap ++ rest := by
  obtain ⟨blank, isBlank, split⟩ := skipBlanks_split text
  unfold readObject at read
  split at read
  · cases read
  · rename_i shut
    cases read
    refine ⟨.object [] false blank, taken_object (fun _ member => nomatch member) isBlank, rfl, ?_⟩
    rw [split, shut, Written.write_object]
    simp [closing, commaSeparated]
  · rename_i quoted
    obtain ⟨⟨field, after⟩, here, there⟩ := bind_ok read
    obtain ⟨⟨values, after'⟩, here', there'⟩ := bind_ok there
    cases there'
    obtain ⟨label, front, written, formed, bare, frontBlank, taken, rfl, parts⟩ :=
      readField_taken takes here
    obtain ⟨back, fields, backBlank, others, rfl, left⟩ := fields_of_readFields takes here'
    have all : ∀ field ∈ ({ label with front := blank }, ⟨front, written, back⟩) :: fields,
        FieldTaken content nesting field :=
      List.forall_mem_cons.mpr ⟨⟨⟨isBlank, formed.spelled, formed.back⟩,
        ⟨frontBlank, taken, backBlank⟩⟩, others⟩
    refine ⟨.object _ false [], taken_object all fun _ member => (nomatch member), ?_, ?_⟩
    · rw [Written.fill_object]
      rfl
    · rw [split, quoted, parts, left, Written.write_object, List.map_cons, commaSeparated_cons,
        Written.memberText, Written.elementText, Label.text, Label.text, bare]
      simp [closing]
  · cases read

end

/-! ### Values and texts -/

/-- A scalar is what every reader of values takes. -/
theorem taken_scalar {content value : Json} {nesting : Nat} {c : Char} {text : List Char}
    (visible : isBlank c = false) (read : readValue 0 (c :: text) = .ok (value, []))
    (flat : value.depth = 0) : (Written.scalar (c :: text) value).Taken content nesting :=
  ⟨⟨skipBlanks_of_head visible text, read⟩, rfl, (Nat.le_of_eq flat).trans (Nat.zero_le nesting)⟩

/-- What is left of a text starts with something visible. -/
theorem visible_of_skipBlanks {text rest : List Char} {c : Char}
    (left : skipBlanks text = c :: rest) : isBlank c = false :=
  Runs.stops left

/-- A reader takes written values if the one for the parts of containers does. -/
theorem takesWritten_of_deeper {gap : List Char} {content : Json} {nesting : Nat}
    (deeper : ∀ inner, nesting = inner + 1 → TakesWritten gap content inner (readValue inner)) :
    TakesWritten gap content nesting (readValue nesting) := by
  intro text value rest read
  obtain ⟨blank, isBlank, split⟩ := skipBlanks_split text
  rw [split, readValue_blanks isBlank] at read
  cases left : skipBlanks text with
  | nil =>
    rw [left] at read
    cases nesting <;> cases read
  | cons c more =>
    rw [left] at read split
    by_cases array : c = '['
    · subst array
      cases nesting with
      | zero => cases read
      | succ inner =>
        obtain ⟨written, taken, same, parts⟩ := readArray_taken (deeper inner rfl) read
        exact ⟨blank, written, isBlank, taken, same, split.trans (congrArg (blank ++ ·) parts)⟩
    · by_cases object : c = '\x7b'
      · subst object
        cases nesting with
        | zero => cases read
        | succ inner =>
          obtain ⟨written, taken, same, parts⟩ := readObject_taken (deeper inner rfl) read
          exact ⟨blank, written, isBlank, taken, same, split.trans (congrArg (blank ++ ·) parts)⟩
      · have visible := visible_of_skipBlanks left
        obtain ⟨flat, front, parts, alone⟩ := readValue_scalar_alone visible array object read
        exact ⟨blank, .scalar (c :: front) value, isBlank, taken_scalar visible alone flat, rfl,
          split.trans (congrArg (blank ++ ·) parts)⟩

/-- **What the reader takes is a written value** with blanks in front of it. -/
theorem takesWritten_readValue (gap : List Char) (content : Json) (nesting : Nat) :
    TakesWritten gap content nesting (readValue nesting) := by
  induction nesting with
  | zero => exact takesWritten_of_deeper fun inner deeper => nomatch deeper
  | succ nesting ih => exact takesWritten_of_deeper fun inner deeper => Nat.succ.inj deeper ▸ ih

theorem apart_of_blank {text : List Char} (blank : Blank text) : Apart text := by
  have all := apart_append blank apart_nil
  rwa [List.append_nil] at all

/-- **The texts that are read as a whole** are the written values with blanks around them that are
nested no deeper than the reader goes. -/
theorem readWritten_iff {gap : List Char} {content : Json} (solid : Solid gap content)
    {text : List Char} {value : Json} :
    readWritten text = .ok value ↔
      ∃ front back, ∃ written : Written, Blank front ∧ Blank back ∧
        written.Taken content maxNesting ∧ value = written.fill content ∧
        text = front ++ (written.write gap ++ back) := by
  constructor
  · intro read
    obtain ⟨⟨found, rest⟩, here, there⟩ := bind_ok read
    obtain ⟨front, written, frontBlank, taken, rfl, parts⟩ :=
      takesWritten_readValue gap content _ _ _ _ here
    simp only at there
    split at there
    · rename_i ends
      cases there
      obtain ⟨back, backBlank, split⟩ := skipBlanks_split rest
      rw [ends, List.append_nil] at split
      exact ⟨front, rest, written, frontBlank, split ▸ backBlank, taken, rfl, parts⟩
    · cases there
  · rintro ⟨front, back, written, frontBlank, backBlank, taken, rfl, rfl⟩
    have reads := (Written.solid_write solid taken.formed taken.exact).reads _ _ taken.within
      (apart_of_blank backBlank)
    have ends : skipBlanks back = [] := List.dropWhile_eq_nil_iff.mpr backBlank
    unfold readWritten
    rw [readValue_blanks frontBlank, reads]
    dsimp only [bind, Except.bind]
    rw [ends]

/-- **A written value is read as a whole** just if there are no commas behind last parts and it is
nested no deeper than the reader goes. -/
theorem readWritten_write {gap front back : List Char} {content value : Json} {written : Written}
    (solid : Solid gap content) (formed : written.Formed) (frontBlank : Blank front)
    (backBlank : Blank back) :
    readWritten (front ++ (written.write gap ++ back)) = .ok value ↔
      written.isExact = true ∧ (written.fill content).depth ≤ maxNesting ∧
        value = written.fill content := by
  constructor
  · intro read
    obtain ⟨front', back', other, frontBlank', backBlank', taken, rfl, same⟩ :=
      (readWritten_iff solid).mp read
    -- Both are read alike by a reader that goes deep enough for both.
    have deep := (Written.solid_write solid taken.formed taken.exact).reads
      (max (written.fill content).depth (other.fill content).depth) back' (Nat.le_max_right _ _)
      (apart_of_blank backBlank')
    have answers := Written.answers_write solid formed
      (Nat.le_max_left (written.fill content).depth (other.fill content).depth)
      (apart_of_blank backBlank)
    rw [← readValue_blanks frontBlank', ← same, readValue_blanks frontBlank] at deep
    rw [deep] at answers
    cases exact : written.isExact with
    | true =>
      rw [exact] at answers
      obtain ⟨alike, -⟩ := Prod.mk.inj (Except.ok.inj answers)
      exact ⟨rfl, alike ▸ taken.within, alike⟩
    | false =>
      rw [exact] at answers
      obtain ⟨error, refused⟩ := answers
      cases refused
  · rintro ⟨exact, within, rfl⟩
    exact (readWritten_iff solid).mpr
      ⟨front, back, written, frontBlank, backBlank, ⟨formed, exact, within⟩, rfl, rfl⟩

end FieldResolver.Json

/-
**What the scanners take from a text.**

The parts of the parser that call no other: each of them takes the beginning of a text, and what it
says about this beginning is all that the rest of the theory needs to know of it.

* `skipBlanks_split`, `expect_ok`, `dropFront?_some`, `splitAt?_some`, `skipLine_split`,
  `name_split`, `eatWord?_some`: characters, words and runs of them;
* `reference?_succ`: a reference behind its sigil, `behindSigil`;
* `directive?_some`, `operator?_some`, `quoted?_some`, `number_ok`, `constant_ok`: directives,
  operators and literals, with their spellings `Announces`, `Spelling.text`, `inQuotes` and
  `constants`.
-/

import FieldResolver.Proofs.Runs
import FieldResolver.Proofs.Template.References

namespace FieldResolver.Template.Parser

/-! ### Characters and runs of them -/

/-- Whether a text is white space. -/
def Blanks (text : List Char) : Prop := ∀ c ∈ text, Text.isBlank c = true

theorem Blanks.nil : Blanks [] := fun _ member => absurd member List.not_mem_nil

/-- Whether a character is no white space. -/
def Visible (c : Char) : Prop := Text.isBlank c = false

theorem skipBlanks_split (text : List Char) :
    ∃ blank, Blanks blank ∧ text = blank ++ skipBlanks text :=
  ⟨text.takeWhile Text.isBlank, fun _ => List.mem_takeWhile_imp,
    (List.takeWhile_append_dropWhile).symm⟩

/-- What is left of a text starts with something visible. -/
theorem visible_of_skipBlanks {text rest : List Char} {c : Char}
    (left : skipBlanks text = c :: rest) : Visible c :=
  Runs.stops left

theorem skipBlanks_append {blank : List Char} (isBlank : Blanks blank) {c : Char}
    (visible : Visible c) (rest : List Char) : skipBlanks (blank ++ c :: rest) = c :: rest := by
  have invisible : ¬ Text.isBlank c = true := by
    rw [visible]
    exact Bool.false_ne_true
  exact (List.dropWhile_append_of_pos isBlank).trans (List.dropWhile_cons_of_neg invisible)

theorem skipBlanks_visible {c : Char} (visible : Visible c) (rest : List Char) :
    skipBlanks (c :: rest) = c :: rest :=
  skipBlanks_append .nil visible rest

theorem skipBlanks_skipBlanks (text : List Char) :
    skipBlanks (skipBlanks text) = skipBlanks text := by
  cases left : skipBlanks text with
  | nil => rfl
  | cons c rest => exact skipBlanks_visible (visible_of_skipBlanks left) rest

theorem expect_ok {wanted : Char} {text rest : List Char} (done : expect wanted text = .ok rest) :
    text = wanted :: rest := by
  cases text with
  | nil => cases done
  | cons c more =>
    rw [expect] at done
    split at done
    · rename_i same
      cases done
      rw [same]
    · cases done

theorem dropFront?_some {wanted text rest : List Char}
    (found : Text.dropFront? wanted text = some rest) : text = wanted ++ rest := by
  induction wanted generalizing text with
  | nil =>
    cases found
    rfl
  | cons w wanted ih =>
    cases text with
    | nil => cases found
    | cons c more =>
      rw [Text.dropFront?] at found
      split at found
      · rename_i same
        rw [same, ih found, List.cons_append]
      · cases found

theorem splitAt?_some {spelling text front behind : List Char}
    (found : splitAt? spelling text = some (front, behind)) :
    text = front ++ (spelling ++ behind) := by
  induction text generalizing front with
  | nil =>
    obtain ⟨rest, dropped, same⟩ := Option.map_eq_some_iff.mp found
    cases same
    rw [List.nil_append]
    exact dropFront?_some dropped
  | cons c rest ih =>
    rw [splitAt?] at found
    split at found
    · rename_i dropped
      cases found
      rw [List.nil_append]
      exact dropFront?_some dropped
    · obtain ⟨⟨front, behind⟩, below, same⟩ := Option.map_eq_some_iff.mp found
      cases same
      rw [ih below, List.cons_append]

/-- Whether a text is the rest of a line, with the line break if there is one. -/
def LineRest (text : List Char) : Prop := ∀ c ∈ text.dropLast, c ≠ '\n'

theorem skipLine_split (text : List Char) :
    ∃ line, LineRest line ∧ text = line ++ skipLine text := by
  induction text with
  | nil => exact ⟨[], fun _ member => absurd member List.not_mem_nil, rfl⟩
  | cons c rest ih =>
    rw [skipLine]
    split
    · exact ⟨[c], fun _ member => absurd member List.not_mem_nil, rfl⟩
    · rename_i inside
      obtain ⟨line, isRest, same⟩ := ih
      refine ⟨c :: line, ?_, by rw [List.cons_append, ← same]⟩
      cases line with
      | nil => exact fun _ member => absurd member List.not_mem_nil
      | cons d more =>
        intro e member
        rcases List.mem_cons.mp member with rfl | later
        · exact inside
        · exact isRest e later

theorem name_split {text : List Char} (starts : startsName text = true) :
    ∃ label, IsName label ∧ (name text).1 = String.ofList label ∧
      text = label ++ (name text).2 := by
  refine ⟨text.takeWhile isNameChar, ⟨?_, List.all_eq_true.mpr fun _ => List.mem_takeWhile_imp⟩,
    rfl, List.takeWhile_append_dropWhile.symm⟩
  cases text with
  | nil => cases starts
  | cons c rest =>
    have first : isNameStart c = true := starts
    have inside : isNameChar c = true := by
      rcases Bool.or_eq_true _ _ ▸ first with alpha | underscore
      · simp [isNameChar, Char.isAlphanum, alpha]
      · simp [isNameChar, underscore]
    rw [List.takeWhile_cons_of_pos inside]
    exact first

theorem eatWord?_some {word text rest : List Char} (found : eatWord? word text = some rest) :
    text = word ++ rest := by
  unfold eatWord? at found
  split at found
  · rename_i dropped
    cases found
    exact dropFront?_some dropped
  · rename_i dropped
    split at found
    · cases found
    · cases found
      exact dropFront?_some dropped
  · cases found

/-- What a reference is looked for in: the text behind the sigil and behind a `!`. -/
def behindSigil (text : List Char) : List Char :=
  match text.drop 1 with
  | '!' :: rest => rest
  | rest => rest

/-- A reference is its name and its segments, in braces or not. -/
theorem reference?_succ (budget : Nat) (text : List Char) :
    reference? (budget + 1) text =
      match behindSigil text with
      | '\x7b' :: inner =>
        if startsName inner then
          segments budget [] (name inner).2 >>= fun found =>
            match found.2 with
            | '\x7d' :: rest => .ok (some (((name inner).1, found.1), rest))
            | _ => fail .unterminatedReference text
        else .ok none
      | inner =>
        if startsName inner then
          segments budget [] (name inner).2 >>= fun found =>
            .ok (some (((name inner).1, found.1), found.2))
        else .ok none := by
  rw [reference?]
  rfl

/-! ### Directives and operators -/

/-- How a directive is announced: `#name` or `#{name}`. -/
inductive Announces (directive : Directive) : List Char → Prop
  | plain : Announces directive ('#' :: directive.name.toList)
  | braced : Announces directive ('#' :: '\x7b' :: (directive.name.toList ++ ['\x7d']))

theorem Announces.ne_nil {directive : Directive} {text : List Char}
    (announces : Announces directive text) : text ≠ [] := by
  cases announces <;> exact List.cons_ne_nil _ _

theorem ofName?_some {text : String} {directive : Directive}
    (found : Directive.ofName? text = some directive) : directive.name = text := by
  simpa using List.find?_some found

theorem directive?_some {text rest : List Char} {directive : Directive}
    (found : directive? text = some (directive, rest)) :
    ∃ front, Announces directive front ∧ text = front ++ rest := by
  unfold directive? at found
  split at found
  · rename_i inner
    split at found
    · rename_i known shut
      cases found
      refine ⟨_, .braced, ?_⟩
      rw [ofName?_some known, String.toList_ofList]
      simp only [List.cons_append, List.append_assoc, List.nil_append]
      rw [← shut, List.takeWhile_append_dropWhile]
    · cases found
  · rename_i inner _
    obtain ⟨known, named, same⟩ := Option.map_eq_some_iff.mp found
    cases same
    refine ⟨_, .plain, ?_⟩
    rw [ofName?_some named, String.toList_ofList, List.cons_append, List.takeWhile_append_dropWhile]
  · cases found

/-- The characters of a spelling. -/
def Spelling.text : Spelling → List Char
  | .symbol text | .word text => text

theorem eat?_some {spelling : Spelling} {text rest : List Char}
    (found : spelling.eat? text = some rest) : text = spelling.text ++ rest := by
  cases spelling with
  | symbol => exact dropFront?_some found
  | word => exact eatWord?_some found

theorem operator?_some {level : Nat} {text rest : List Char} {op : BinaryOp}
    (found : operator? level text = some (op, rest)) :
    ∃ spelling, (spelling, op) ∈ operators level ∧ text = spelling.text ++ rest := by
  obtain ⟨⟨spelling, op⟩, member, eaten⟩ := List.exists_of_findSome?_eq_some found
  obtain ⟨behind, eaten, same⟩ := Option.map_eq_some_iff.mp eaten
  cases same
  exact ⟨spelling, member, eat?_some eaten⟩

/-- Every operator is spelled by at least one character. -/
theorem ne_nil_of_mem_operators {level : Nat} {spelling : Spelling} {op : BinaryOp}
    (member : (spelling, op) ∈ operators level) : spelling.text ≠ [] := by
  have all : ∀ entry ∈ operators level, entry.1.text ≠ [] := by
    match level with
    | 0 | 1 | 2 | 3 | 4 | 5 => decide
    | _ + 6 => exact fun _ member => absurd member List.not_mem_nil
  exact all _ member

/-! ### Literals -/

/-- A text with every quote in it doubled. -/
def doubled (quote : Char) (content : List Char) : List Char :=
  content.flatMap fun c => if c = quote then [quote, quote] else [c]

/-- A text between quotes, with every quote in it doubled. -/
def inQuotes (quote : Char) (content : List Char) : List Char :=
  quote :: (doubled quote content ++ [quote])

/-- What is behind the opening quote, through the closing one. -/
theorem quoted?_some {quote : Char} {read text all rest : List Char}
    (found : quoted? quote read text = some (all, rest)) :
    ∃ content, all = read.reverse ++ content ∧ text = doubled quote content ++ quote :: rest := by
  fun_induction quoted? quote read text with
  | case1 => cases found
  | case2 read =>
    cases found
    exact ⟨[], (List.append_nil _).symm, rfl⟩
  | case3 read more ih =>
    obtain ⟨content, same, split⟩ := ih found
    refine ⟨quote :: content, by simpa using same, ?_⟩
    rw [split]
    simp [doubled]
  | case4 read d more other =>
    cases found
    exact ⟨[], (List.append_nil _).symm, rfl⟩
  | case5 read c rest other ih =>
    obtain ⟨content, same, split⟩ := ih found
    refine ⟨c :: content, by simpa using same, ?_⟩
    rw [split]
    simp [doubled, other]

/-- Whether a text is one of digits, at least one. -/
structure Digits (text : List Char) : Prop where
  some : text ≠ []
  all : ∀ c ∈ text, Decimal.isDigit c = true

theorem digits_takeWhile {c : Char} {rest : List Char} (digit : Decimal.isDigit c = true) :
    Digits ((c :: rest).takeWhile Decimal.isDigit) :=
  ⟨by rw [List.takeWhile_cons_of_pos digit]; exact List.cons_ne_nil _ _,
    fun _ => List.mem_takeWhile_imp⟩

/-- How numbers are written. -/
inductive Numeral : Expr → List Char → Prop
  | whole {digits : List Char} (formed : Digits digits)
      (fits : Decimal.natOfDigits digits 0 < 0x8000000000000000) :
      Numeral (.int (Decimal.natOfDigits digits 0)) digits
  | point {digits fraction : List Char} (formed : Digits digits) (behind : Digits fraction) :
      Numeral (.float (Decimal.nearest (Decimal.natOfDigits (digits ++ fraction) 0)
        (-fraction.length))) (digits ++ '.' :: fraction)

theorem Numeral.ne_nil {value : Expr} {text : List Char} (numeral : Numeral value text) :
    text ≠ [] := by
  cases numeral with
  | whole formed => exact formed.some
  | point formed =>
    intro empty
    exact formed.some (List.append_eq_nil_iff.mp empty).1

theorem number_ok {c : Char} {text rest : List Char} {value : Expr}
    (digit : Decimal.isDigit c = true) (done : number (c :: text) = .ok (value, rest)) :
    ∃ front, Numeral value front ∧ c :: text = front ++ rest := by
  have split : c :: text = _ ++ _ :=
    (List.takeWhile_append_dropWhile (p := Decimal.isDigit)).symm
  have formed : Digits ((c :: text).takeWhile Decimal.isDigit) := digits_takeWhile digit
  have whole : ∀ {value rest},
      (if Decimal.natOfDigits ((c :: text).takeWhile Decimal.isDigit) 0 < 0x8000000000000000 then
        .ok (Expr.int (Decimal.natOfDigits ((c :: text).takeWhile Decimal.isDigit) 0),
          (c :: text).dropWhile Decimal.isDigit)
      else fail (.integerRange (String.ofList ((c :: text).takeWhile Decimal.isDigit)))
        (c :: text)) = Except.ok (value, rest) →
      ∃ front, Numeral value front ∧ c :: text = front ++ rest := by
    intro value rest done
    split at done
    · rename_i fits
      cases done
      exact ⟨_, .whole formed fits, split⟩
    · cases done
  unfold number at done
  simp only at done
  split at done
  · rename_i d more point
    split at done
    · rename_i second
      cases done
      refine ⟨_, .point formed (digits_takeWhile second), ?_⟩
      rw [List.append_assoc, List.cons_append, List.takeWhile_append_dropWhile, ← point]
      exact split
    · exact whole done
  · exact whole done

/-- The words that stand for values, in the order in which they are tried. -/
def constants : List (List Char × Expr) :=
  [(['t', 'r', 'u', 'e'], .bool true), (['f', 'a', 'l', 's', 'e'], .bool false),
    (['n', 'u', 'l', 'l'], .null)]

theorem constant_ok {text rest : List Char} {value : Expr}
    (done : constant text = .ok (value, rest)) :
    ∃ word, (word, value) ∈ constants ∧ text = word ++ rest := by
  unfold constant at done
  split at done
  · rename_i found
    cases done
    exact ⟨_, List.mem_cons_self, eatWord?_some found⟩
  · split at done
    · rename_i found
      cases done
      exact ⟨_, List.mem_cons_of_mem _ List.mem_cons_self, eatWord?_some found⟩
    · split at done
      · rename_i found
        cases done
        exact ⟨_, List.mem_cons_of_mem _ (List.mem_cons_of_mem _ List.mem_cons_self),
          eatWord?_some found⟩
      · split at done <;> cases done

end FieldResolver.Template.Parser

/-
**Where scalars end.**

What the reader makes of a scalar does not depend on what follows it: a word ends with its last
letter, a string with its closing quote, and a number in front of the first character that cannot
stand in one. So a scalar that is read alone is read in the same way in front of a comma, a closing
bracket or a blank.

* `Reader.Numeric`: whether what a reader takes are characters of numbers and what follows is left
  alone; `readNumber_numeric` and the lemmas before it go through the parts of a number;
* `Body`, `readText_ok`: the text of a string up to its closing quote, and that it is read in the
  same way whatever follows;
* `ScalarText`, `readValue_scalar`: what the texts of scalars look like, and how they are read
  wherever they stand.
-/

import FieldResolver.Json.Reader
import FieldResolver.Proofs.Fallible
import FieldResolver.Proofs.Runs

namespace FieldResolver.Json

open Decimal Fallible

/-- Whether a character can stand in a number. -/
def inNumber (c : Char) : Bool :=
  isDigit c || c == '.' || c == 'e' || c == 'E' || c == '+' || c == '-'

/-- Whether a text does not go on like a number. -/
def Apart (rest : List Char) : Prop := ∀ c ∈ rest.head?, inNumber c = false

theorem apart_nil : Apart [] := fun _ member => nomatch member

theorem apart_cons {c : Char} (mark : inNumber c = false) (rest : List Char) :
    Apart (c :: rest) := by
  rintro other ⟨⟩
  exact mark

theorem Apart.noDigit {more : List Char} (apart : Apart more) :
    ∀ c ∈ more.head?, isDigit c = false := by
  intro c first
  have outside := apart c first
  unfold inNumber at outside
  simp only [Bool.or_eq_false_iff] at outside
  exact outside.1.1.1.1.1

/-! ### Numbers -/

section

variable {text more : List Char}

theorem takeWhile_append_apart (apart : Apart more) :
    (text ++ more).takeWhile isDigit = text.takeWhile isDigit :=
  Runs.takeWhile_append apart.noDigit text

theorem dropWhile_append_apart (apart : Apart more) :
    (text ++ more).dropWhile isDigit = text.dropWhile isDigit ++ more :=
  Runs.dropWhile_append apart.noDigit text

theorem digitNext_append (apart : Apart more) : digitNext (text ++ more) = digitNext text := by
  cases text with
  | nil =>
    cases more with
    | nil => rfl
    | cons c rest => exact apart.noDigit c rfl
  | cons c rest => rfl

theorem takeDigits_append (apart : Apart more) (significand taken : Nat) :
    takeDigits significand taken (text ++ more) =
      ((takeDigits significand taken text).1, (takeDigits significand taken text).2.1,
        (takeDigits significand taken text).2.2 ++ more) := by
  induction text generalizing significand taken with
  | nil =>
    cases more with
    | nil => rfl
    | cons c rest => simp [takeDigits, apart.noDigit c rfl]
  | cons c rest ih =>
    rw [List.cons_append, takeDigits, takeDigits]
    by_cases fits : (isDigit c &&
        decide (10 * significand + digitValue c < 0x10000000000000000)) = true
    · rw [if_pos fits, if_pos fits]
      exact ih _ _
    · rw [if_neg fits, if_neg fits]
      rfl

/-- The digits that are taken stand in front of what follows them. -/
theorem takeDigits_front (significand taken : Nat) (text : List Char) :
    ∃ front, text = front ++ (takeDigits significand taken text).2.2 ∧
      ∀ c ∈ front, isDigit c = true := by
  induction text generalizing significand taken with
  | nil => exact ⟨[], rfl, fun _ member => nomatch member⟩
  | cons c rest ih =>
    rw [takeDigits]
    by_cases fits : (isDigit c &&
        decide (10 * significand + digitValue c < 0x10000000000000000)) = true
    · rw [if_pos fits]
      obtain ⟨front, split, digits⟩ := ih (10 * significand + digitValue c) (taken + 1)
      have digit : isDigit c = true := (Bool.and_eq_true_iff.mp fits).1
      refine ⟨c :: front, congrArg (List.cons c) split, ?_⟩
      exact List.forall_mem_cons.mpr ⟨digit, digits⟩
    · rw [if_neg fits]
      exact ⟨[], rfl, fun _ member => nomatch member⟩

end

/-- Whether what a reader takes are characters of numbers, and what follows them is left alone. -/
def Reader.Numeric {α : Type} (read : Reader α) : Prop :=
  ∀ text value rest, read text = .ok (value, rest) →
    (∃ front, text = front ++ rest ∧ ∀ c ∈ front, inNumber c = true) ∧
      ∀ more, Apart more → read (text ++ more) = .ok (value, rest ++ more)

theorem inNumber_of_isDigit {c : Char} (digit : isDigit c = true) : inNumber c = true := by
  simp [inNumber, digit]

/-- A reader that takes one character of a number and then goes on. -/
theorem Numeric.cons {c : Char} {text rest : List Char} (inside : inNumber c = true)
    (below : ∃ front, text = front ++ rest ∧ ∀ c ∈ front, inNumber c = true) :
    ∃ front, c :: text = front ++ rest ∧ ∀ c ∈ front, inNumber c = true := by
  obtain ⟨front, split, numeric⟩ := below
  exact ⟨c :: front, congrArg (List.cons c) split, List.forall_mem_cons.mpr ⟨inside, numeric⟩⟩

/-- Digits in front of characters of numbers. -/
theorem Numeric.digits {digits text rest : List Char} (all : ∀ c ∈ digits, isDigit c = true)
    (below : ∃ front, text = front ++ rest ∧ ∀ c ∈ front, inNumber c = true) :
    ∃ front, digits ++ text = front ++ rest ∧ ∀ c ∈ front, inNumber c = true := by
  obtain ⟨front, rfl, numeric⟩ := below
  refine ⟨digits ++ front, (List.append_assoc _ _ _).symm, ?_⟩
  exact List.forall_mem_append.mpr ⟨fun c member => inNumber_of_isDigit (all c member), numeric⟩

/-- The longest run of digits in front of what follows it. -/
theorem Numeric.run (text : List Char) :
    ∃ front, text = front ++ text.dropWhile isDigit ∧ ∀ c ∈ front, inNumber c = true :=
  ⟨text.takeWhile isDigit, List.takeWhile_append_dropWhile.symm,
    fun _ member => inNumber_of_isDigit (List.mem_takeWhile_imp member)⟩

/-- All digits that come next, as far as they fit and beyond, in front of what follows them. -/
theorem Numeric.taken {text rest : List Char} (significand taken : Nat)
    (below : ∃ front, (takeDigits significand taken text).2.2.dropWhile isDigit = front ++ rest ∧
      ∀ c ∈ front, inNumber c = true) :
    ∃ front, text = front ++ rest ∧ ∀ c ∈ front, inNumber c = true := by
  obtain ⟨front, split, digits⟩ := takeDigits_front significand taken text
  rw [split]
  refine Numeric.digits digits ?_
  rw [← List.takeWhile_append_dropWhile (p := isDigit)
    (l := (takeDigits significand taken text).2.2)]
  exact Numeric.digits (fun _ member => List.mem_takeWhile_imp member) below

theorem readScaled_rest {negative : Bool} {significand : Nat} {exponent : Int}
    {rest rest' : List Char} {value : Json}
    (read : readScaled negative significand exponent rest = .ok (value, rest')) :
    rest' = rest ∧
      ∀ other, readScaled negative significand exponent other = .ok (value, other) := by
  unfold readScaled at read ⊢
  split at read
  · cases read
    exact ⟨rfl, fun _ => rfl⟩
  · cases read

/-- The sign in front of a number. -/
theorem splitSign_cons (c : Char) (tail : List Char) :
    ∃ down sign digits, c :: tail = sign ++ digits ∧ (∀ c ∈ sign, inNumber c = true) ∧
      ∀ more, splitSign (c :: (tail ++ more)) = (down, digits ++ more) := by
  by_cases minus : c = '-'
  · subst minus
    exact ⟨true, ['-'], tail, rfl, List.forall_mem_singleton.mpr rfl, fun _ => rfl⟩
  · by_cases plus : c = '+'
    · subst plus
      exact ⟨false, ['+'], tail, rfl, List.forall_mem_singleton.mpr rfl, fun _ => rfl⟩
    · refine ⟨false, [], c :: tail, rfl, (fun _ member => nomatch member), fun more => ?_⟩
      unfold splitSign
      split
      · rename_i same
        exact absurd (List.cons.inj same).1 minus
      · rename_i same
        exact absurd (List.cons.inj same).1 plus
      · rfl

theorem readExponent_numeric (negative : Bool) (significand : Nat) (exponent : Int) :
    Reader.Numeric (readExponent negative significand exponent) := by
  intro text value rest read
  cases text with
  | nil => cases read
  | cons first tail =>
    obtain ⟨down, sign, digits, split, signs, signed⟩ := splitSign_cons first tail
    have whole := signed []
    rw [List.append_nil, List.append_nil] at whole
    unfold readExponent at read ⊢
    rw [whole] at read
    cases digits with
    | nil => cases read
    | cons c after =>
      simp only at read
      by_cases digit : isDigit c = true
      · rw [if_pos digit] at read
        obtain ⟨rfl, scaled⟩ := readScaled_rest read
        constructor
        · rw [split]
          obtain ⟨front, run, numeric⟩ := Numeric.cons (inNumber_of_isDigit digit)
            (Numeric.run after)
          refine ⟨sign ++ front, ?_, List.forall_mem_append.mpr ⟨signs, numeric⟩⟩
          rw [List.append_assoc, ← run]
        · intro more apart
          simp only [List.cons_append, signed more, if_pos digit, takeWhile_append_apart apart,
            dropWhile_append_apart apart]
          exact scaled _
      · rw [if_neg digit] at read
        cases read

/-- A text that does not go on with an exponent. -/
theorem readAfterFraction_of_head {negative : Bool} {significand : Nat} {exponent : Int}
    {text : List Char} (other : ∀ c ∈ text.head?, c ≠ 'e' ∧ c ≠ 'E') :
    readAfterFraction negative significand exponent text =
      readScaled negative significand exponent text := by
  unfold readAfterFraction
  split
  · exact absurd rfl (other 'e' rfl).1
  · exact absurd rfl (other 'E' rfl).2
  · rfl

theorem head_append {holds : Char → Prop} {text more : List Char}
    (first : ∀ c ∈ text.head?, holds c) (second : ∀ c ∈ more.head?, holds c) :
    ∀ c ∈ (text ++ more).head?, holds c := by
  cases text with
  | nil => exact second
  | cons c rest => exact first

theorem Apart.ne {more : List Char} (apart : Apart more) {mark : Char}
    (inside : inNumber mark = true) : ∀ c ∈ more.head?, c ≠ mark := by
  rintro c member rfl
  exact absurd (apart c member) (by simp [inside])

theorem readAfterFraction_numeric (negative : Bool) (significand : Nat) (exponent : Int) :
    Reader.Numeric (readAfterFraction negative significand exponent) := by
  intro text value rest read
  by_cases mark : ∀ c ∈ text.head?, c ≠ 'e' ∧ c ≠ 'E'
  · rw [readAfterFraction_of_head mark] at read
    obtain ⟨rfl, scaled⟩ := readScaled_rest read
    refine ⟨⟨[], rfl, fun _ member => nomatch member⟩, fun more apart => ?_⟩
    rw [readAfterFraction_of_head (head_append mark fun c member =>
      ⟨apart.ne rfl c member, apart.ne rfl c member⟩)]
    exact scaled _
  · unfold readAfterFraction at read
    split at read
    · obtain ⟨front, behind⟩ := readExponent_numeric _ _ _ _ _ _ read
      exact ⟨Numeric.cons rfl front, behind⟩
    · obtain ⟨front, behind⟩ := readExponent_numeric _ _ _ _ _ _ read
      exact ⟨Numeric.cons rfl front, behind⟩
    · rename_i small great
      refine absurd (fun c member => ?_) mark
      cases text with
      | nil => cases member
      | cons first tail =>
        cases member
        refine ⟨?_, ?_⟩
        · rintro rfl
          exact small tail rfl
        · rintro rfl
          exact great tail rfl

theorem readFraction_numeric (negative : Bool) (significand : Nat) (exponent : Int) :
    Reader.Numeric (readFraction negative significand exponent) := by
  intro text value rest read
  unfold readFraction at read ⊢
  by_cases some : (digitNext (takeDigits significand 0 text).2.2 ||
      decide ((takeDigits significand 0 text).2.1 ≠ 0)) = true
  · simp only at read
    rw [if_pos some] at read
    obtain ⟨numeric, behind⟩ := readAfterFraction_numeric _ _ _ _ _ _ read
    refine ⟨Numeric.taken significand 0 numeric, fun more apart => ?_⟩
    rw [takeDigits_append apart]
    simp only
    rw [digitNext_append apart, if_pos some, dropWhile_append_apart apart]
    exact behind more apart
  · simp only at read
    rw [if_neg some] at read
    split at read <;> cases read

/-- A text that goes on neither with a point nor with an exponent, and what is read there. -/
theorem readAfterWhole_of_head {negative : Bool} {significand dropped : Nat} {text rest : List Char}
    {value : Json} (other : ∀ c ∈ text.head?, c ≠ '.' ∧ c ≠ 'e' ∧ c ≠ 'E')
    (read : readAfterWhole negative significand dropped text = .ok (value, rest)) :
    rest = text ∧ ∀ text' : List Char, (∀ c ∈ text'.head?, c ≠ '.' ∧ c ≠ 'e' ∧ c ≠ 'E') →
      readAfterWhole negative significand dropped text' = .ok (value, text') := by
  have whole : ∀ text' : List Char, (∀ c ∈ text'.head?, c ≠ '.' ∧ c ≠ 'e' ∧ c ≠ 'E') →
      readAfterWhole negative significand dropped text' =
        if dropped ≠ 0 then readScaled negative significand dropped text'
        else if !negative then .ok (int significand, text')
        else if significand = 0 ∨ 0x8000000000000000 < significand then
          .ok (.number (.float (-Float.ofNat significand)), text')
        else .ok (int (-(significand : Int)), text') := by
    intro text' head
    unfold readAfterWhole
    split
    · exact absurd rfl (head '.' rfl).1
    · exact absurd rfl (head 'e' rfl).2.1
    · exact absurd rfl (head 'E' rfl).2.2
    · rfl
  rw [whole text other] at read
  suffices done : rest = text ∧ ∀ text' : List Char,
      (if dropped ≠ 0 then readScaled negative significand dropped text'
        else if !negative then .ok (int significand, text')
        else if significand = 0 ∨ 0x8000000000000000 < significand then
          .ok (.number (.float (-Float.ofNat significand)), text')
        else .ok (int (-(significand : Int)), text')) = .ok (value, text') from
    ⟨done.1, fun text' head => (whole text' head).trans (done.2 text')⟩
  split at read
  · rename_i some
    obtain ⟨same, scaled⟩ := readScaled_rest read
    exact ⟨same, fun text' => by rw [if_pos some]; exact scaled text'⟩
  · rename_i none
    simp only [if_neg none]
    split at read
    · rename_i unsigned
      cases read
      exact ⟨rfl, fun _ => if_pos unsigned⟩
    · rename_i signed
      simp only [if_neg signed]
      split at read
      · rename_i beyond
        cases read
        exact ⟨rfl, fun _ => if_pos beyond⟩
      · rename_i within
        cases read
        exact ⟨rfl, fun _ => if_neg within⟩

theorem readAfterWhole_numeric (negative : Bool) (significand dropped : Nat) :
    Reader.Numeric (readAfterWhole negative significand dropped) := by
  intro text value rest read
  by_cases mark : ∀ c ∈ text.head?, c ≠ '.' ∧ c ≠ 'e' ∧ c ≠ 'E'
  · obtain ⟨rfl, behind⟩ := readAfterWhole_of_head mark read
    refine ⟨⟨[], rfl, fun _ member => nomatch member⟩, fun more apart => behind _ ?_⟩
    exact head_append mark fun c member =>
      ⟨apart.ne rfl c member, apart.ne rfl c member, apart.ne rfl c member⟩
  · unfold readAfterWhole at read
    split at read
    · obtain ⟨front, behind⟩ := readFraction_numeric _ _ _ _ _ _ read
      exact ⟨Numeric.cons rfl front, behind⟩
    · obtain ⟨front, behind⟩ := readExponent_numeric _ _ _ _ _ _ read
      exact ⟨Numeric.cons rfl front, behind⟩
    · obtain ⟨front, behind⟩ := readExponent_numeric _ _ _ _ _ _ read
      exact ⟨Numeric.cons rfl front, behind⟩
    · rename_i point small great
      refine absurd (fun c member => ?_) mark
      cases text with
      | nil => cases member
      | cons first tail =>
        cases member
        refine ⟨?_, ?_, ?_⟩
        · rintro rfl
          exact point tail rfl
        · rintro rfl
          exact small tail rfl
        · rintro rfl
          exact great tail rfl

/-- A number that does not start with a zero. -/
theorem readNumber_of_ne_zero {c : Char} (nonzero : c ≠ '0') (negative : Bool) (tail : List Char) :
    readNumber negative (c :: tail) =
      if isDigit c then
        readAfterWhole negative (takeDigits (digitValue c) 0 tail).1
          ((takeDigits (digitValue c) 0 tail).2.2.takeWhile isDigit).length
          ((takeDigits (digitValue c) 0 tail).2.2.dropWhile isDigit)
      else failBefore .badNumber tail := by
  unfold readNumber
  split
  · rename_i same
    cases same
  · rename_i same
    exact absurd (List.cons.inj same).1 nonzero
  · rename_i same
    cases same
    rfl

/-- **A number ends in front of the first character that cannot stand in one.** -/
theorem readNumber_numeric (negative : Bool) : Reader.Numeric (readNumber negative) := by
  intro text value rest read
  cases text with
  | nil => cases read
  | cons c tail =>
    by_cases zero : c = '0'
    · subst zero
      have starts : ∀ tail : List Char, readNumber negative ('0' :: tail) =
          if digitNext tail then failAt .badNumber tail else readAfterWhole negative 0 0 tail :=
        fun _ => rfl
      rw [starts] at read
      by_cases more : digitNext tail = true
      · rw [if_pos more] at read
        cases read
      · rw [if_neg more] at read
        obtain ⟨front, behind⟩ := readAfterWhole_numeric _ _ _ _ _ _ read
        refine ⟨Numeric.cons rfl front, fun other apart => ?_⟩
        rw [List.cons_append, starts, digitNext_append apart, if_neg more]
        exact behind other apart
    · rw [readNumber_of_ne_zero zero] at read
      by_cases digit : isDigit c = true
      · rw [if_pos digit] at read
        obtain ⟨numeric, behind⟩ := readAfterWhole_numeric _ _ _ _ _ _ read
        refine ⟨Numeric.cons (inNumber_of_isDigit digit) (Numeric.taken (digitValue c) 0 numeric),
          fun more apart => ?_⟩
        rw [List.cons_append, readNumber_of_ne_zero zero, if_pos digit, takeDigits_append apart]
        simp only
        rw [takeWhile_append_apart apart, dropWhile_append_apart apart]
        exact behind more apart
      · rw [if_neg digit] at read
        cases read

/-! ### Words -/

theorem readWord_ok {value found : Json} {word text rest : List Char}
    (read : readWord value word text = .ok (found, rest)) :
    found = value ∧ text = word ++ rest := by
  induction word generalizing text with
  | nil =>
    cases read
    exact ⟨rfl, rfl⟩
  | cons expected more ih =>
    cases text with
    | nil => cases read
    | cons c tail =>
      rw [readWord] at read
      by_cases same : c = expected
      · rw [if_pos same] at read
        obtain ⟨here, there⟩ := ih read
        exact ⟨here, by rw [same, there, List.cons_append]⟩
      · rw [if_neg same] at read
        cases read

theorem readWord_append (value : Json) (word rest : List Char) :
    readWord value word (word ++ rest) = .ok (value, rest) := by
  induction word with
  | nil => rfl
  | cons c more ih =>
    rw [List.cons_append, readWord, if_pos rfl]
    exact ih

/-! ### Strings -/

/-- The text of a string behind its opening quote. -/
inductive Body : List Char → Prop
  | close : Body ['"']
  | plain {c : Char} {rest : List Char} (noQuote : c ≠ '"') (noBackslash : c ≠ '\\')
      (below : Body rest) : Body (c :: rest)
  | escape (c : Char) {rest : List Char} (below : Body rest) : Body ('\\' :: c :: rest)

/-- Whether a reader takes characters of a string that may stand behind some others, and what
follows them is left alone. -/
def Reader.Inside {α : Type} (lead : List Char) (read : Reader α) : Prop :=
  ∀ text value rest, read text = .ok (value, rest) →
    ∃ front, text = front ++ rest ∧ (∀ body, Body body → Body (lead ++ (front ++ body))) ∧
      ∀ more, read (front ++ more) = .ok (value, more)

theorem plain_of_hexValue? {c : Char} {n : Nat} (digit : hexValue? c = some n) :
    c ≠ '"' ∧ c ≠ '\\' := by
  constructor <;> rintro rfl <;> cases digit

theorem readUnit_inside : Reader.Inside [] readUnit := by
  intro text unit rest read
  unfold readUnit at read
  split at read
  · rename_i a b c d more
    split at read
    · rename_i hexA hexB hexC hexD
      cases read
      refine ⟨[a, b, c, d], rfl, fun body below => ?_, fun other => ?_⟩
      · obtain ⟨⟨a1, a2⟩, ⟨b1, b2⟩⟩ := And.intro (plain_of_hexValue? hexA) (plain_of_hexValue? hexB)
        obtain ⟨⟨c1, c2⟩, ⟨d1, d2⟩⟩ := And.intro (plain_of_hexValue? hexC) (plain_of_hexValue? hexD)
        exact .plain a1 a2 (.plain b1 b2 (.plain c1 c2 (.plain d1 d2 below)))
      · simp only [List.cons_append, List.nil_append, readUnit, hexA, hexB, hexC, hexD]
    · cases read
  · cases read

/-- The character that a first unit and what follows it stand for. -/
theorem readUnicodeEscape_of_unit {unit : Nat} {text behind : List Char}
    (first : readUnit text = .ok (unit, behind)) :
    readUnicodeEscape text =
      if 0xDC00 ≤ unit ∧ unit ≤ 0xDFFF then failBefore .loneSurrogate behind
      else if 0xD800 ≤ unit ∧ unit ≤ 0xDBFF then
        match behind with
        | '\\' :: 'u' :: more => do
          let (low, more) ← readUnit more
          if 0xDC00 ≤ low ∧ low ≤ 0xDFFF then
            .ok (Char.ofNat (0x10000 + (unit - 0xD800) * 0x400 + (low - 0xDC00)), more)
          else failBefore .loneSurrogate more
        | '\\' :: more => failBefore .endOfEscape (more.drop 1)
        | [] => failBefore (.endOfText .string) []
        | _ :: more => failBefore .endOfEscape more
      else .ok (Char.ofNat unit, behind) := by
  unfold readUnicodeEscape
  rw [first]
  rfl

theorem readUnicodeEscape_inside : Reader.Inside ['\\', 'u'] readUnicodeEscape := by
  intro text value rest read
  obtain ⟨⟨unit, behind⟩, first, _⟩ := bind_ok read
  rw [readUnicodeEscape_of_unit first] at read
  obtain ⟨front, split, units, again⟩ := readUnit_inside _ _ _ first
  by_cases low : 0xDC00 ≤ unit ∧ unit ≤ 0xDFFF
  · rw [if_pos low] at read
    cases read
  · rw [if_neg low] at read
    by_cases high : 0xD800 ≤ unit ∧ unit ≤ 0xDBFF
    · rw [if_pos high] at read
      split at read
      · rename_i more
        obtain ⟨⟨second, last⟩, found, done⟩ := bind_ok read
        obtain ⟨front', rfl, units', again'⟩ := readUnit_inside _ _ _ found
        simp only at done
        by_cases pair : 0xDC00 ≤ second ∧ second ≤ 0xDFFF
        · rw [if_pos pair] at done
          obtain ⟨rfl, rfl⟩ := Prod.mk.inj (Except.ok.inj done)
          refine ⟨front ++ '\\' :: 'u' :: front', by simp [split], fun body below => ?_,
            fun more => ?_⟩
          · have inner := units _ (.escape 'u' (units' body below))
            simpa using Body.escape 'u' inner
          · have start := again ('\\' :: 'u' :: (front' ++ more))
            rw [List.append_assoc, List.cons_append, List.cons_append,
              readUnicodeEscape_of_unit start, if_neg low, if_pos high]
            simp only [again', bind, Except.bind, if_pos pair]
        · rw [if_neg pair] at done
          cases done
      all_goals cases read
    · rw [if_neg high] at read
      cases read
      refine ⟨front, split, fun body below => .escape 'u' (units body below), fun more => ?_⟩
      rw [readUnicodeEscape_of_unit (again more), if_neg low, if_neg high]

theorem readEscape_inside : Reader.Inside ['\\'] readEscape := by
  intro text value rest read
  cases text with
  | nil => cases read
  | cons c tail =>
    unfold readEscape at read
    simp only at read
    split at read
    case h_9 =>
      obtain ⟨front, rfl, inside, again⟩ := readUnicodeEscape_inside _ _ _ read
      exact ⟨'u' :: front, rfl, inside, again⟩
    case h_10 => cases read
    all_goals
      cases read
      exact ⟨[_], rfl, fun body below => .escape _ below, fun _ => rfl⟩

/-- A string ends with the first quote that is not escaped. -/
theorem readString_ok {budget : Nat} {sofar text found rest : List Char}
    (read : readString budget sofar text = .ok (found, rest)) :
    ∃ front, text = front ++ rest ∧ Body front ∧ ∀ more budget', front.length ≤ budget' →
      readString budget' sofar (front ++ more) = .ok (found, more) := by
  induction budget generalizing sofar text with
  | zero => cases text <;> cases read
  | succ budget ih =>
    cases text with
    | nil => cases read
    | cons c tail =>
      rw [readString] at read
      by_cases quote : c = '"'
      · subst quote
        cases read
        refine ⟨['"'], rfl, .close, fun more budget' room => ?_⟩
        obtain ⟨budget', rfl⟩ := Nat.exists_eq_add_of_le' room
        rfl
      · rw [if_neg quote] at read
        by_cases backslash : c = '\\'
        · subst backslash
          rw [if_pos rfl] at read
          obtain ⟨⟨escaped, behind⟩, here, there⟩ := bind_ok read
          obtain ⟨front, rfl, inside, again⟩ := readEscape_inside _ _ _ here
          obtain ⟨front', rfl, body, below⟩ := ih there
          refine ⟨'\\' :: (front ++ front'), by simp, inside front' body,
            fun more budget' room => ?_⟩
          obtain ⟨budget', rfl⟩ : ∃ smaller, budget' = smaller + 1 :=
            ⟨budget' - 1, by simp only [List.length_cons] at room; omega⟩
          rw [List.cons_append, readString, if_neg quote, if_pos rfl, List.append_assoc, again]
          refine below more budget' ?_
          simp only [List.length_cons, List.length_append] at room
          omega
        · rw [if_neg backslash] at read
          by_cases control : c.toNat < 32
          · rw [if_pos control] at read
            cases read
          · rw [if_neg control] at read
            obtain ⟨front, rfl, body, below⟩ := ih read
            refine ⟨c :: front, rfl, .plain quote backslash body, fun more budget' room => ?_⟩
            obtain ⟨budget', rfl⟩ : ∃ smaller, budget' = smaller + 1 :=
              ⟨budget' - 1, by simp only [List.length_cons] at room; omega⟩
            rw [List.cons_append, readString, if_neg quote, if_neg backslash, if_neg control]
            exact below more budget' (Nat.le_of_succ_le_succ room)

/-- **A string is read in the same way whatever follows it.** -/
theorem readText_ok {text rest : List Char} {key : String}
    (read : readText text = .ok (key, rest)) :
    ∃ front, text = front ++ rest ∧ Body front ∧
      ∀ more, readText (front ++ more) = .ok (key, more) := by
  obtain ⟨⟨found, behind⟩, here, done⟩ := bind_ok read
  cases done
  obtain ⟨front, split, body, again⟩ := readString_ok here
  refine ⟨front, split, body, fun more => ?_⟩
  unfold readText
  rw [again more _ (by simp only [List.length_append]; omega)]
  rfl

/-! ### Scalars -/

/-- What the texts of scalars look like. -/
inductive ScalarText : List Char → Prop
  | word {text : List Char} (known : text = ['n', 'u', 'l', 'l'] ∨ text = ['t', 'r', 'u', 'e'] ∨
      text = ['f', 'a', 'l', 's', 'e']) : ScalarText text
  | quoted {body : List Char} (string : Body body) : ScalarText ('"' :: body)
  | numeric {c : Char} {rest : List Char} (start : c = '-' ∨ isDigit c = true)
      (below : ∀ d ∈ rest, inNumber d = true) : ScalarText (c :: rest)

theorem readValue_of_digit {c : Char} (digit : isDigit c = true) (nesting : Nat)
    (rest : List Char) : readValue nesting (c :: rest) = readNumber false (c :: rest) := by
  have visible : skipBlanks (c :: rest) = c :: rest := by
    refine List.dropWhile_cons_of_neg fun blank => ?_
    unfold isBlank at blank
    simp only [Bool.or_eq_true, decide_eq_true_eq] at blank
    rcases blank with ((rfl | rfl) | rfl) | rfl <;> cases digit
  unfold readValue
  rw [visible]
  simp only
  split
  all_goals first
    | cases digit
    | rw [if_pos digit]

theorem readValue_word {nesting : Nat} {first : Char} {word rest : List Char} {value : Json}
    (known : (first = 'n' ∧ word = ['u', 'l', 'l'] ∧ value = .null) ∨
      (first = 't' ∧ word = ['r', 'u', 'e'] ∧ value = .bool true) ∨
        (first = 'f' ∧ word = ['a', 'l', 's', 'e'] ∧ value = .bool false)) :
    readValue nesting (first :: (word ++ rest)) = .ok (value, rest) := by
  rcases known with ⟨rfl, rfl, rfl⟩ | ⟨rfl, rfl, rfl⟩ | ⟨rfl, rfl, rfl⟩
  · cases nesting <;> exact readWord_append .null _ rest
  · cases nesting <;> exact readWord_append (.bool true) _ rest
  · cases nesting <;> exact readWord_append (.bool false) _ rest

theorem readValue_quoted {nesting : Nat} {text rest : List Char} {key : String}
    (read : readText text = .ok (key, rest)) :
    readValue nesting ('"' :: text) = .ok (.string key, rest) := by
  have here : (readText text >>= fun (found : String × List Char) =>
      (.ok (.string found.1, found.2) : Except ReadError (Json × List Char))) =
        .ok (.string key, rest) := by
    rw [read]
    rfl
  cases nesting <;> exact here

theorem Body.getLast? {body : List Char} (string : Body body) : body.getLast? = some '"' := by
  induction string with
  | close => rfl
  | plain _ _ below ih => rw [List.getLast?_cons, ih]; rfl
  | escape c below ih => rw [List.getLast?_cons, List.getLast?_cons, ih]; rfl

/-- How scalars end. -/
theorem ScalarText.last {text : List Char} (scalar : ScalarText text) :
    ∀ c ∈ text.getLast?, inNumber c = true ∨ c = '"' ∨ c = 'l' := by
  cases scalar with
  | word known =>
    rcases known with rfl | rfl | rfl <;> rintro c ⟨⟩
    · exact .inr (.inr rfl)
    · exact .inl rfl
    · exact .inl rfl
  | quoted string =>
    rw [List.getLast?_cons, string.getLast?]
    rintro c ⟨⟩
    exact .inr (.inl rfl)
  | numeric start below =>
    intro c member
    refine .inl ?_
    rcases List.mem_cons.mp (List.mem_of_mem_getLast? member) with rfl | inRest
    · rcases start with rfl | digit
      · rfl
      · exact inNumber_of_isDigit digit
    · exact below c inRest

/-- **A scalar is read in the same way wherever it stands**, in front of anything that does not go
on like a number. -/
theorem readValue_scalar {text : List Char} {value : Json} (visible : skipBlanks text = text)
    (read : readValue 0 text = .ok (value, [])) :
    ScalarText text ∧
      ∀ nesting more, Apart more → readValue nesting (text ++ more) = .ok (value, more) := by
  have whole := read
  unfold readValue at read
  rw [visible] at read
  cases text with
  | nil => cases read
  | cons c rest =>
    simp only at read
    split at read
    · obtain ⟨rfl, rfl⟩ := readWord_ok read
      exact ⟨.word (.inl rfl), fun nesting more _ => readValue_word (.inl ⟨rfl, rfl, rfl⟩)⟩
    · obtain ⟨rfl, rfl⟩ := readWord_ok read
      exact ⟨.word (.inr (.inl rfl)),
        fun nesting more _ => readValue_word (.inr (.inl ⟨rfl, rfl, rfl⟩))⟩
    · obtain ⟨rfl, rfl⟩ := readWord_ok read
      exact ⟨.word (.inr (.inr rfl)),
        fun nesting more _ => readValue_word (.inr (.inr ⟨rfl, rfl, rfl⟩))⟩
    · obtain ⟨⟨key, behind⟩, here, done⟩ := bind_ok read
      cases done
      obtain ⟨front, split, body, again⟩ := readText_ok here
      rw [List.append_nil] at split
      subst split
      refine ⟨.quoted body, fun nesting more _ => ?_⟩
      exact readValue_quoted (again more)
    · obtain ⟨⟨front, split, numeric⟩, again⟩ := readNumber_numeric true _ _ _ read
      rw [List.append_nil] at split
      subst split
      refine ⟨.numeric (.inl rfl) numeric, fun nesting more apart => ?_⟩
      cases nesting <;> exact again more apart
    · cases read
    · cases read
    · rename_i noWord _ _ _ _ _ _
      by_cases digit : isDigit c = true
      · rw [if_pos digit] at read
        obtain ⟨⟨front, split, numeric⟩, again⟩ := readNumber_numeric false _ _ _ read
        rw [List.append_nil] at split
        refine ⟨.numeric (.inr digit) fun d member => ?_, fun nesting more apart => ?_⟩
        · exact numeric d (by rw [← split]; exact List.mem_cons_of_mem _ member)
        · rw [List.cons_append, readValue_of_digit digit]
          exact again more apart
      · rw [if_neg digit] at read
        cases read

end FieldResolver.Json

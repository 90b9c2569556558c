/-
**Compact texts are read back.**

The compact text of a value is read as the value, wherever it stands. Whatever characters are in its
strings and keys, they come back from their escapes, and whole numbers come back from their digits.
Doubles go through the reader's own rounding, which does not bring back all of them: whether the
doubles of a value do is for the value to say.

* `readText_escaped`: a string comes back;
* `Number.ReadsBack`, `Number.readsBack_int`: whether a number comes back, which whole numbers do;
* `Written.ofJson`: the compact text as a written value;
* `solid_chars`: a compact text is read as its value.
-/

import FieldResolver.Proofs.Json.Narrowed
import FieldResolver.Proofs.Json.Reading

namespace FieldResolver.Json

open Decimal

/-! ### Strings -/

theorem hexValue?_hexDigit (n : Nat) : hexValue? (hexDigit n) = some (n % 16) := by
  have all : ∀ d < 16, hexValue? (hexDigit d) = some d := by decide
  have same : hexDigit n = hexDigit (n % 16) := by rw [hexDigit, hexDigit, Nat.mod_mod]
  rw [same, all _ (Nat.mod_lt _ (by norm_num))]

/-- A control character comes back from its four hexadecimal digits. -/
theorem readUnicodeEscape_control {c : Char} (control : c.toNat < 32) (rest : List Char) :
    readUnicodeEscape ('0' :: '0' :: hexDigit (c.toNat / 16) :: hexDigit c.toNat :: rest) =
      .ok (c, rest) := by
  have unit : readUnit ('0' :: '0' :: hexDigit (c.toNat / 16) :: hexDigit c.toNat :: rest) =
      .ok (c.toNat, rest) := by
    have zero : hexValue? '0' = some 0 := rfl
    simp only [readUnit, zero, hexValue?_hexDigit, Except.ok.injEq, Prod.mk.injEq, and_true]
    omega
  rw [readUnicodeEscape_of_unit unit, if_neg (by omega), if_neg (by omega), Char.ofNat_toNat]

/-- A character comes back from the way in which it is written. -/
theorem readString_escapeChar (budget : Nat) (read : List Char) (c : Char) (rest : List Char) :
    readString (budget + 1) read (escapeChar c ++ rest) = readString budget (c :: read) rest := by
  have code : Char.ofNat c.toNat = c := Char.ofNat_toNat c
  by_cases letter : c = '"' ∨ c = '\\' ∨ c = '\n' ∨ c = '\r' ∨ c = '\t'
  · rcases letter with rfl | rfl | rfl | rfl | rfl <;> rfl
  · push Not at letter
    obtain ⟨noQuote, noBackslash, noNewline, noReturn, noTab⟩ := letter
    rw [escapeChar, if_neg noQuote, if_neg noBackslash, if_neg noNewline, if_neg noReturn,
      if_neg noTab]
    split
    · rename_i same
      rw [← code, same]
      rfl
    · split
      · rename_i same
        rw [← code, same]
        rfl
      · split
        · rename_i control
          have back := readUnicodeEscape_control control rest
          show (readUnicodeEscape
              ('0' :: '0' :: hexDigit (c.toNat / 16) :: hexDigit c.toNat :: rest)
            >>= fun found => readString budget (found.1 :: read) found.2) = _
          rw [back]
          rfl
        · rename_i visible
          rw [List.singleton_append, readString, if_neg noQuote, if_neg noBackslash, if_neg visible]

theorem readString_escaped {budget : Nat} {text : List Char} (room : text.length < budget)
    (read rest : List Char) :
    readString budget read (text.flatMap escapeChar ++ '"' :: rest) =
      .ok (read.reverse ++ text, rest) := by
  induction text generalizing budget read with
  | nil =>
    obtain ⟨budget, rfl⟩ := Nat.exists_eq_succ_of_ne_zero (Nat.ne_of_gt room)
    rw [List.append_nil]
    rfl
  | cons c others ih =>
    obtain ⟨budget, rfl⟩ := Nat.exists_eq_succ_of_ne_zero (Nat.ne_of_gt (Nat.zero_lt_of_lt room))
    rw [List.flatMap_cons, List.append_assoc, readString_escapeChar,
      ih (Nat.lt_of_succ_lt_succ room), List.reverse_cons, List.append_assoc, List.singleton_append]

theorem length_le_escaped (text : List Char) :
    text.length ≤ (text.flatMap escapeChar).length := by
  induction text with
  | nil => exact Nat.le_refl 0
  | cons c rest ih =>
    obtain ⟨first, more, head, -⟩ := escapeChar_head c
    rw [List.flatMap_cons, head, List.length_append, List.length_cons, List.length_cons]
    omega

/-- **A string comes back from its text**, whatever its characters are. -/
theorem readText_escaped (text : String) (rest : List Char) :
    readText (text.toList.flatMap escapeChar ++ '"' :: rest) = .ok (text, rest) := by
  unfold readText
  rw [readString_escaped (by
    have longer := length_le_escaped text.toList
    rw [List.length_append]
    omega)]
  show Except.ok (String.ofList ([].reverse ++ text.toList), rest) = _
  rw [List.reverse_nil, List.nil_append, String.ofList_toList]

/-! ### Numbers -/

/-- Whether a number comes back from its text. -/
def Number.ReadsBack (number : Number) : Prop :=
  readValue 0 number.chars = .ok (.number number, [])

/-- What the reader makes of the text of a number. -/
def Number.readsBack? (number : Number) : Bool :=
  match readValue 0 number.chars with
  | .ok (.number found, []) => decide (found = number)
  | _ => false

theorem Number.readsBack?_iff {number : Number} :
    number.readsBack? = true ↔ number.ReadsBack := by
  unfold readsBack? ReadsBack
  constructor
  · intro same
    split at same
    · rename_i found read
      rw [read, of_decide_eq_true same]
    · cases same
  · intro read
    rw [read]
    exact decide_eq_true rfl

instance (number : Number) : Decidable number.ReadsBack :=
  decidable_of_iff _ Number.readsBack?_iff

/-- Only zero is written with a zero in front. -/
theorem head_natDigits_ne_zero {n : Nat} (positive : 0 < n) :
    ∀ c ∈ (natDigits n).head?, c ≠ '0' := by
  induction n using Nat.strong_induction_on with
  | _ n ih =>
    by_cases small : n < 10
    · rw [natDigits, Nat.toDigits_of_lt_base small]
      rintro c ⟨⟩ zero
      exact absurd (Nat.digitChar_eq_zero.mp zero) (Nat.ne_of_gt positive)
    · have below := ih (n / 10) (by omega) (by omega)
      rw [natDigits, Nat.toDigits_of_base_le (by norm_num) (Nat.le_of_not_lt small)]
      obtain ⟨first, rest, head, -⟩ := head_natDigits (n / 10)
      rw [natDigits] at head below
      rw [head] at below ⊢
      exact below

/-- Digits that fit are all taken. -/
theorem takeDigits_all {digits : List Char} (all : ∀ c ∈ digits, isDigit c = true)
    {significand : Nat} (taken : Nat)
    (fits : natOfDigits digits significand < 0x10000000000000000) :
    takeDigits significand taken digits =
      (natOfDigits digits significand, taken + digits.length, []) := by
  induction digits generalizing significand taken with
  | nil => rfl
  | cons c rest ih =>
    obtain ⟨digit, all⟩ := List.forall_mem_cons.mp all
    have grows : ∀ (digits : List Char) (sofar : Nat), sofar ≤ natOfDigits digits sofar := by
      intro digits
      induction digits with
      | nil => exact fun sofar => Nat.le_refl sofar
      | cons d others ih =>
        intro sofar
        have step := ih (10 * sofar + digitValue d)
        show sofar ≤ natOfDigits others (10 * sofar + digitValue d)
        omega
    have fits' : natOfDigits rest (10 * significand + digitValue c) < 0x10000000000000000 := fits
    have here := (grows rest (10 * significand + digitValue c)).trans_lt fits'
    rw [takeDigits, digit, decide_eq_true here, Bool.true_and, if_pos rfl, ih all _ fits',
      List.length_cons]
    simp only [Nat.add_assoc, Nat.add_comm 1]
    rfl

/-- The digits of a natural number below `2 ^ 64` are read as the number. -/
theorem readNumber_natDigits {n : Nat} (small : n < 0x10000000000000000) (negative : Bool) :
    readNumber negative (natDigits n) = readAfterWhole negative n 0 [] := by
  obtain rfl | positive := Nat.eq_zero_or_pos n
  · rfl
  · have digits : ∀ c ∈ natDigits n, isDigit c = true :=
      fun c member => isDigit_of_isDigit (allDigits_natDigits n c member)
    have value : natOfDigits (natDigits n) 0 = n := numeral_natDigits n
    have nonzero := head_natDigits_ne_zero positive
    cases text : natDigits n with
    | nil => exact absurd text Nat.toDigits_ne_nil
    | cons c rest =>
      rw [text] at digits value nonzero
      obtain ⟨digit, digits⟩ := List.forall_mem_cons.mp digits
      have whole : natOfDigits rest (digitValue c) = n := by
        rw [← value]
        show _ = natOfDigits rest (10 * 0 + digitValue c)
        rw [Nat.mul_zero, Nat.zero_add]
      unfold readNumber
      split
      · rename_i same
        cases same
      · rename_i same
        exact absurd (List.cons.inj same).1 (nonzero c rfl)
      · rename_i same
        cases same
        rw [if_pos digit, takeDigits_all digits 0 (by rw [whole]; exact small), whole]
        rfl

/-- **Whole numbers come back from their digits.** -/
theorem Number.readsBack_int {value : Int} (valid : (Number.int value).Valid) :
    (Number.int value).ReadsBack := by
  have range : minInt ≤ value ∧ value ≤ maxNat := valid
  unfold minInt maxNat at range
  have back := readNumber_natDigits (n := value.natAbs) (by omega) (decide (value < 0))
  unfold Number.ReadsBack
  rw [Number.chars, intChars]
  by_cases negative : value < 0
  · rw [if_pos negative]
    rw [decide_eq_true negative] at back
    show readNumber true (natDigits value.natAbs) = _
    rw [back]
    show (if value.natAbs = 0 ∨ 0x8000000000000000 < value.natAbs then _ else _) = _
    rw [if_neg (by omega), Json.int, show -(value.natAbs : Int) = value by omega]
  · obtain ⟨first, rest, head, digit⟩ := head_natDigits value.natAbs
    rw [if_neg negative, head, readValue_of_digit (isDigit_of_isDigit digit), ← head]
    rw [decide_eq_false negative] at back
    rw [back]
    show Except.ok (Json.int value.natAbs, []) = _
    rw [Json.int, show (value.natAbs : Int) = value by omega]

/-- Whether the doubles among numbers come back from their texts. -/
def Number.Kept : Number → Prop
  | .int _ => True
  | .float value => (Number.float value).ReadsBack

theorem Number.readsBack {number : Number} (valid : number.Valid) (kept : number.Kept) :
    number.ReadsBack := by
  cases number with
  | int value => exact readsBack_int valid
  | float value => exact kept

/-! ### Values -/

/-- A key as it is written. -/
def Label.ofKey (key : String) : Label where
  front := []
  body := key.toList.flatMap escapeChar ++ ['"']
  key
  back := []

theorem blank_nil : Blank [] := fun _ member => nomatch member

theorem Label.formed_ofKey (key : String) : (Label.ofKey key).Formed :=
  ⟨blank_nil, readText_escaped key [], blank_nil⟩

namespace Written

mutual

/-- The compact text of a value as a written value. -/
def ofJson : Json → Written
  | .array items => .array (ofItems items) false []
  | .object fields => .object (ofFields fields) false []
  | value => .scalar value.chars value

/-- The compact texts of items. -/
def ofItems : List Json → List (Padded Written)
  | [] => []
  | item :: rest => ⟨[], ofJson item, []⟩ :: ofItems rest

/-- The compact texts of fields. -/
def ofFields : List (String × Json) → List (Label × Padded Written)
  | [] => []
  | (key, value) :: rest => (.ofKey key, ⟨[], ofJson value, []⟩) :: ofFields rest

end

theorem ofItems_eq_map (items : List Json) :
    ofItems items = items.map fun item => ⟨[], ofJson item, []⟩ := by
  induction items with
  | nil => rfl
  | cons item rest ih => rw [ofItems, ih, List.map_cons]

theorem ofFields_eq_map (fields : List (String × Json)) :
    ofFields fields = fields.map fun field => (.ofKey field.1, ⟨[], ofJson field.2, []⟩) := by
  induction fields with
  | nil => rfl
  | cons field rest ih => rw [ofFields, ih, List.map_cons]

/-- Every value with its compact text. -/
theorem write_ofJson (gap : List Char) (value : Json) : (ofJson value).write gap = value.chars := by
  induction value using holds_of_parts with
  | null | bool | number | string => rfl
  | array items ih =>
    rw [ofJson, write_array, ofItems_eq_map, List.map_map, chars, itemTexts_eq_map]
    rw [List.map_congr_left (g := chars) fun item member => ?_]
    · rfl
    · show [] ++ ((ofJson item).write gap ++ []) = _
      rw [List.nil_append, List.append_nil, ih item member]
  | object fields ih =>
    rw [ofJson, write_object, ofFields_eq_map, List.map_map, chars, fieldTexts_eq_map]
    rw [List.map_congr_left (g := fieldText) fun field member => ?_]
    · rfl
    · show Label.text (.ofKey field.1) ++ ([] ++ ((ofJson field.2).write gap ++ [])) = _
      rw [List.nil_append, List.append_nil, ih field member, fieldText, quote, Label.text]
      simp [Label.ofKey]

theorem fill_ofJson (gap value : Json) : (ofJson value).fill gap = value := by
  induction value using holds_of_parts with
  | null | bool | number | string => rfl
  | array items ih =>
    rw [ofJson, fill_array, ofItems_eq_map, List.map_map]
    exact congrArg Json.array ((List.map_congr_left ih).trans (List.map_id items))
  | object fields ih =>
    rw [ofJson, fill_object, ofFields_eq_map, List.map_map]
    refine congrArg Json.object ((List.map_congr_left fun field member => ?_).trans
      (List.map_id fields))
    exact Prod.ext rfl (ih field member)

theorem isExact_ofJson (value : Json) : (ofJson value).isExact = true := by
  induction value using holds_of_parts with
  | null | bool | number | string => rfl
  | array items ih =>
    rw [ofJson, isExact_array, ofItems_eq_map, List.all_map, Bool.not_false, Bool.and_true]
    exact List.all_eq_true.mpr ih
  | object fields ih =>
    rw [ofJson, isExact_object, ofFields_eq_map, List.all_map, Bool.not_false, Bool.and_true]
    exact List.all_eq_true.mpr ih

/-- There is nothing to tidy up in a compact text. -/
theorem tidy_ofJson (value : Json) : (ofJson value).tidy = ofJson value := by
  induction value using holds_of_parts with
  | null | bool | number | string => rfl
  | array items ih =>
    rw [ofJson, tidy_array, ofItems_eq_map, List.map_map]
    refine congrArg (Written.array · false []) (List.map_congr_left fun item member => ?_)
    exact congrArg (Padded.mk [] · []) (ih item member)
  | object fields ih =>
    rw [ofJson, tidy_object, ofFields_eq_map, List.map_map]
    refine congrArg (Written.object · false []) (List.map_congr_left fun field member => ?_)
    exact congrArg (fun content => (Label.ofKey field.1, Padded.mk [] content []))
      (ih field member)

/-- **Compact texts are JSON**, if the doubles in the value come back. -/
theorem formed_ofJson {value : Json} (valid : value.Valid) (kept : value.AllNumbers Number.Kept) :
    (ofJson value).Formed := by
  induction value using holds_of_parts with
  | null => exact ⟨rfl, rfl⟩
  | bool b => cases b <;> exact ⟨rfl, rfl⟩
  | number n =>
    obtain ⟨⟨first, rest, head, numeric⟩, -⟩ := Number.chars_numeric valid
    refine ⟨?_, Number.readsBack valid kept⟩
    show skipBlanks n.chars = n.chars
    rw [head]
    rcases numeric with rfl | digit
    · rfl
    · refine skipBlanks_of_head (visible_of_opens ?_) rest
      simp [opens, isDigit_of_isDigit digit]
  | string text =>
    refine ⟨rfl, ?_⟩
    exact readValue_quoted (readText_escaped text [])
  | array items ih =>
    have valids := itemsValid_iff.mp valid
    have numbers := itemNumbers_iff.mp kept
    rw [ofJson, formed_array, ofItems_eq_map, List.forall_mem_map]
    refine ⟨fun item member => ⟨blank_nil, ?_, blank_nil⟩, blank_nil, (absurd · Bool.false_ne_true)⟩
    exact ih item member (valids item member) (numbers item member)
  | object fields ih =>
    have valids := fieldsValid_iff.mp valid.2
    have numbers := fieldNumbers_iff.mp kept
    rw [ofJson, formed_object, ofFields_eq_map, List.forall_mem_map]
    refine ⟨fun field member => ⟨Label.formed_ofKey field.1, blank_nil, ?_, blank_nil⟩, blank_nil,
      (absurd · Bool.false_ne_true)⟩
    exact ih field member (valids field member) (numbers field member)

end Written

/-- **A compact text is read as its value**, wherever it stands. -/
theorem solid_chars {value : Json} (valid : value.Valid)
    (kept : value.AllNumbers Number.Kept) : Solid value.chars value := by
  have none : Solid ['n', 'u', 'l', 'l'] .null := solid_scalar rfl rfl
  have whole := Written.solid_write none (Written.formed_ofJson valid kept)
    (Written.isExact_ofJson value)
  rwa [Written.write_ofJson, Written.fill_ofJson] at whole

end FieldResolver.Json

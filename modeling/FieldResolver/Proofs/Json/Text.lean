/-
**The text of a value determines it.**

Texts of values need no separators: where a text ends is seen from the text itself, or for numbers
from the character behind it. So different values have different texts, whatever quotes, commas and
brackets stand in their strings.

* `quote_append_inj`: where a quoted string ends and what it says;
* `decodes`: where the text of a value ends and what it says;
* `render_injective`: different values have different texts.
-/

import FieldResolver.Json.Printer
import FieldResolver.Proofs.Decimal.Text
import FieldResolver.Proofs.Json.Valid

namespace FieldResolver.Json

/-! ### Strings -/

/-- The value of a hexadecimal digit. -/
def hexValue (c : Char) : Nat :=
  if c.isDigit then c.toNat - '0'.toNat else c.toNat - 'a'.toNat + 10

theorem hexValue_hexDigit (n : Nat) : hexValue (hexDigit n) = n % 16 := by
  have all : ∀ d < 16, hexValue (hexDigit d) = d := by decide
  have same : hexDigit n = hexDigit (n % 16) := by
    rw [hexDigit, hexDigit, Nat.mod_mod]
  rw [same, all _ (Nat.mod_lt _ (by norm_num))]

/-- The character that an escape stands for, given what follows the backslash. -/
def escapeMeaning : List Char → Option (Char × List Char)
  | 'u' :: _ :: _ :: high :: low :: rest =>
    some (Char.ofNat (16 * hexValue high + hexValue low), rest)
  | 'n' :: rest => some ('\n', rest)
  | 'r' :: rest => some ('\r', rest)
  | 't' :: rest => some ('\t', rest)
  | 'b' :: rest => some (Char.ofNat 8, rest)
  | 'f' :: rest => some (Char.ofNat 12, rest)
  | c :: rest => some (c, rest)
  | [] => none

/-- The first character of a string's text, and what follows it. -/
def firstChar : List Char → Option (Char × List Char)
  | c :: rest => if c = '\\' then escapeMeaning rest else some (c, rest)
  | [] => none

/-- A character is read back from the way in which it is written. -/
theorem firstChar_escapeChar (c : Char) (rest : List Char) :
    firstChar (escapeChar c ++ rest) = some (c, rest) := by
  have code : Char.ofNat c.toNat = c := Char.ofNat_toNat c
  by_cases letter : c = '"' ∨ c = '\\' ∨ c = '\n' ∨ c = '\r' ∨ c = '\t'
  · rcases letter with rfl | rfl | rfl | rfl | rfl <;> rfl
  · push Not at letter
    obtain ⟨noQuote, noBackslash, noNewline, noReturn, noTab⟩ := letter
    rw [escapeChar, if_neg noQuote, if_neg noBackslash, if_neg noNewline, if_neg noReturn,
      if_neg noTab]
    split
    · rename_i same
      rw [← code, same]
      rfl
    · split
      · rename_i same
        rw [← code, same]
        rfl
      · split
        · show some (Char.ofNat (16 * hexValue (hexDigit (c.toNat / 16)) +
            hexValue (hexDigit c.toNat)), rest) = _
          rw [hexValue_hexDigit, hexValue_hexDigit,
            show 16 * (c.toNat / 16 % 16) + c.toNat % 16 = c.toNat by omega, code]
        · exact if_neg noBackslash

/-- No character is written with a quote in front. -/
theorem escapeChar_head (c : Char) : ∃ first rest, escapeChar c = first :: rest ∧ first ≠ '"' := by
  unfold escapeChar
  split
  · exact ⟨_, _, rfl, by decide⟩
  · rename_i noQuote
    repeat' split
    all_goals first
      | exact ⟨_, _, rfl, noQuote⟩
      | exact ⟨_, _, rfl, by decide⟩

theorem quote_append (text rest : List Char) :
    quote text ++ rest = '"' :: (text.flatMap escapeChar ++ '"' :: rest) := by
  rw [quote, List.cons_append, List.append_assoc]
  rfl

/-- Where a quoted string ends and what it says. -/
theorem quote_append_inj {text text' rest rest' : List Char}
    (same : quote text ++ rest = quote text' ++ rest') : text = text' ∧ rest = rest' := by
  rw [quote_append, quote_append] at same
  have body := (List.cons.inj same).2
  clear same
  induction text generalizing text' with
  | nil =>
    cases text' with
    | nil => exact ⟨rfl, (List.cons.inj body).2⟩
    | cons c others =>
      obtain ⟨first, more, head, noQuote⟩ := escapeChar_head c
      rw [List.flatMap_cons, head] at body
      exact absurd (List.cons.inj body).1.symm noQuote
  | cons c others ih =>
    cases text' with
    | nil =>
      obtain ⟨first, more, head, noQuote⟩ := escapeChar_head c
      rw [List.flatMap_cons, head] at body
      exact absurd (List.cons.inj body).1 noQuote
    | cons c' others' =>
      rw [List.flatMap_cons, List.flatMap_cons, List.append_assoc, List.append_assoc] at body
      have read := congrArg firstChar body
      rw [firstChar_escapeChar, firstChar_escapeChar, Option.some_inj] at read
      obtain ⟨rfl, below⟩ := Prod.mk.inj read
      obtain ⟨rfl, tails⟩ := ih below
      exact ⟨rfl, tails⟩

/-! ### Numbers -/

/-- Whether a text is over or goes on behind a value. -/
def Ends (rest : List Char) : Prop := ∀ c ∈ rest.head?, c = ',' ∨ c = ']' ∨ c = '}'

theorem ends_cons {c : Char} (mark : c = ',' ∨ c = ']' ∨ c = '}') (rest : List Char) :
    Ends (c :: rest) := by
  rintro other ⟨⟩
  exact mark

/-- A number starts with a digit or a minus sign and has only characters of numbers. -/
theorem Number.chars_numeric {number : Number} (valid : number.Valid) :
    (∃ first rest, number.chars = first :: rest ∧ (first = '-' ∨ first.isDigit = true)) ∧
      ∀ c ∈ number.chars, Decimal.isNumeric c = true := by
  have signed : ∀ (negative : Bool) (text : List Char),
      (∃ first rest, text = first :: rest ∧ first.isDigit = true) →
      (∀ c ∈ text, Decimal.isNumeric c = true) →
      (∃ first rest, (if negative then '-' :: text else text) = first :: rest ∧
        (first = '-' ∨ first.isDigit = true)) ∧
      ∀ c ∈ if negative then '-' :: text else text, Decimal.isNumeric c = true := by
    intro negative text head numeric
    cases negative with
    | false =>
      obtain ⟨first, rest, same, digit⟩ := head
      exact ⟨⟨first, rest, same, .inr digit⟩, numeric⟩
    | true => exact ⟨⟨'-', text, rfl, .inl rfl⟩, List.forall_mem_cons.mpr ⟨rfl, numeric⟩⟩
  cases number with
  | int value =>
    rw [chars, Decimal.intChars_eq]
    exact signed _ _ (Decimal.head_natDigits _) (Decimal.allDigits_natDigits _).isNumeric
  | float value =>
    obtain ⟨negative, mantissa, exponent, parts⟩ := Decimal.exists_parts valid
    have fractional := Decimal.fractional_sizeText (Decimal.canonical_of_ofFloat parts)
    rw [chars, Decimal.chars_of_finite parts]
    exact signed _ _ fractional.head fractional.isNumeric

/-- The text of a number determines it. -/
theorem Number.chars_injective {a b : Number} (valid : a.Valid) (valid' : b.Valid)
    (same : a.chars = b.chars) : a = b := by
  cases a with
  | int n =>
    cases b with
    | int n' => rw [Decimal.intChars_injective same]
    | float y => exact absurd same (Decimal.intChars_ne_chars n valid')
  | float x =>
    cases b with
    | int n' => exact absurd same.symm (Decimal.intChars_ne_chars n' valid)
    | float y => rw [Decimal.chars_injective valid valid' same]

/-- Where a number ends and what it is. -/
theorem Number.chars_append_inj {a b : Number} (valid : a.Valid) (valid' : b.Valid)
    {rest rest' : List Char} (ends : Ends rest) (ends' : Ends rest')
    (same : a.chars ++ rest = b.chars ++ rest') : a = b ∧ rest = rest' := by
  have stops : ∀ {rest}, Ends rest → rest.takeWhile Decimal.isNumeric = [] := by
    intro rest ends
    cases rest with
    | nil => rfl
    | cons c others =>
      have mark := ends c rfl
      rcases mark with rfl | rfl | rfl <;> rfl
  have texts := congrArg (List.takeWhile Decimal.isNumeric) same
  rw [List.takeWhile_append_of_pos (chars_numeric valid).2,
    List.takeWhile_append_of_pos (chars_numeric valid').2, stops ends, stops ends',
    List.append_nil, List.append_nil] at texts
  rw [texts] at same
  exact ⟨chars_injective valid valid' texts, List.append_cancel_left same⟩

/-! ### Lists of texts -/

/-- What follows the first of several texts. -/
def following : List (List Char) → List Char
  | [] => []
  | rest => ',' :: commaSeparated rest

theorem commaSeparated_cons (text : List Char) (rest : List (List Char)) :
    commaSeparated (text :: rest) = text ++ following rest := by
  cases rest with
  | nil => exact (List.append_nil text).symm
  | cons next others => rfl

section

variable {α : Type} {text : α → List Char}

theorem following_cons (item : α) (rest : List α) :
    following ((item :: rest).map text) = ',' :: (text item ++ following (rest.map text)) := by
  rw [List.map_cons, following, commaSeparated_cons]
  simp

theorem ends_following {close : Char} (mark : close = ']' ∨ close = '}') (texts : List (List Char))
    (rest : List Char) : Ends (following texts ++ close :: rest) := by
  cases texts with
  | nil => exact ends_cons (.inr mark) rest
  | cons first others => exact ends_cons (.inl rfl) _

/-- Where texts behind commas end and what they say, if that is so for each of the texts. -/
theorem following_append_inj {close : Char} (mark : close = ']' ∨ close = '}')
    {items items' : List α} {rest rest' : List Char}
    (decodes : ∀ item ∈ items, ∀ item' ∈ items', ∀ rest rest', Ends rest → Ends rest' →
      text item ++ rest = text item' ++ rest' → item = item' ∧ rest = rest')
    (same : following (items.map text) ++ close :: rest =
      following (items'.map text) ++ close :: rest') : items = items' ∧ rest = rest' := by
  have noComma : ',' ≠ close := by rcases mark with rfl | rfl <;> decide
  induction items generalizing items' with
  | nil =>
    cases items' with
    | nil => exact ⟨rfl, (List.cons.inj same).2⟩
    | cons item' others' =>
      rw [following_cons] at same
      exact absurd (List.cons.inj same).1.symm noComma
  | cons item others ih =>
    cases items' with
    | nil =>
      rw [following_cons] at same
      exact absurd (List.cons.inj same).1 noComma
    | cons item' others' =>
      rw [following_cons, following_cons, List.cons_append, List.cons_append, List.append_assoc,
        List.append_assoc] at same
      obtain ⟨rfl, below⟩ := decodes item List.mem_cons_self item' List.mem_cons_self _ _
        (ends_following mark _ _) (ends_following mark _ _) (List.cons.inj same).2
      obtain ⟨rfl, tails⟩ := ih (fun one member one' member' => decodes one
        (List.mem_cons_of_mem _ member) one' (List.mem_cons_of_mem _ member')) below
      exact ⟨rfl, tails⟩

/-- Where a list of texts with commas between them ends and what it says, if that is so for each of
the texts. -/
theorem commaSeparated_append_inj {close : Char} (mark : close = ']' ∨ close = '}')
    {items items' : List α} {rest rest' : List Char}
    (heads : ∀ item ∈ items ++ items', ∃ first more, text item = first :: more ∧ first ≠ close)
    (decodes : ∀ item ∈ items, ∀ item' ∈ items', ∀ rest rest', Ends rest → Ends rest' →
      text item ++ rest = text item' ++ rest' → item = item' ∧ rest = rest')
    (same : commaSeparated (items.map text) ++ close :: rest =
      commaSeparated (items'.map text) ++ close :: rest') : items = items' ∧ rest = rest' := by
  cases items with
  | nil =>
    cases items' with
    | nil => exact ⟨rfl, (List.cons.inj same).2⟩
    | cons item' others' =>
      obtain ⟨first, more, head, apart⟩ := heads item' (by simp)
      rw [List.map_cons, commaSeparated_cons, head] at same
      exact absurd (List.cons.inj same).1.symm apart
  | cons item others =>
    cases items' with
    | nil =>
      obtain ⟨first, more, head, apart⟩ := heads item (by simp)
      rw [List.map_cons, commaSeparated_cons, head] at same
      exact absurd (List.cons.inj same).1 apart
    | cons item' others' =>
      -- A comma in front makes both lists ones of texts behind commas.
      refine following_append_inj mark decodes ?_
      rw [following_cons, following_cons, List.cons_append, List.cons_append, ← commaSeparated_cons,
        ← commaSeparated_cons]
      exact congrArg (',' :: ·) same

end

/-! ### Values -/

/-- The kind of a value. -/
def kind : Json → Nat
  | .null => 0
  | .bool _ => 1
  | .number _ => 2
  | .string _ => 3
  | .array _ => 4
  | .object _ => 5

/-- The kind of the values whose texts start with a character; six for none. -/
def kindOf (c : Char) : Nat :=
  if c = 'n' then 0
  else if c = 't' ∨ c = 'f' then 1
  else if c = '-' ∨ c.isDigit = true then 2
  else if c = '"' then 3
  else if c = '[' then 4
  else if c = '{' then 5
  else 6

theorem kindOf_of_numeric {c : Char} (numeric : c = '-' ∨ c.isDigit = true) : kindOf c = 2 := by
  have noLetter : c ≠ 'n' ∧ ¬ (c = 't' ∨ c = 'f') := by
    refine ⟨?_, ?_⟩
    · rintro rfl
      revert numeric
      decide
    · rintro (rfl | rfl) <;> (revert numeric; decide)
  rw [kindOf, if_neg noLetter.1, if_neg noLetter.2, if_pos numeric]

/-- The first character of a text tells the kind of its value. -/
theorem chars_head {value : Json} (valid : value.Valid) :
    ∃ first rest, value.chars = first :: rest ∧ kindOf first = value.kind := by
  cases value with
  | null => exact ⟨_, _, rfl, rfl⟩
  | bool b => cases b <;> exact ⟨_, _, rfl, rfl⟩
  | number n =>
    obtain ⟨⟨first, rest, same, numeric⟩, _⟩ := Number.chars_numeric valid
    exact ⟨first, rest, same, kindOf_of_numeric numeric⟩
  | string text => exact ⟨_, _, rfl, rfl⟩
  | array items => exact ⟨_, _, rfl, rfl⟩
  | object fields => exact ⟨_, _, rfl, rfl⟩

/-- The text of a field of an object. -/
def fieldText (field : String × Json) : List Char := quote field.1.toList ++ ':' :: field.2.chars

theorem itemTexts_eq_map (items : List Json) : itemTexts items = items.map chars := by
  induction items with
  | nil => rfl
  | cons item rest ih => rw [itemTexts, ih, List.map_cons]

theorem fieldTexts_eq_map (fields : List (String × Json)) :
    fieldTexts fields = fields.map fieldText := by
  induction fields with
  | nil => rfl
  | cons field rest ih =>
    obtain ⟨key, value⟩ := field
    rw [fieldTexts, ih, List.map_cons, fieldText]

theorem array_append (items : List Json) (rest : List Char) :
    (array items).chars ++ rest = '[' :: (commaSeparated (items.map chars) ++ ']' :: rest) := by
  rw [chars, itemTexts_eq_map, List.cons_append, List.append_assoc]
  rfl

theorem object_append (fields : List (String × Json)) (rest : List Char) :
    (object fields).chars ++ rest =
      '\x7b' :: (commaSeparated (fields.map fieldText) ++ '\x7d' :: rest) := by
  rw [chars, fieldTexts_eq_map, List.cons_append, List.append_assoc]
  rfl

/-- Whether the text of a value tells where it ends and what it says. -/
def Decodes (value : Json) : Prop :=
  ∀ other : Json, value.Valid → other.Valid → ∀ rest rest', Ends rest → Ends rest' →
    value.chars ++ rest = other.chars ++ rest' → value = other ∧ rest = rest'

/-- Values with the same text in front are of the same kind. -/
theorem kind_eq {value other : Json} (valid : value.Valid) (valid' : other.Valid)
    {rest rest' : List Char} (same : value.chars ++ rest = other.chars ++ rest') :
    value.kind = other.kind := by
  obtain ⟨first, more, head, kind⟩ := chars_head valid
  obtain ⟨first', more', head', kind'⟩ := chars_head valid'
  rw [head, head'] at same
  rw [← kind, ← kind', (List.cons.inj same).1]

theorem decodes_array {items : List Json} (below : ∀ item ∈ items, Decodes item) :
    Decodes (.array items) := by
  intro other valid valid' rest rest' ends ends' same
  have kinds := kind_eq valid valid' same
  cases other with
  | array items' =>
    rw [array_append, array_append] at same
    have all := itemsValid_iff.mp valid
    have all' := itemsValid_iff.mp valid'
    have heads : ∀ item ∈ items ++ items', ∃ first more, item.chars = first :: more ∧
        first ≠ ']' := by
      intro item member
      obtain ⟨first, more, head, kind⟩ :=
        chars_head ((List.mem_append.mp member).elim (all item) (all' item))
      refine ⟨first, more, head, ?_⟩
      rintro rfl
      cases item <;> cases kind
    obtain ⟨rfl, tails⟩ := commaSeparated_append_inj (.inl rfl) heads
      (fun item member item' member' => below item member item' (all item member)
        (all' item' member')) (List.cons.inj same).2
    exact ⟨rfl, tails⟩
  | _ => cases kinds

theorem decodes_object {fields : List (String × Json)}
    (below : ∀ field ∈ fields, Decodes field.2) : Decodes (.object fields) := by
  intro other valid valid' rest rest' ends ends' same
  have kinds := kind_eq valid valid' same
  cases other with
  | object fields' =>
    rw [object_append, object_append] at same
    have all := fieldsValid_iff.mp valid.2
    have all' := fieldsValid_iff.mp valid'.2
    have heads : ∀ field ∈ fields ++ fields', ∃ first more, fieldText field = first :: more ∧
        first ≠ '\x7d' := fun field _ => ⟨'"', _, rfl, by decide⟩
    have each : ∀ field ∈ fields, ∀ field' ∈ fields', ∀ rest rest', Ends rest → Ends rest' →
        fieldText field ++ rest = fieldText field' ++ rest' → field = field' ∧ rest = rest' := by
      intro field member field' member' rest rest' ends ends' texts
      rw [fieldText, fieldText, List.append_assoc, List.append_assoc] at texts
      obtain ⟨key, texts⟩ := quote_append_inj texts
      obtain ⟨value, tails⟩ := below field member field'.2 (all field member)
        (all' field' member') rest rest' ends ends' (List.cons.inj texts).2
      exact ⟨Prod.ext (String.toList_inj.mp key) value, tails⟩
    obtain ⟨rfl, tails⟩ := commaSeparated_append_inj (.inr rfl) heads each (List.cons.inj same).2
    exact ⟨rfl, tails⟩
  | _ => cases kinds

/-- **The text of a value tells where it ends and what it says.** -/
theorem decodes (value : Json) : Decodes value := by
  refine holds_of_parts ?null ?bool ?number ?string (fun _ => decodes_array)
    (fun _ => decodes_object) value
  case null =>
    intro other valid valid' rest rest' ends ends' same
    have kinds := kind_eq valid valid' same
    cases other with
    | null => exact ⟨rfl, List.append_cancel_left same⟩
    | _ => cases kinds
  case bool =>
    intro b other valid valid' rest rest' ends ends' same
    have kinds := kind_eq valid valid' same
    cases other with
    | bool b' =>
      cases b <;> cases b'
      · exact ⟨rfl, List.append_cancel_left same⟩
      · cases same
      · cases same
      · exact ⟨rfl, List.append_cancel_left same⟩
    | _ => cases kinds
  case number =>
    intro n other valid valid' rest rest' ends ends' same
    have kinds := kind_eq valid valid' same
    cases other with
    | number n' =>
      obtain ⟨rfl, tails⟩ := Number.chars_append_inj valid valid' ends ends' same
      exact ⟨rfl, tails⟩
    | _ => cases kinds
  case string =>
    intro text other valid valid' rest rest' ends ends' same
    have kinds := kind_eq valid valid' same
    cases other with
    | string text' =>
      obtain ⟨texts, tails⟩ := quote_append_inj same
      rw [String.toList_inj.mp texts]
      exact ⟨rfl, tails⟩
    | _ => cases kinds

/-- **Different values have different texts.** -/
theorem render_injective {value other : Json} (valid : value.Valid) (valid' : other.Valid)
    (same : value.render = other.render) : value = other := by
  have texts : value.chars = other.chars := String.ofList_injective same
  have none : Ends [] := fun _ member => nomatch member
  refine (decodes value other valid valid' [] [] none none ?_).1
  rw [texts]

end FieldResolver.Json

/-
**Texts in string literals of scripts.**

A script sees a string as a sequence of sixteen-bit units, in which a character beyond the basic
plane is a pair of surrogates. What is written into a string literal has only characters from U+0020
to U+007F and no quote that ends the literal, and a script reads it as the text that was written,
also if this text looks escaped itself.

* `readUnits?`, `ofUnits?`, `read?`: how a script reads what stands between the quotes;
* `Writes`: the ways to write a character, and `Writes.readUnits?`, `ofUnits?_units`, that it is
  read back, whatever follows it;
* `read?_escape`: so is a text, and no two texts are written alike (`escape_injective`);
* `isPlain_escape`, `odd_trailing_of_quote`: the characters of a literal, and its quotes;
* `Template.Function.escapeJavaScript_readBack`: what templates get.
-/

import FieldResolver.Template.Function.Call
import Mathlib.Algebra.Ring.Parity
import Mathlib.Data.List.DropRight

namespace FieldResolver.Text

namespace ScriptString

/-! ### Reading a literal -/

/-- The value of a hexadecimal digit of either case. -/
def digit? (c : Char) : Option Nat :=
  if '0' ≤ c ∧ c ≤ '9' then some (c.toNat - '0'.toNat)
  else if 'a' ≤ c ∧ c ≤ 'f' then some (c.toNat - 'a'.toNat + 10)
  else if 'A' ≤ c ∧ c ≤ 'F' then some (c.toNat - 'A'.toNat + 10)
  else none

/-- The unit that four hexadecimal digits write. -/
def unit? (first second third fourth : Char) : Option Nat := do
  let high := (← digit? first) * 16 + (← digit? second)
  let low := (← digit? third) * 16 + (← digit? fourth)
  return high * 256 + low

/-- What a backslash and one more character stand for. -/
def single? : Char → Option Char
  | '"' => some '"'
  | '\'' => some '\''
  | '\\' => some '\\'
  | '/' => some '/'
  | 'n' => some '\n'
  | 'r' => some '\r'
  | 't' => some '\t'
  | 'b' => some (Char.ofNat 8)
  | 'f' => some (Char.ofNat 12)
  | _ => none

/-- Whether a character cannot stand for itself in a literal: quotes, backslashes and line ends. -/
def isSpecial (c : Char) : Bool := c ∈ ['"', '\'', '\\', '\n', '\r']

/-- The units of the string that stands between the quotes of a literal. -/
def readUnits? : List Char → Option (List Nat)
  | [] => some []
  | '\\' :: 'u' :: first :: second :: third :: fourth :: rest => do
    let unit ← unit? first second third fourth
    return unit :: (← readUnits? rest)
  | '\\' :: c :: rest => do
    let meant ← single? c
    return units meant ++ (← readUnits? rest)
  | c :: rest => if isSpecial c then none else do return units c ++ (← readUnits? rest)

/-- Whether a unit is the first of a pair. -/
def IsHigh (unit : Nat) : Prop := 0xD800 ≤ unit ∧ unit < 0xDC00

/-- Whether a unit is the second of a pair. -/
def IsLow (unit : Nat) : Prop := 0xDC00 ≤ unit ∧ unit < 0xE000

instance (unit : Nat) : Decidable (IsHigh unit) := inferInstanceAs (Decidable (_ ∧ _))

instance (unit : Nat) : Decidable (IsLow unit) := inferInstanceAs (Decidable (_ ∧ _))

/-- The text that units stand for; a surrogate alone stands for none. -/
def ofUnits? : List Nat → Option (List Char)
  | [] => some []
  | high :: low :: rest =>
    if IsHigh high ∧ IsLow low then do
      return Char.ofNat (0x10000 + (high - 0xD800) * 0x400 + (low - 0xDC00)) :: (← ofUnits? rest)
    else if IsHigh high ∨ IsLow high then none
    else do return Char.ofNat high :: (← ofUnits? (low :: rest))
  | [unit] => if IsHigh unit ∨ IsLow unit then none else some [Char.ofNat unit]

/-- The text that stands between the quotes of a literal. -/
def read? (literal : List Char) : Option (List Char) := readUnits? literal >>= ofUnits?

example : read? "\\\\u0041\\u0041\\uD83D\\uDE00\\'".toList = some "\\u0041A😀'".toList := by decide

example : read? "\\uD83D".toList = none ∧ read? "it's".toList = none := by decide

/-! ### Characters read back -/

theorem digit?_hexDigit : ∀ n < 16, digit? (hexDigit n) = some n := by decide

theorem unit?_of_lt {unit : Nat} (small : unit < 0x10000) :
    unit? (hexDigit (unit / 4096)) (hexDigit (unit / 256 % 16)) (hexDigit (unit / 16 % 16))
      (hexDigit (unit % 16)) = some unit := by
  rw [unit?, digit?_hexDigit _ (by omega), digit?_hexDigit _ (by omega),
    digit?_hexDigit _ (by omega), digit?_hexDigit _ (by omega)]
  simp only [Option.bind_eq_bind, Option.bind_some, Option.pure_def, Option.some_inj]
  omega

/-- A unit is read back from its escape. -/
theorem readUnits?_escapeUnit {unit : Nat} (small : unit < 0x10000) (rest : List Char) :
    readUnits? (escapeUnit unit ++ rest) = (readUnits? rest).map (unit :: ·) := by
  show (unit? _ _ _ _ >>= fun unit => readUnits? rest >>= fun others => some (unit :: others)) = _
  rw [unit?_of_lt small]
  cases readUnits? rest <;> rfl

/-- The codes that characters have: all below the limit but those of surrogates. -/
theorem code_range (c : Char) : c.toNat < 0xD800 ∨ 0xDFFF < c.toNat ∧ c.toNat < 0x110000 := c.valid

/-- A character of the basic plane is one unit. -/
theorem units_of_lt {c : Char} (basic : c.toNat < 0x10000) : units c = [c.toNat] := if_pos basic

/-- Any other character is a pair of units. -/
theorem units_of_le {c : Char} (beyond : 0x10000 ≤ c.toNat) :
    units c = [0xD800 + (c.toNat - 0x10000) / 0x400, 0xDC00 + (c.toNat - 0x10000) % 0x400] :=
  if_neg (not_lt.mpr beyond)

/-- The units of a character have sixteen bits. -/
theorem units_lt (c : Char) : ∀ unit ∈ units c, unit < 0x10000 := by
  have range := code_range c
  rcases lt_or_ge c.toNat 0x10000 with basic | beyond
  · simpa [units_of_lt basic] using basic
  · simp only [units_of_le beyond, List.mem_cons, List.not_mem_nil, or_false]
    omega

/-- **The units of a character are read as this character.** -/
theorem ofUnits?_units (c : Char) (rest : List Nat) :
    ofUnits? (units c ++ rest) = (ofUnits? rest).map (c :: ·) := by
  have range := code_range c
  have code : Char.ofNat c.toNat = c := Char.ofNat_toNat c
  rcases lt_or_ge c.toNat 0x10000 with basic | beyond
  · have single : ¬ (IsHigh c.toNat ∨ IsLow c.toNat) := by unfold IsHigh IsLow; omega
    rw [units_of_lt basic, List.singleton_append]
    cases rest with
    | nil => simp [ofUnits?, single, code]
    | cons low others =>
      rw [ofUnits?, if_neg fun pair => single (.inl pair.1), if_neg single, code]
      cases ofUnits? (low :: others) <;> rfl
  · have pair : IsHigh (0xD800 + (c.toNat - 0x10000) / 0x400) ∧
        IsLow (0xDC00 + (c.toNat - 0x10000) % 0x400) := by unfold IsHigh IsLow; omega
    have joined : 0x10000 + (0xD800 + (c.toNat - 0x10000) / 0x400 - 0xD800) * 0x400 +
        (0xDC00 + (c.toNat - 0x10000) % 0x400 - 0xDC00) = c.toNat := by omega
    rw [units_of_le beyond, List.cons_append, List.singleton_append, ofUnits?, if_pos pair, joined,
      code]
    cases ofUnits? rest <;> rfl

/-- Units are read back from their escapes. -/
theorem readUnits?_escapeUnits {units : List Nat} (small : ∀ unit ∈ units, unit < 0x10000)
    (rest : List Char) :
    readUnits? (units.flatMap escapeUnit ++ rest) = (readUnits? rest).map (units ++ ·) := by
  induction units with
  | nil => simp
  | cons unit others ih =>
    obtain ⟨here, below⟩ := List.forall_mem_cons.mp small
    rw [List.flatMap_cons, List.append_assoc, readUnits?_escapeUnit here, ih below,
      Option.map_map]
    rfl

/-! ### The ways to write a character -/

/-- Whether a character is one of those from U+0020 to U+007F. -/
def IsPlain (c : Char) : Prop := 0x20 ≤ c.toNat ∧ c.toNat ≤ 0x7F

instance (c : Char) : Decidable (IsPlain c) := inferInstanceAs (Decidable (_ ∧ _))

/-- Whether a character is one of the two quotes. -/
def IsQuote (c : Char) : Prop := c = '"' ∨ c = '\''

instance (c : Char) : Decidable (IsQuote c) := inferInstanceAs (Decidable (_ ∨ _))

/-- The ways to write a character: with a mark behind a backslash, by its units, or as it is. -/
inductive Writes (c : Char) : List Char → Prop where
  | marked {mark : Char} (stands : single? mark = some c) : Writes c ['\\', mark]
  | coded (outside : ¬ IsPlain c) : Writes c ((units c).flatMap escapeUnit)
  | itself (inside : IsPlain c) (ordinary : isSpecial c = false) : Writes c [c]

/-- Every character is written in one of these ways. -/
theorem writes_escapeChar (c : Char) : Writes c (escapeChar c) := by
  unfold escapeChar
  split
  iterate 7 exact .marked rfl
  rename_i noQuote noApostrophe noBackslash noSlash noNewline noReturn noTab
  have code : Char.ofNat c.toNat = c := Char.ofNat_toNat c
  split
  · rename_i same
    exact .marked (by rw [← code, same]; rfl)
  split
  · rename_i same
    exact .marked (by rw [← code, same]; rfl)
  split
  · rename_i outside
    exact .coded (by unfold IsPlain; omega)
  · rename_i inside
    exact .itself (by unfold IsPlain; omega) (by simp_all [isSpecial])

/-- A mark is a plain character and does not announce a unit. -/
theorem mark_spec {mark c : Char} (stands : single? mark = some c) :
    mark ≠ 'u' ∧ IsPlain mark := by
  unfold single? at stands
  split at stands
  all_goals cases stands
  all_goals decide

/-- **A character is read back as its units**, in whichever way it is written and whatever follows
it. -/
theorem Writes.readUnits? {c : Char} {written : List Char} (writes : Writes c written)
    (rest : List Char) :
    readUnits? (written ++ rest) = (readUnits? rest).map (units c ++ ·) := by
  cases writes with
  | @marked mark stands =>
    show ScriptString.readUnits? ('\\' :: mark :: rest) = _
    rw [ScriptString.readUnits?, stands]
    · cases ScriptString.readUnits? rest <;> rfl
    · exact fun _ _ _ _ _ unit => absurd unit (mark_spec stands).1
  | coded => exact readUnits?_escapeUnits (units_lt c) rest
  | itself _ ordinary =>
    have noBackslash : c ≠ '\\' := by
      rintro rfl
      cases ordinary
    rw [List.singleton_append, ScriptString.readUnits?, if_neg (by simp [ordinary])]
    · cases ScriptString.readUnits? rest <;> rfl
    · exact fun _ _ _ _ _ backslash => absurd backslash noBackslash
    · exact fun _ _ backslash => absurd backslash noBackslash

/-- A written text is read as the units of its characters. -/
theorem readUnits?_escape (text : List Char) :
    readUnits? (escape text) = some (text.flatMap units) := by
  induction text with
  | nil => rfl
  | cons c rest ih =>
    show readUnits? (escapeChar c ++ escape rest) = _
    rw [(writes_escapeChar c).readUnits?, ih]
    rfl

theorem ofUnits?_flatMap_units (text : List Char) :
    ofUnits? (text.flatMap units) = some text := by
  induction text with
  | nil => rfl
  | cons c rest ih => rw [List.flatMap_cons, ofUnits?_units, ih, Option.map_some]

/-- **A written text is read back.** -/
theorem read?_escape (text : List Char) : read? (escape text) = some text := by
  rw [read?, readUnits?_escape]
  exact ofUnits?_flatMap_units text

example : escape "it's \\\"q\"\n/é😀".toList =
    "it\\'s \\\\\\\"q\\\"\\n\\/\\u00E9\\uD83D\\uDE00".toList := by decide

/-- No two texts are written alike. -/
theorem escape_injective : Function.Injective escape := by
  intro text other same
  have read := congrArg read? same
  rwa [read?_escape, read?_escape, Option.some_inj] at read

/-! ### The characters of a literal -/

theorem plain_hexDigit : ∀ n < 16, IsPlain (hexDigit n) ∧ ¬ IsQuote (hexDigit n) ∧
    hexDigit n ≠ '\\' := by decide

/-- An escaped unit has plain characters and no quote. -/
theorem plain_escapeUnit {unit : Nat} (small : unit < 0x10000) :
    ∀ c ∈ escapeUnit unit, IsPlain c ∧ ¬ IsQuote c := by
  have digit {n : Nat} (below : n < 16) : IsPlain (hexDigit n) ∧ ¬ IsQuote (hexDigit n) :=
    ⟨(plain_hexDigit n below).1, (plain_hexDigit n below).2.1⟩
  simp only [escapeUnit, List.forall_mem_cons]
  exact ⟨by decide, by decide, digit (by omega), digit (by omega), digit (by omega),
    digit (by omega), fun _ none => nomatch none⟩

theorem Writes.isPlain {c : Char} {written : List Char} (writes : Writes c written) :
    ∀ d ∈ written, IsPlain d := by
  cases writes with
  | marked stands => simpa using ⟨by decide, (mark_spec stands).2⟩
  | coded =>
    refine List.forall_mem_flatMap.mpr fun unit member => ?_
    exact fun d inside => (plain_escapeUnit (units_lt c unit member) d inside).1
  | itself inside => simpa using inside

/-- A written text has only characters from U+0020 to U+007F. -/
theorem isPlain_escape (text : List Char) : ∀ c ∈ escape text, IsPlain c :=
  List.forall_mem_flatMap.mpr fun c _ => (writes_escapeChar c).isPlain

/-! ### Its quotes -/

/-- The number of backslashes at the end of a text. -/
def trailing (text : List Char) : Nat := (text.rtakeWhile (· = '\\')).length

theorem trailing_backslash (text : List Char) : trailing (text ++ ['\\']) = trailing text + 1 := by
  simp [trailing]

theorem trailing_of_ne {c : Char} (other : c ≠ '\\') (text : List Char) :
    trailing (text ++ [c]) = 0 := by
  simp [trailing, other]

/-- Escaped units end with a digit. -/
theorem coded_concat (c : Char) :
    ∃ front, ∃ n < 16, (units c).flatMap escapeUnit = front ++ [hexDigit n] := by
  obtain ⟨others, unit, last⟩ : ∃ others unit, units c = others ++ [unit] := by
    rcases lt_or_ge c.toNat 0x10000 with basic | beyond
    · exact ⟨[], _, units_of_lt basic⟩
    · exact ⟨[_], _, units_of_le beyond⟩
  refine ⟨others.flatMap escapeUnit ++ (escapeUnit unit).dropLast, unit % 16, by omega, ?_⟩
  rw [last, List.flatMap_append, List.append_assoc]
  rfl

/-- A written character leaves no backslash that escapes what follows. -/
theorem Writes.even_trailing {c : Char} {written front : List Char} (writes : Writes c written)
    (even : Even (trailing front)) : Even (trailing (front ++ written)) := by
  cases writes with
  | @marked mark stands =>
    rw [← List.singleton_append, ← List.append_assoc]
    by_cases backslash : mark = '\\'
    · subst backslash
      rw [trailing_backslash, trailing_backslash]
      exact even.add_one.add_one
    · rw [trailing_of_ne backslash]
      exact Even.zero
  | coded =>
    obtain ⟨before, n, small, ends⟩ := coded_concat c
    rw [ends, ← List.append_assoc, trailing_of_ne (plain_hexDigit n small).2.2]
    exact Even.zero
  | itself _ ordinary =>
    rw [trailing_of_ne]
    · exact Even.zero
    · rintro rfl
      cases ordinary

/-- A quote in a written character stands right behind a backslash that comes first. -/
theorem Writes.quote {c quote : Char} {written front back : List Char} (writes : Writes c written)
    (isQuote : IsQuote quote) (split : written = front ++ quote :: back) : front = ['\\'] := by
  have member : quote ∈ written := by simp [split]
  cases writes with
  | marked =>
    match front, split with
    | [], split =>
      obtain rfl := (List.cons.inj split).1
      exact absurd isQuote (by decide)
    | [first], split => rw [(List.cons.inj split).1]
    | _ :: _ :: _, split => simp at split
  | coded =>
    obtain ⟨unit, inside, here⟩ := List.mem_flatMap.mp member
    exact absurd isQuote (plain_escapeUnit (units_lt c unit inside) quote here).2
  | itself _ ordinary =>
    obtain rfl := List.mem_singleton.mp member
    rcases isQuote with rfl | rfl <;> cases ordinary

/-- Behind what leaves no backslash, every quote in a written text is escaped. -/
theorem odd_trailing_behind {lead front back text : List Char} {quote : Char}
    (even : Even (trailing lead)) (isQuote : IsQuote quote)
    (split : escape text = front ++ quote :: back) : Odd (trailing (lead ++ front)) := by
  -- The text read so far moves to the lead, which counts only by its trailing backslashes.
  induction text generalizing lead front with
  | nil => simp [escape] at split
  | cons c rest ih =>
    have writes := writes_escapeChar c
    have next : escapeChar c ++ escape rest = front ++ quote :: back := split
    rcases List.append_eq_append_iff.mp next with ⟨behind, rfl, inside⟩ | ⟨part, here, follows⟩
    · rw [← List.append_assoc]
      exact ih (writes.even_trailing even) inside
    · cases part with
      | nil =>
        have odd : Odd (trailing (lead ++ escapeChar c ++ [])) :=
          ih (writes.even_trailing even) follows.symm
        rwa [here, List.append_nil, List.append_nil] at odd
      | cons first more =>
        obtain ⟨rfl, -⟩ := List.cons.inj follows
        rw [writes.quote isQuote here, trailing_backslash]
        exact even.add_one

/-- **Every quote in a written text is escaped**: the backslashes in front of it are odd in number.
-/
theorem odd_trailing_of_quote {front back text : List Char} {quote : Char}
    (isQuote : IsQuote quote) (split : escape text = front ++ quote :: back) :
    Odd (trailing front) := by
  have none : Even (trailing []) := Even.zero
  exact odd_trailing_behind none isQuote split

end ScriptString

end FieldResolver.Text

namespace FieldResolver.Template.Function

open Text.ScriptString

variable (environment : Environment) (state : State)

/-- What templates get for a string is its text as it is written in literals. -/
theorem callIn_escapeJavaScript (text : String) (more : List Value) :
    callIn environment .util "escapeJavaScript" (.string text :: more) state =
      .ok (.string (String.ofList (escape text.toList))) state := by
  rw [callIn_util environment rfl, Call.text_string]
  rfl

/-- **Escaped text is a literal of the text.** Whatever string a template escapes, what it gets has
only characters from U+0020 to U+007F, an odd number of backslashes stands in front of every quote,
a script reads it as the string, and no other string gives the same. -/
theorem escapeJavaScript_readBack (text : String) (more : List Value) :
    ∃ written,
      callIn environment .util "escapeJavaScript" (.string text :: more) state =
          .ok (.string written) state ∧
        (∀ c ∈ written.toList, 0x20 ≤ c.toNat ∧ c.toNat ≤ 0x7F) ∧
        (∀ front quote back, written.toList = front ++ quote :: back → IsQuote quote →
          Odd (trailing front)) ∧
        read? written.toList = some text.toList ∧
        ∀ other, callIn environment .util "escapeJavaScript" (.string other :: more) state =
          .ok (.string written) state → other = text := by
  refine ⟨_, callIn_escapeJavaScript environment state text more, ?_⟩
  rw [String.toList_ofList]
  refine ⟨isPlain_escape _, fun front quote back split isQuote => ?_, read?_escape _,
    fun other same => ?_⟩
  · exact odd_trailing_of_quote isQuote split
  · rw [callIn_escapeJavaScript] at same
    injection same with same
    injection same with same
    exact String.toList_inj.mp (escape_injective (String.ofList_injective same))

end FieldResolver.Template.Function

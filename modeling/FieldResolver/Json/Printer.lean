/-
**JSON text.**

The compact form has no blanks. Strings escape the quote, the backslash and the characters below
U+0020, the last by a letter where there is one and by four hexadecimal digits otherwise. The
indented form puts every item on a line of its own, two blanks deeper than its container.
-/

import FieldResolver.Json.Basic
import FieldResolver.Decimal.Layout

namespace FieldResolver.Json

/-- A hexadecimal digit in lower case. -/
def hexDigit (n : Nat) : Char := (Nat.toDigits 16 (n % 16)).headD '0'

/-- How a character is written inside a string. -/
def escapeChar (c : Char) : List Char :=
  if c = '"' then ['\\', '"']
  else if c = '\\' then ['\\', '\\']
  else if c = '\n' then ['\\', 'n']
  else if c = '\r' then ['\\', 'r']
  else if c = '\t' then ['\\', 't']
  else if c.toNat = 8 then ['\\', 'b']
  else if c.toNat = 12 then ['\\', 'f']
  else if c.toNat < 32 then ['\\', 'u', '0', '0', hexDigit (c.toNat / 16), hexDigit c.toNat]
  else [c]

/-- A quoted string. -/
def quote (text : List Char) : List Char := '"' :: (text.flatMap escapeChar ++ ['"'])

/-- The text of a number. -/
def Number.chars : Number → List Char
  | .int value => Decimal.intChars value
  | .float value => Decimal.Layout.json.chars value

/-- Joins texts with a comma between them. -/
def commaSeparated : List (List Char) → List Char
  | [] => []
  | [text] => text
  | text :: rest => text ++ ',' :: commaSeparated rest

mutual

/-- The compact text of a value. -/
def chars : Json → List Char
  | .null => ['n', 'u', 'l', 'l']
  | .bool true => ['t', 'r', 'u', 'e']
  | .bool false => ['f', 'a', 'l', 's', 'e']
  | .number value => value.chars
  | .string text => quote text.toList
  | .array items => '[' :: (commaSeparated (itemTexts items) ++ [']'])
  | .object fields => '{' :: (commaSeparated (fieldTexts fields) ++ ['}'])

/-- The compact texts of an array's items. -/
def itemTexts : List Json → List (List Char)
  | [] => []
  | item :: rest => item.chars :: itemTexts rest

/-- The compact texts of an object's fields. -/
def fieldTexts : List (String × Json) → List (List Char)
  | [] => []
  | (key, value) :: rest => (quote key.toList ++ ':' :: value.chars) :: fieldTexts rest

end

/-- The compact text of a value. -/
def render (value : Json) : String := String.ofList value.chars

/-- A line break and the blanks in front of an item at a level of nesting. -/
def newline (level : Nat) : List Char := '\n' :: List.replicate (2 * level) ' '

mutual

/-- The indented text of a value at a level of nesting; empty containers stay on one line. -/
def indentedChars (level : Nat) : Json → List Char
  | .array [] => ['[', ']']
  | .array items =>
    '[' :: (commaSeparated (indentedItems (level + 1) items) ++ newline level ++ [']'])
  | .object [] => ['{', '}']
  | .object fields =>
    '{' :: (commaSeparated (indentedFields (level + 1) fields) ++ newline level ++ ['}'])
  | .null => ['n', 'u', 'l', 'l']
  | .bool true => ['t', 'r', 'u', 'e']
  | .bool false => ['f', 'a', 'l', 's', 'e']
  | .number value => value.chars
  | .string text => quote text.toList

/-- The indented texts of an array's items, each on a new line. -/
def indentedItems (level : Nat) : List Json → List (List Char)
  | [] => []
  | item :: rest => (newline level ++ item.indentedChars level) :: indentedItems level rest

/-- The indented texts of an object's fields, each on a new line. -/
def indentedFields (level : Nat) : List (String × Json) → List (List Char)
  | [] => []
  | (key, value) :: rest =>
    (newline level ++ quote key.toList ++ ':' :: ' ' :: value.indentedChars level) ::
      indentedFields level rest

end

/-- The indented text of a value. -/
def renderIndented (value : Json) : String := String.ofList (value.indentedChars 0)

end FieldResolver.Json

/-
**Placeholders in statements.**

A statement names its variables by placeholders: a colon and a name of letters, digits and
underscores that starts with no digit. A colon behind a colon starts none, and neither does one
inside quoted text, which goes from a quote to the next one of its kind. A database takes a question
mark for every placeholder and the values in order.

* `scan_text`: the pieces of a statement put together are the statement;
* `bind_sql`: the text for the database does not depend on the values of the variables.
-/

import FieldResolver.Json.Basic
import FieldResolver.Unicode.Category

namespace FieldResolver.Statement

/-- A piece of a statement. -/
inductive Piece where
  /-- A character that goes to the database as it is. -/
  | char (c : Char)
  | placeholder (name : List Char)
deriving DecidableEq, Repr

/-- Whether a character quotes text. -/
def isQuote (c : Char) : Bool := c == '\'' || c == '"' || c.toNat == 0x60

/-- Whether a character may stand in a placeholder's name. -/
def isNameChar (c : Char) : Bool := c == '_' || Unicode.isAlphanumeric c

/-- Whether a placeholder's name starts here. -/
def startsName : List Char → Bool
  | [] => false
  | c :: _ => c == '_' || Unicode.isAlphabetic c

/-- The pieces of the rest of a statement: inside text quoted by a character or outside, and behind
a colon or not. -/
def scanFrom (quote : Option Char) (behindColon : Bool) : List Char → List Piece
  | [] => []
  | c :: rest =>
    match quote with
    | some q => .char c :: scanFrom (if c = q then none else some q) false rest
    | none =>
      if isQuote c then .char c :: scanFrom (some c) false rest
      else if c = ':' && !behindColon && startsName rest then
        .placeholder (rest.takeWhile isNameChar) ::
          scanFrom none false (rest.dropWhile isNameChar)
      else .char c :: scanFrom none (c == ':') rest
termination_by text => text.length
decreasing_by
  · simp
  · simp
  · have := (List.dropWhile_suffix (l := rest) isNameChar).length_le
    simp only [List.length_cons]
    omega
  · simp

/-- The pieces of a statement. -/
def scan (text : String) : List Piece := scanFrom none false text.toList

/-- A piece as it stands in the statement. -/
def Piece.text : Piece → List Char
  | .char c => [c]
  | .placeholder name => ':' :: name

/-- A piece as it goes to the database. -/
def Piece.sql : Piece → Char
  | .char c => c
  | .placeholder _ => '?'

/-- The name of a placeholder. -/
def Piece.name? : Piece → Option String
  | .char _ => none
  | .placeholder name => some (String.ofList name)

/-- The text for the database. -/
def sql (pieces : List Piece) : String := String.ofList (pieces.map Piece.sql)

/-- The value of a variable, whose key may have the colon in front. -/
def lookUp? (bindings : Dict Json) (name : String) : Option Json :=
  bindings.get? (":" ++ name) <|> bindings.get? name

/-- A statement that is ready for a database. -/
structure Bound where
  sql : String
  values : List Json

/-- The values of variables in order, or the first name without one. -/
def valuesOf (bindings : Dict Json) : List String → Except String (List Json)
  | [] => .ok []
  | name :: rest => do
    match lookUp? bindings name with
    | none => .error name
    | some value => return value :: (← valuesOf bindings rest)

/-- A statement with the values of its placeholders, or the first name that has none. -/
def bind (text : String) (bindings : Dict Json) : Except String Bound :=
  let pieces := scan text
  (valuesOf bindings (pieces.filterMap Piece.name?)).map fun values =>
    { sql := sql pieces, values }

/-- Nothing of a statement is lost. -/
theorem scanFrom_text (quote : Option Char) (behindColon : Bool) (text : List Char) :
    (scanFrom quote behindColon text).flatMap Piece.text = text := by
  fun_induction scanFrom quote behindColon text with
  | case1 => rfl
  | case2 _ c rest q ih => simpa [Piece.text] using ih
  | case3 _ c rest _ ih => simpa [Piece.text] using ih
  | case4 behindColon c rest _ starts ih =>
    simp only [Bool.and_eq_true, decide_eq_true_eq] at starts
    simp [Piece.text, ih, starts.1.1]
  | case5 _ c rest _ _ ih => simpa [Piece.text] using ih

/-- The pieces of a statement put together are the statement. -/
theorem scan_text (text : String) : (scan text).flatMap Piece.text = text.toList :=
  scanFrom_text none false text.toList

/-- The text for the database depends on the statement only. -/
theorem bind_sql {text : String} {bindings : Dict Json} {bound : Bound}
    (h : bind text bindings = .ok bound) : bound.sql = sql (scan text) := by
  unfold bind at h
  cases values : valuesOf bindings ((scan text).filterMap Piece.name?) with
  | error name => simp [values, Except.map] at h
  | ok list =>
    simp only [values, Except.map, Except.ok.injEq] at h
    rw [← h]

end FieldResolver.Statement

/-
**What can be wrong with a template's text.**

An error has a cause and a place. The place is kept as the number of characters that follow it, so
the parser need not count; `Position.ofRemaining` turns it into a line and a column, both from one,
with columns in characters.
-/

import FieldResolver.Template.Syntax

namespace FieldResolver.Template

/-- Why a text is not a template. -/
inductive SyntaxError.Cause where
  | unterminatedComment
  | unterminatedVerbatim
  | unexpectedDirective (directive : Directive)
  | missingEnd
  | expected (wanted : Char) (found : Option Char)
  | setTarget
  | setMethodCall
  | loopVariable
  | missingIn
  | unterminatedReference
  | argumentSeparator
  | endInExpression
  | loneDollar
  | unexpectedInExpression (found : Char)
  | unterminatedString
  | inString (cause : SyntaxError.Cause)
  | integerRange (digits : String)
  | listSeparator
  | mapSeparator
  /-- The budget of a parse ran out, which the budget of `parse` never does. -/
  | budget
deriving DecidableEq

/-- A cause, and how many characters follow the place of the error. -/
structure SyntaxError where
  cause : SyntaxError.Cause
  remaining : Nat
deriving DecidableEq

/-- The wording of a cause. -/
def SyntaxError.Cause.message : SyntaxError.Cause → String
  | .unterminatedComment => "unterminated block comment"
  | .unterminatedVerbatim => "unterminated unparsed block"
  | .unexpectedDirective directive => "unexpected #" ++ directive.name
  | .missingEnd => "missing #end"
  | .expected wanted (some found) =>
    "expected '" ++ wanted.toString ++ "', found '" ++ found.toString ++ "'"
  | .expected wanted none => "expected '" ++ wanted.toString ++ "', found end of template"
  | .setTarget => "#set expects a reference to assign to"
  | .setMethodCall => "cannot assign to a method call"
  | .loopVariable => "#foreach expects a plain loop variable"
  | .missingIn => "expected 'in' in #foreach"
  | .unterminatedReference => "unterminated $\x7b...\x7d reference"
  | .argumentSeparator => "expected ',' or ')' in argument list"
  | .endInExpression => "unexpected end of template in expression"
  | .loneDollar => "expected a reference after '$'"
  | .unexpectedInExpression found => "unexpected '" ++ found.toString ++ "' in expression"
  | .unterminatedString => "unterminated string literal"
  | .inString cause => "in string literal: " ++ cause.message
  | .integerRange digits => "integer literal '" ++ digits ++ "' out of range"
  | .listSeparator => "expected ',' or ']' in list"
  | .mapSeparator => "expected ',' or '\x7d' in map"
  | .budget => "template is too deeply nested"

/-- A place in a text. -/
structure Position where
  line : Nat
  column : Nat
deriving DecidableEq

namespace Position

/-- The place behind a text that starts at a place. -/
def after (start : Position) (text : List Char) : Position :=
  text.foldl
    (fun place c => if c = '\n' then ⟨place.line + 1, 1⟩ else ⟨place.line, place.column + 1⟩)
    start

/-- The place of a text that a number of its characters follow. -/
def ofRemaining (text : List Char) (remaining : Nat) : Position :=
  after ⟨1, 1⟩ (text.take (text.length - remaining))

end Position

end FieldResolver.Template

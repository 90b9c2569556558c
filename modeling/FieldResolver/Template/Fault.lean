/-
**What can go wrong while a template runs.**

A fault stops the evaluation. Its cause says what happened; the wording of every cause is here.
Faults of the built-in functions name the function in front of what went wrong in it.
-/

import FieldResolver.Json.Printer
import FieldResolver.Regex.Parser
import FieldResolver.Template.Value

namespace FieldResolver.Template

/-- What an argument was expected to be. -/
inductive Wanted where
  | string
  | integer
  | number
  | boolean
  | list
  | map
deriving DecidableEq, Repr

/-- An expectation with its article. -/
def Wanted.phrase : Wanted → String
  | .string => "a string"
  | .integer => "an integer"
  | .number => "a number"
  | .boolean => "a boolean"
  | .list => "a list"
  | .map => "a map"

/-- Why a built-in function failed. Arguments are counted from zero. -/
inductive FunctionFault where
  | nullArgument (place : Nat)
  | argument (place : Nat) (wanted : Wanted)
  | unknownFunction
  | invalidJson (cause : String)
  | notUtf8
  | notBase64
  | regex (cause : Regex.Malformed)
  | timestamp (text : String)
  | momentRange (millis : Int)
  | zone (name : String)
  | patternLetter (letter : Char)
  | unreadDate (text : String)
  | ambiguousDate (text : String)
  | statementResults
  | unexpected (wanted : Wanted) (found : Json)
  | setMember (found : Json)

/-- The wording of a built-in function's failure. -/
def FunctionFault.message : FunctionFault → String
  | .nullArgument place => s!"argument {place + 1} must not be null"
  | .argument place wanted => s!"argument {place + 1} must be {wanted.phrase}"
  | .unknownFunction => "unknown function"
  | .invalidJson cause => "invalid JSON: " ++ cause
  | .notUtf8 => "invalid utf-8 sequence"
  | .notBase64 => "invalid base64 text"
  | .regex cause => cause.message
  | .timestamp text => s!"invalid ISO8601 timestamp '{text}': input contains invalid characters"
  | .momentRange millis => s!"epoch milliseconds {millis} out of range"
  | .zone name => s!"unsupported time zone '{name}'"
  | .patternLetter letter => s!"unsupported pattern letter '{letter}'"
  | .unreadDate text => s!"cannot parse '{text}': input contains invalid characters"
  | .ambiguousDate text => s!"ambiguous local time '{text}'"
  | .statementResults => "expected an object with sqlStatementResults"
  | .unexpected wanted found => s!"expected {wanted.phrase}, got {found.render}"
  | .setMember found => s!"invalid set member {found.render}"

/-- Why an evaluation stopped. -/
inductive Fault where
  | iteration (kind : Kind)
  | assignProperty (name : String) (kind : Kind)
  | assignIndex (kind : Kind)
  | assignMethod (name : String)
  | indexBounds (index : Int) (length : Nat)
  | nullMapKey
  | negationOverflow
  | negation (kind : Kind)
  | listIndex (kind : Kind)
  | indexing (kind : Kind)
  | rangeBounds
  | rangeSize (first last : Int)
  | comparison (left right : Kind)
  | divisionByZero
  | overflow (symbol : String)
  | operands (symbol : String) (left right : Kind)
  | methodOfNothing (name : String)
  | unknownMethod (name : String) (count : Nat) (kind : Kind)
  /-- Arguments are counted from zero. -/
  | methodArgument (method : String) (place : Nat) (wanted : Wanted)
  | soleArgument (method : String) (wanted : Wanted)
  | nullKey (method : String)
  | elementBounds (method : String) (index : Int) (length : Nat)
  | substringRange (first last : Int) (length : Nat)
  | charAtRange (index : Int)
  | subListRange (first last : Int)
  | regex (pattern : String) (cause : Regex.Malformed)
  | function (group : Namespace) (name : String) (cause : FunctionFault)
  | unknownUtility (name : String) (count : Nat)

/-- The wording of a fault. -/
def Fault.message : Fault → String
  | .iteration kind => s!"#foreach cannot iterate over a {kind.name}"
  | .assignProperty name kind => s!"cannot set property '{name}' on a {kind.name} value"
  | .assignIndex kind => s!"cannot assign by index into a {kind.name} value"
  | .assignMethod name => s!"cannot assign to method call '{name}'"
  | .indexBounds index length => s!"index {index} out of bounds for length {length}"
  | .nullMapKey => "map key must not be null"
  | .negationOverflow => "integer overflow"
  | .negation kind => s!"cannot negate a {kind.name} value"
  | .listIndex kind => s!"list index must be an integer, got {kind.name}"
  | .indexing kind => s!"cannot index into a {kind.name} value"
  | .rangeBounds => "range bounds must be integers"
  | .rangeSize first last => s!"range [{first}..{last}] is too large"
  | .comparison left right => s!"cannot compare a {left.name} value with a {right.name} value"
  | .divisionByZero => "division by zero"
  | .overflow symbol => s!"integer overflow in '{symbol}'"
  | .operands symbol left right =>
    s!"cannot apply '{symbol}' to a {left.name} value and a {right.name} value"
  | .methodOfNothing name => s!"cannot invoke method '{name}' on a null or undefined value"
  | .unknownMethod name count kind =>
    s!"unknown method '{name}' with {count} argument(s) on {kind.name}"
  | .methodArgument method place wanted =>
    s!"{method}: argument {place + 1} must be {wanted.phrase}"
  | .soleArgument method wanted => s!"{method}: argument must be {wanted.phrase}"
  | .nullKey method => s!"{method}: key must not be null"
  | .elementBounds method index length =>
    s!"{method}: index {index} out of bounds for length {length}"
  | .substringRange first last length =>
    s!"substring({first}, {last}) out of range for length {length}"
  | .charAtRange index => s!"charAt({index}) out of range"
  | .subListRange first last => s!"subList({first}, {last}) out of range"
  | .regex pattern cause => s!"invalid regular expression '{pattern}': {cause.message}"
  | .function group name cause => s!"{group.path}.{name}: {cause.message}"
  | .unknownUtility name count => s!"unknown function $util.{name} with {count} argument(s)"

end FieldResolver.Template

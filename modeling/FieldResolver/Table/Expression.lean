/-
**Reading table expressions.**

An expression comes with the names and the values that its placeholders stand for. Placeholders are
resolved where they are read, so the first fault of an expression from the left is the one reported.

`NOT` binds closer than `AND`, which binds closer than `OR`; both join from the left. The functions
below that call one another take a budget that falls with every call; `condition` starts with more
than any expression of its length can use.
-/

import FieldResolver.Table.Token
import FieldResolver.Table.Update

namespace FieldResolver.Table

/-- An expression with what its placeholders stand for. -/
structure Expression where
  text : String
  names : Dict String := []
  values : Dict Json := []

/-- Why an expression cannot be read. -/
inductive ExpressionError where
  | token (cause : Token.Malformed)
  /-- A token that does not fit, or the end of the expression. -/
  | unexpected (expression : String) (found : Option Token)
  | undefinedName (placeholder : String)
  | undefinedValue (placeholder : String)
  | unknownFunction (name : String)
  | unknownClause (name : String)
deriving DecidableEq

/-- The wording of an error. -/
def ExpressionError.message : ExpressionError → String
  | .token cause => cause.message
  | .unexpected expression (some found) =>
    s!"Invalid expression \"{expression}\": unexpected token {found.shown}"
  | .unexpected expression none =>
    s!"Invalid expression \"{expression}\": unexpected end of expression"
  | .undefinedName placeholder =>
    "An expression attribute name used in the document path is not defined; attribute name: " ++
      placeholder
  | .undefinedValue placeholder =>
    "An expression attribute value used in expression is not defined; attribute value: " ++
      placeholder
  | .unknownFunction name => "Invalid function name; function: " ++ name
  | .unknownClause name => "unknown update clause: " ++ name

namespace Expression

/-- A parser of a part of an expression's tokens: what it read, and the tokens that follow. -/
abbrev Parser (α : Type) := List Token → Except ExpressionError (α × List Token)

/-- A word that may differ in the case of its letters from the one that is meant. -/
def isKeyword (keyword word : String) : Bool :=
  word.toList.map Char.toUpper == keyword.toList

/-- The tokens behind a keyword. -/
def afterKeyword? (keyword : String) : List Token → Option (List Token)
  | .word word :: rest => if isKeyword keyword word then some rest else none
  | _ => none

section

variable (expression : Expression)

/-- Fails at the first token of those left. -/
def unexpected {α : Type} (tokens : List Token) : Except ExpressionError α :=
  .error (.unexpected expression.text tokens.head?)

/-- Takes one token that has to come next. -/
def expect (wanted : Token) (tokens : List Token) : Except ExpressionError (List Token) :=
  match tokens with
  | token :: rest => if token = wanted then .ok rest else expression.unexpected tokens
  | [] => expression.unexpected tokens

/-- The name of an attribute: a word, or what a placeholder stands for. -/
def attributeName : Parser String
  | .word word :: rest => .ok (word, rest)
  | .name placeholder :: rest =>
    match expression.names.get? placeholder with
    | some name => .ok (name, rest)
    | none => .error (.undefinedName placeholder)
  | tokens => expression.unexpected tokens

/-- The value that a placeholder stands for. -/
def value : Parser Json
  | .value placeholder :: rest =>
    match expression.values.get? placeholder with
    | some value => .ok (value, rest)
    | none => .error (.undefinedValue placeholder)
  | tokens => expression.unexpected tokens

/-- An operand: a value or an attribute. -/
def operand : Parser Operand := fun tokens =>
  match tokens with
  | .value _ :: _ => (expression.value tokens).map fun (value, rest) => (.value value, rest)
  | _ => (expression.attributeName tokens).map fun (name, rest) => (.attribute name, rest)

/-- Two operands with a comma between them. -/
def twoOperands : Parser (Operand × Operand) := fun tokens => do
  let (first, rest) ← expression.operand tokens
  let rest ← expression.expect .comma rest
  let (second, rest) ← expression.operand rest
  return ((first, second), rest)

/-- The arguments of a test and its closing parenthesis. -/
def test (function : String) : Parser (Condition String Operand) := fun tokens => do
  let (condition, rest) ← match function with
    | "attribute_exists" => do
      let (name, rest) ← expression.attributeName tokens
      Except.ok (Condition.present name, rest)
    | "attribute_not_exists" => do
      let (name, rest) ← expression.attributeName tokens
      Except.ok (Condition.absent name, rest)
    | "begins_with" => do
      let ((target, start), rest) ← expression.twoOperands tokens
      Except.ok (Condition.beginsWith target start, rest)
    | "contains" => do
      let ((target, member), rest) ← expression.twoOperands tokens
      Except.ok (Condition.contains target member, rest)
    | other => .error (.unknownFunction other)
  return (condition, ← expression.expect .closeParen rest)

/-- The comparison that a sign stands for. -/
def relation? : Token → Option Relation
  | .sign .eq => some .eq
  | .sign .ne => some .ne
  | .sign .lt => some .lt
  | .sign .le => some .le
  | .sign .gt => some .gt
  | .sign .ge => some .ge
  | _ => none

/-- A comparison of operands. -/
def comparison : Parser (Condition String Operand) := fun tokens => do
  let (left, rest) ← expression.operand tokens
  match afterKeyword? "BETWEEN" rest with
  | some rest =>
    let (low, rest) ← expression.operand rest
    match afterKeyword? "AND" rest with
    | some rest =>
      let (high, rest) ← expression.operand rest
      return (.between left low high, rest)
    | none => expression.unexpected rest
  | none =>
    match rest.head?.bind relation? with
    | some relation =>
      let (right, rest) ← expression.operand (rest.drop 1)
      return (.compare left relation right, rest)
    | none => expression.unexpected rest

mutual

/-- Conditions joined by `OR`. -/
def disjunction : Nat → Parser (Condition String Operand)
  | 0, tokens => expression.unexpected tokens
  | budget + 1, tokens => do
    let (left, rest) ← conjunction budget tokens
    disjunctionRest budget left rest

/-- What `OR` joins to a condition. -/
def disjunctionRest : Nat → Condition String Operand → Parser (Condition String Operand)
  | 0, _, tokens => expression.unexpected tokens
  | budget + 1, left, tokens =>
    match afterKeyword? "OR" tokens with
    | some rest => do
      let (right, rest) ← conjunction budget rest
      disjunctionRest budget (.or left right) rest
    | none => .ok (left, tokens)

/-- Conditions joined by `AND`. -/
def conjunction : Nat → Parser (Condition String Operand)
  | 0, tokens => expression.unexpected tokens
  | budget + 1, tokens => do
    let (left, rest) ← negation budget tokens
    conjunctionRest budget left rest

/-- What `AND` joins to a condition. -/
def conjunctionRest : Nat → Condition String Operand → Parser (Condition String Operand)
  | 0, _, tokens => expression.unexpected tokens
  | budget + 1, left, tokens =>
    match afterKeyword? "AND" tokens with
    | some rest => do
      let (right, rest) ← negation budget rest
      conjunctionRest budget (.and left right) rest
    | none => .ok (left, tokens)

/-- A condition behind any number of `NOT`. -/
def negation : Nat → Parser (Condition String Operand)
  | 0, tokens => expression.unexpected tokens
  | budget + 1, tokens =>
    match afterKeyword? "NOT" tokens with
    | some rest => do
      let (inner, rest) ← negation budget rest
      return (.not inner, rest)
    | none => primary budget tokens

/-- A condition in parentheses, a test or a comparison. -/
def primary : Nat → Parser (Condition String Operand)
  | 0, tokens => expression.unexpected tokens
  | budget + 1, tokens =>
    match tokens with
    | .openParen :: rest => do
      let (inner, rest) ← disjunction budget rest
      return (inner, ← expression.expect .closeParen rest)
    | .word function :: .openParen :: rest => expression.test function rest
    | _ => expression.comparison tokens

end

/-- A term of a value to set. -/
def setTerm : Parser (SetValue String Operand) := fun tokens =>
  match tokens with
  | .word function :: .openParen :: rest => do
    let (term, rest) ← match function with
      | "if_not_exists" => do
        let (name, rest) ← expression.attributeName rest
        let rest ← expression.expect .comma rest
        let (fallback, rest) ← expression.operand rest
        Except.ok (SetValue.ifNotExists name fallback, rest)
      | "list_append" => do
        let ((first, second), rest) ← expression.twoOperands rest
        Except.ok (SetValue.listAppend first second, rest)
      | other => .error (.unknownFunction other)
    return (term, ← expression.expect .closeParen rest)
  | _ => (expression.operand tokens).map fun (operand, rest) => (.operand operand, rest)

/-- What plus and minus join to a term; the budget bounds their number. -/
def setRest : Nat → SetValue String Operand → Parser (SetValue String Operand)
  | 0, left, tokens => .ok (left, tokens)
  | budget + 1, left, tokens =>
    match tokens with
    | .sign .plus :: rest => do
      let (right, rest) ← expression.setTerm rest
      setRest budget (.plus left right) rest
    | .sign .minus :: rest => do
      let (right, rest) ← expression.setTerm rest
      setRest budget (.minus left right) rest
    | _ => .ok (left, tokens)

/-- A value to set. -/
def setValue : Parser (SetValue String Operand) := fun tokens => do
  let (left, rest) ← expression.setTerm tokens
  expression.setRest rest.length left rest

/-- An update whose names and values are resolved. -/
abbrev ResolvedUpdate := Update String Operand Json

/-- Reads an action of a clause and adds it to an update. -/
def action (clause : String) (update : ResolvedUpdate) : Parser ResolvedUpdate := fun tokens =>
  match clause with
  | "SET" => do
    let (name, rest) ← expression.attributeName tokens
    let rest ← expression.expect (.sign .eq) rest
    let (value, rest) ← expression.setValue rest
    return ({ update with set := update.set ++ [(name, value)] }, rest)
  | "REMOVE" => do
    let (name, rest) ← expression.attributeName tokens
    return ({ update with remove := update.remove ++ [name] }, rest)
  | "ADD" => do
    let (name, rest) ← expression.attributeName tokens
    let (value, rest) ← expression.value rest
    return ({ update with add := update.add ++ [(name, value)] }, rest)
  | "DELETE" => do
    let (name, rest) ← expression.attributeName tokens
    let (value, rest) ← expression.value rest
    return ({ update with delete := update.delete ++ [(name, value)] }, rest)
  | other => .error (.unknownClause other)

/-- Reads the actions of a clause, with commas between them; the budget bounds their number. -/
def actions (clause : String) : Nat → ResolvedUpdate → Parser ResolvedUpdate
  | 0, update, tokens => .ok (update, tokens)
  | budget + 1, update, tokens => do
    let (update, rest) ← expression.action clause update tokens
    match rest with
    | .comma :: rest => actions clause budget update rest
    | _ => return (update, rest)

/-- Reads clauses to the end; the budget bounds their number. -/
def clauses : Nat → ResolvedUpdate → List Token → Except ExpressionError ResolvedUpdate
  | 0, update, _ => .ok update
  | _, update, [] => .ok update
  | budget + 1, update, .word word :: rest => do
    let clause := String.ofList (word.toList.map Char.toUpper)
    let (update, rest) ← expression.actions clause (rest.length + 1) update rest
    clauses budget update rest
  | _, _, tokens => expression.unexpected tokens

/-- The tokens of an expression. -/
def tokens : Except ExpressionError (List Token) :=
  (Table.tokens expression.text.toList).mapError .token

/-- The condition that an expression writes. -/
def condition : Except ExpressionError (Condition String Operand) := do
  let tokens ← expression.tokens
  let (condition, rest) ← disjunction expression (6 * tokens.length + 6) tokens
  if rest.isEmpty then return condition else expression.unexpected rest

/-- The update that an expression writes. -/
def update : Except ExpressionError ResolvedUpdate := do
  let tokens ← expression.tokens
  expression.clauses tokens.length {} tokens

end

end Expression

end FieldResolver.Table

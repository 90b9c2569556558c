/-
**`$util.rds`: rows of statement results.**

The input holds the results of statements, each with records. A record is a row already, or a list
of cells whose names are the labels of the columns.
-/

import FieldResolver.Json.Reader
import FieldResolver.Template.Function.Arguments

namespace FieldResolver.Template.Function.Rows

/-- The value of a cell, which an object writes with its type. -/
def cell : Json → Json
  | .object fields =>
    match Dict.get? fields "isNull" with
    | some (.bool true) => .null
    | _ => (Dict.values fields).headD .null
  | other => other

/-- The name of a column: its label, or else its name. -/
def columnName (column : Json) : String :=
  ((column.field? "label" <|> column.field? "name").bind Json.string?).getD ""

/-- A record as a row. -/
def row (columns : List String) : Json → Json
  | .array cells =>
    .object (Dict.ofEntries ((columns.zip cells).map fun (name, value) => (name, cell value)))
  | other => other

/-- The rows of a statement's result. -/
def rows (result : Json) : Json :=
  let columns := ((result.field? "columnMetadata").bind Json.array?).getD []
  let records := ((result.field? "records").bind Json.array?).getD []
  .array (records.map (row (columns.map columnName)))

/-- Calls a function of the group. -/
def call (name : String) (call : Call) : Result := do
  if name != "toJsonObject" then .error .unknownFunction
  else
    let input ← match call.value 0 with
      | .string text => (Json.parse text).mapError .invalidJson
      | _ => .ok (call.json 0)
    match (input.field? "sqlStatementResults").bind Json.array? with
    | some results => .ok (.json (.array (results.map rows)))
    | none => .error .statementResults

end FieldResolver.Template.Function.Rows

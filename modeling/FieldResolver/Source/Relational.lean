/-
**Requests to relational databases.**

A request is a list of statements with the values of their variables. The statements run in order,
and the first failure ends the request. The database engine is a parameter: `Database.connect` opens
a database and `Database.run` runs one statement with its values.
-/

import FieldResolver.Json.Record
import FieldResolver.Source.Statement

namespace FieldResolver.Relational

/-- A request to a database. -/
structure Request where
  statements : List String
  bindings : Dict Json

/-- Reads a request. -/
def Request.ofJson? (value : Json) : Option Request := do
  let record ← Json.Record.ofJson? ["statements", "variableMap"] value
  let statements ← record.required "statements" (Json.listOf? Json.string?)
  let bindings ← record.defaulted "variableMap" [] Json.fields?
  some { statements, bindings }

/-- Why a request fails. -/
inductive Failure where
  | malformed
  | noStatements
  | missingVariable (name : String)
  | database (cause : String)
deriving DecidableEq

namespace Failure

/-- The wording of a failure. -/
def message : Failure → String
  | .malformed => "invalid request: not a list of statements with variables"
  | .noStatements => "invalid request: statements must not be empty"
  | .missingVariable name => "no value for variable :" ++ name
  | .database cause => "database error: " ++ cause

/-- The kind that is reported of every failure. -/
def kind (_ : Failure) : String := "RDS:Error"

end Failure

/-- A database engine. -/
structure Database where
  /-- Opens the database at an address, or says why it cannot. -/
  connect : String → Except String Unit
  /-- Runs a statement in the database at an address. -/
  run : String → Statement.Bound → Except String Json

/-- Runs a statement. -/
def runStatement (database : Database) (address : String) (bindings : Dict Json)
    (statement : String) : Except Failure Json := do
  let bound ← (Statement.bind statement bindings).mapError .missingVariable
  (database.run address bound).mapError .database

/-- The answer to a request. -/
def execute (database : Database) (address : String) (request : Json) : Except Failure Json := do
  match Request.ofJson? request with
  | none => .error .malformed
  | some { statements := [], .. } => .error .noStatements
  | some { statements, bindings } =>
    (database.connect address).mapError .database
    let results ← statements.mapM (runStatement database address bindings)
    return .object [("sqlStatementResults", .array results)]

end FieldResolver.Relational

/-
**Data sources.**

A data source is a named backend with what the backend has to know. In the definition of an API it
is written with a type and the settings apart (`ofDefinition?`, `definitionJson`), and once bound
with a kind among the settings (`ofJson?`, `json`).
-/

import FieldResolver.Json.Record

namespace FieldResolver

/-- The kinds of backends. -/
inductive SourceKind where
  | function
  | kvTable
  | http
  | relational
  | search
  | none
deriving DecidableEq, Repr

namespace SourceKind

/-- The name of a kind. -/
def name : SourceKind → String
  | .function => "function"
  | .kvTable => "kv_table"
  | .http => "http"
  | .relational => "relational"
  | .search => "search"
  | .none => "none"

/-- The name of a kind in the definition of an API. -/
def typeName : SourceKind → String
  | .function => "AWS_LAMBDA"
  | .kvTable => "AMAZON_DYNAMODB"
  | .http => "HTTP"
  | .relational => "RELATIONAL_DATABASE"
  | .search => "AMAZON_ELASTICSEARCH"
  | .none => "NONE"

/-- All kinds. -/
def all : List SourceKind := [function, kvTable, http, relational, search, none]

/-- The kind of a name. -/
def ofName? (name : String) : Option SourceKind := all.find? fun kind => kind.name == name

/-- The kind of a name in the definition of an API. -/
def ofTypeName? (name : String) : Option SourceKind := all.find? fun kind => kind.typeName == name

/-- A name stands for its kind. -/
theorem ofName?_name (kind : SourceKind) : ofName? kind.name = some kind := by
  cases kind <;> decide

/-- A name in a definition stands for its kind. -/
theorem ofTypeName?_typeName (kind : SourceKind) : ofTypeName? kind.typeName = some kind := by
  cases kind <;> decide

end SourceKind

/-- How a function is called. -/
inductive FunctionTarget where
  /-- A process that is started for every call. -/
  | process (command : String) (arguments : List String) (directory : Option String)
      (environment : Dict String)
  /-- A handler that is registered under a name. -/
  | registered (handler : String)
deriving DecidableEq

namespace FunctionTarget

/-- The fields of a target in JSON. -/
def fields : FunctionTarget → List (String × Json)
  | .process command arguments directory environment =>
    [("runtime", .string "process"), ("command", .string command),
      ("args", .array (arguments.map .string))] ++
      (directory.map fun path => ("cwd", Json.string path)).toList ++
      [("env", .object (environment.mapValues .string))]
  | .registered handler => [("runtime", .string "registered"), ("handler", .string handler)]

/-- Reads a target. -/
def ofJson? (value : Json) : Option FunctionTarget := do
  let (runtime, rest) ← value.spread? "runtime" ["process", "registered"]
  match runtime with
  | "process" =>
    let record ← Json.Record.ofJson? ["command", "args", "cwd", "env"] rest
    let command ← record.required "command" Json.string?
    let arguments ← record.defaulted "args" [] (Json.listOf? Json.string?)
    let directory ← record.optional "cwd" Json.string?
    let environment ← record.defaulted "env" [] (Json.dictOf? Json.string?)
    some (.process command arguments directory environment)
  | "registered" =>
    let record ← Json.Record.ofJson? ["handler"] rest
    some (.registered (← record.required "handler" Json.string?))
  | _ => none

end FunctionTarget

/-- What a backend has to know. -/
inductive SourceConfig where
  | function (functionName : String) (target : FunctionTarget)
  | kvTable (tableName : String)
  | http (endpoint : String)
  | relational (databaseUrl : String)
  | search (endpoint : String)
  | none
deriving DecidableEq

namespace SourceConfig

/-- The kind of backend. -/
def kind : SourceConfig → SourceKind
  | .function .. => .function
  | .kvTable _ => .kvTable
  | .http _ => .http
  | .relational _ => .relational
  | .search _ => .search
  | .none => .none

/-- The settings in JSON. -/
def fields : SourceConfig → List (String × Json)
  | .function functionName target => ("functionName", .string functionName) :: target.fields
  | .kvTable tableName => [("tableName", .string tableName)]
  | .http endpoint | .search endpoint => [("endpoint", .string endpoint)]
  | .relational databaseUrl => [("databaseUrl", .string databaseUrl)]
  | .none => []

/-- Reads the only setting of a kind that has one. -/
def setting? (name : String) (value : Json) : Option String := do
  (← Json.Record.ofJson? [name] value).required name Json.string?

/-- Reads the settings of a kind. -/
def ofFields? (kind : SourceKind) (value : Json) : Option SourceConfig :=
  match kind with
  | .function => do
    let record ← Json.Record.ofObject? ["functionName"] value
    let functionName ← record.required "functionName" Json.string?
    let rest := record.fields.filter fun field => field.1 != "functionName"
    some (.function functionName (← FunctionTarget.ofJson? (.object rest)))
  | .kvTable => (setting? "tableName" value).map .kvTable
  | .http => (setting? "endpoint" value).map .http
  | .relational => (setting? "databaseUrl" value).map .relational
  | .search => (setting? "endpoint" value).map .search
  | .none => match value with
    | .array (_ :: _) => Option.none
    | _ => some .none

/-- The JSON form of a configuration. -/
def json (config : SourceConfig) : Json :=
  .object (("kind", .string config.kind.name) :: config.fields)

/-- Reads a configuration. -/
def ofJson? (value : Json) : Option SourceConfig := do
  let (kind, rest) ← value.tagged? "kind"
  ofFields? (← SourceKind.ofName? kind) rest

/-- The fields of a configuration in the definition of an API. -/
def definitionFields (config : SourceConfig) : List (String × Json) :=
  ("type", .string config.kind.typeName) ::
    match config with
    | .none => []
    | _ => [("config", .object config.fields)]

/-- Reads a configuration in the definition of an API. -/
def ofDefinition? (value : Json) : Option SourceConfig := do
  let (type, rest) ← value.spread? "type" (SourceKind.all.map SourceKind.typeName)
  match ← SourceKind.ofTypeName? type with
  | .none => some .none
  | kind => (← Json.Record.ofJson? ["config"] rest).required "config" (ofFields? kind)

end SourceConfig

/-- A data source. -/
structure DataSource where
  name : String
  /-- How long a call may take, in milliseconds; none for the default of the API. -/
  timeoutMs : Option Nat := none
  config : SourceConfig
deriving DecidableEq

namespace DataSource

/-- The kind of backend. -/
def kind (source : DataSource) : SourceKind := source.config.kind

/-- The JSON form of a bound data source. -/
def json (source : DataSource) : Json :=
  .object
    [("name", .string source.name),
      ("timeout_ms", Json.ofOption (source.timeoutMs.map fun ms => .int ms)),
      ("config", source.config.json)]

/-- Reads a bound data source. -/
def ofJson? (value : Json) : Option DataSource := do
  let record ← Json.Record.ofJson? ["name", "timeout_ms", "config"] value
  let name ← record.required "name" Json.string?
  let timeoutMs ← record.optional "timeout_ms" Json.nat?
  let config ← record.required "config" SourceConfig.ofJson?
  some { name, timeoutMs, config }

/-- The JSON form of a data source in the definition of an API. -/
def definitionJson (source : DataSource) : Json :=
  .object
    (("name", .string source.name) ::
      ((source.timeoutMs.map fun ms => ("timeoutMs", Json.int ms)).toList ++
        source.config.definitionFields))

/-- Reads a data source in the definition of an API. -/
def ofDefinition? (value : Json) : Option DataSource := do
  let record ← Json.Record.ofObject? ["name", "timeoutMs"] value
  let name ← record.required "name" Json.string?
  let timeoutMs ← record.optional "timeoutMs" Json.nat?
  let rest := record.fields.filter fun field => field.1 != "name" && field.1 != "timeoutMs"
  some { name, timeoutMs, config := ← SourceConfig.ofDefinition? (.object rest) }

end DataSource

end FieldResolver

/-
**Requests to resolve one field.**

A request says which field of which type is resolved, with which arguments, on which parent value
and for whom. `ofJson?` and `json` are its JSON form.
-/

import FieldResolver.Json.Record

namespace FieldResolver

/-- How the caller was authorized. -/
inductive Authorization where
  | apiKey
  | iam
  | userPool
  | openIdConnect
  | lambda
deriving DecidableEq, Repr

namespace Authorization

/-- The name of a way of authorization in JSON. -/
def name : Authorization → String
  | .apiKey => "API_KEY"
  | .iam => "IAM"
  | .userPool => "USER_POOL"
  | .openIdConnect => "OPEN_ID_CONNECT"
  | .lambda => "LAMBDA"

/-- A way of authorization in words. -/
def description : Authorization → String
  | .apiKey => "API Key Authorization"
  | .iam => "IAM Authorization"
  | .userPool => "User Pool Authorization"
  | .openIdConnect => "Open ID Connect Authorization"
  | .lambda => "Lambda Authorization"

/-- The way of authorization that a name stands for. -/
def ofName? (name : String) : Option Authorization :=
  [apiKey, iam, userPool, openIdConnect, lambda].find? fun way => way.name == name

/-- Reads a way of authorization. -/
def ofJson? (value : Json) : Option Authorization := value.variant?.bind ofName?

/-- A name stands for its way of authorization. -/
theorem ofName?_name (way : Authorization) : ofName? way.name = some way := by
  cases way <;> decide

end Authorization

/-- A step of a response path. -/
inductive PathStep where
  | index (place : Nat)
  | field (name : String)
deriving DecidableEq, Repr

namespace PathStep

/-- The JSON form of a step. -/
def json : PathStep → Json
  | .index place => .int place
  | .field name => .string name

/-- Reads a step: a natural number or a name. -/
def ofJson? : Json → Option PathStep
  | .string name => some (.field name)
  | value => value.nat?.map .index

/-- The JSON form of a path. -/
def pathJson (path : List PathStep) : Json := .array (path.map json)

end PathStep

/-- Which field is resolved. -/
structure FieldInfo where
  parentType : String := ""
  field : String := ""
  queryVariables : Dict Json := []
  selections : List String := []
  path : List PathStep := []

namespace FieldInfo

/-- The place of the field in the response: the given path, or else the field's name. -/
def responsePath (info : FieldInfo) : List PathStep :=
  if info.path.isEmpty then [.field info.field] else info.path

/-- Reads what is said of a field. -/
def ofJson? (value : Json) : Option FieldInfo := do
  let record ← Json.Record.ofJson?
    ["parentTypeName", "fieldName", "variables", "selectionSetList", "path"] value
  let parentType ← record.required "parentTypeName" Json.string?
  let field ← record.required "fieldName" Json.string?
  let queryVariables ← record.defaulted "variables" [] Json.fields?
  let selections ← record.defaulted "selectionSetList" [] (Json.listOf? Json.string?)
  let path ← record.defaulted "path" [] (Json.listOf? PathStep.ofJson?)
  some { parentType, field, queryVariables, selections, path }

/-- The JSON form of what is said of a field. -/
def json (info : FieldInfo) : Json :=
  .object
    [("parentTypeName", .string info.parentType), ("fieldName", .string info.field),
      ("variables", .object info.queryVariables),
      ("selectionSetList", .array (info.selections.map .string)),
      ("path", PathStep.pathJson info.path)]

end FieldInfo

/-- A request to resolve a field. -/
structure FieldRequest where
  arguments : Json := .object []
  source : Json := .null
  identity : Json := .null
  headers : Dict String := []
  authorization : Authorization := .apiKey
  info : FieldInfo := {}

namespace FieldRequest

/-- Reads a request; every field may be missing. -/
def ofJson? (value : Json) : Option FieldRequest := do
  let record ← Json.Record.ofJson?
    ["arguments", "source", "identity", "requestHeaders", "authType", "info"] value
  let arguments ← record.defaulted "arguments" (.object []) Json.any?
  let source ← record.defaulted "source" .null Json.any?
  let identity ← record.defaulted "identity" .null Json.any?
  let headers ← record.defaulted "requestHeaders" [] (Json.dictOf? Json.string?)
  let authorization ← record.defaulted "authType" .apiKey Authorization.ofJson?
  let info ← record.defaulted "info" {} FieldInfo.ofJson?
  some { arguments, source, identity, headers, authorization, info }

/-- The JSON form of a request. -/
def json (request : FieldRequest) : Json :=
  .object
    [("arguments", request.arguments), ("source", request.source),
      ("identity", request.identity),
      ("requestHeaders", .object (request.headers.mapValues .string)),
      ("authType", .string request.authorization.name), ("info", request.info.json)]

end FieldRequest

end FieldResolver

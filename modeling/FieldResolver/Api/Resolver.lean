/-
**Resolvers ready to run.**

A resolver runs stages one after another, each a call of a data source between two templates. A unit
resolver has one stage; a pipeline may have templates before the first and after the last.
-/

import FieldResolver.Json.Record

namespace FieldResolver

/-- A stage of a resolver. -/
structure Stage where
  name : String
  dataSource : String
  request : Option String := none
  response : Option String := none
deriving DecidableEq

namespace Stage

/-- The fields of a stage in JSON. -/
def fields (stage : Stage) : List (String × Json) :=
  [("name", .string stage.name), ("data_source", .string stage.dataSource),
    ("request", Json.ofOption (stage.request.map .string)),
    ("response", Json.ofOption (stage.response.map .string))]

/-- Reads a stage. -/
def ofJson? (value : Json) : Option Stage := do
  let record ← Json.Record.ofJson? ["name", "data_source", "request", "response"] value
  let name ← record.required "name" Json.string?
  let dataSource ← record.required "data_source" Json.string?
  let request ← record.optional "request" Json.string?
  let response ← record.optional "response" Json.string?
  some { name, dataSource, request, response }

end Stage

/-- What a resolver runs. -/
inductive Plan where
  | unit (stage : Stage)
  | pipeline (before : Option String) (stages : List Stage) (after : Option String)
deriving DecidableEq

namespace Plan

/-- The stages in order. -/
def stages : Plan → List Stage
  | .unit stage => [stage]
  | .pipeline _ stages _ => stages

/-- The template in front of the stages. -/
def before? : Plan → Option String
  | .unit _ => none
  | .pipeline before _ _ => before

/-- The template behind the stages. -/
def after? : Plan → Option String
  | .unit _ => none
  | .pipeline _ _ after => after

/-- Whether a resolver is a pipeline. -/
def isPipeline : Plan → Bool
  | .unit _ => false
  | .pipeline .. => true

/-- The JSON form of a plan. -/
def json : Plan → Json
  | .unit stage => .object (("kind", .string "unit") :: stage.fields)
  | .pipeline before stages after =>
    .object
      [("kind", .string "pipeline"), ("before", Json.ofOption (before.map .string)),
        ("functions", .array (stages.map fun stage => .object stage.fields)),
        ("after", Json.ofOption (after.map .string))]

/-- Reads a plan. -/
def ofJson? (value : Json) : Option Plan := do
  let (kind, rest) ← value.tagged? "kind"
  match kind with
  | "unit" => (Stage.ofJson? rest).map .unit
  | "pipeline" =>
    let record ← Json.Record.ofJson? ["before", "functions", "after"] rest
    let before ← record.optional "before" Json.string?
    let stages ← record.required "functions" (Json.listOf? Stage.ofJson?)
    let after ← record.optional "after" Json.string?
    some (.pipeline before stages after)
  | _ => none

end Plan

/-- The resolver of a field of a type. -/
structure Resolver where
  typeName : String
  field : String
  plan : Plan
deriving DecidableEq

namespace Resolver

/-- The JSON form of a resolver. -/
def json (resolver : Resolver) : Json :=
  .object
    [("type_name", .string resolver.typeName), ("field_name", .string resolver.field),
      ("kind", resolver.plan.json)]

/-- Reads a resolver. -/
def ofJson? (value : Json) : Option Resolver := do
  let record ← Json.Record.ofJson? ["type_name", "field_name", "kind"] value
  let typeName ← record.required "type_name" Json.string?
  let field ← record.required "field_name" Json.string?
  let plan ← record.required "kind" Plan.ofJson?
  some { typeName, field, plan }

end Resolver

end FieldResolver

/-
**API definitions as they are written.**

A definition lists data sources, functions and resolvers, which refer to one another by name and to
templates by their paths or by their texts.
-/

import FieldResolver.Api.DataSource
import FieldResolver.Json.Reader

namespace FieldResolver

/-- Where a template comes from. -/
inductive TemplateSource where
  /-- The text itself. -/
  | inline (text : String)
  /-- A path below the directory of the templates. -/
  | file (path : String)
deriving DecidableEq

namespace TemplateSource

/-- The JSON form of a template source. -/
def json : TemplateSource → Json
  | .inline text => .object [("inline", .string text)]
  | .file path => .string path

/-- Reads a template source. -/
def ofJson? : Json → Option TemplateSource
  | .string path => some (.file path)
  | value => do
    let record ← Json.Record.ofObject? ["inline"] value
    some (.inline (← record.required "inline" Json.string?))

end TemplateSource

/-- A field that is written only if it is there. -/
def optionalField (name : String) (value : Option Json) : List (String × Json) :=
  (value.map fun value => (name, value)).toList

/-- A function: a call of a data source between a request and a response template. -/
structure FunctionDefinition where
  name : String
  dataSource : String
  request : Option TemplateSource := none
  response : Option TemplateSource := none
deriving DecidableEq

namespace FunctionDefinition

/-- The JSON form of a function. -/
def json (function : FunctionDefinition) : Json :=
  .object
    ([("name", .string function.name), ("dataSource", .string function.dataSource)] ++
      optionalField "request" (function.request.map TemplateSource.json) ++
      optionalField "response" (function.response.map TemplateSource.json))

/-- Reads a function. -/
def ofJson? (value : Json) : Option FunctionDefinition := do
  let record ← Json.Record.ofJson? ["name", "dataSource", "request", "response"] value
  let name ← record.required "name" Json.string?
  let dataSource ← record.required "dataSource" Json.string?
  let request ← record.optional "request" TemplateSource.ofJson?
  let response ← record.optional "response" TemplateSource.ofJson?
  some { name, dataSource, request, response }

end FunctionDefinition

/-- Whether a resolver calls one data source or runs functions one after another. -/
inductive ResolverShape where
  | unit
  | pipeline
deriving DecidableEq, Repr

namespace ResolverShape

/-- The name of a shape. -/
def name : ResolverShape → String
  | .unit => "UNIT"
  | .pipeline => "PIPELINE"

/-- The shape of a name. -/
def ofName? : String → Option ResolverShape
  | "UNIT" => some .unit
  | "PIPELINE" => some .pipeline
  | _ => none

/-- Reads a shape. -/
def ofJson? (value : Json) : Option ResolverShape := value.variant?.bind ofName?

end ResolverShape

/-- A resolver of a field. Its templates surround the call of the data source, or all functions of a
pipeline. -/
structure ResolverEntry where
  typeName : String
  field : String
  shape : ResolverShape := .unit
  dataSource : Option String := none
  functions : List String := []
  request : Option TemplateSource := none
  response : Option TemplateSource := none
deriving DecidableEq

namespace ResolverEntry

/-- The JSON form of a resolver. -/
def json (resolver : ResolverEntry) : Json :=
  .object
    ([("type", .string resolver.typeName), ("field", .string resolver.field),
        ("kind", .string resolver.shape.name)] ++
      optionalField "dataSource" (resolver.dataSource.map .string) ++
      (if resolver.functions.isEmpty then []
        else [("functions", .array (resolver.functions.map .string))]) ++
      optionalField "request" (resolver.request.map TemplateSource.json) ++
      optionalField "response" (resolver.response.map TemplateSource.json))

/-- Reads a resolver. -/
def ofJson? (value : Json) : Option ResolverEntry := do
  let record ← Json.Record.ofJson?
    ["type", "field", "kind", "dataSource", "functions", "request", "response"] value
  let typeName ← record.required "type" Json.string?
  let field ← record.required "field" Json.string?
  let shape ← record.defaulted "kind" .unit ResolverShape.ofJson?
  let dataSource ← record.optional "dataSource" Json.string?
  let functions ← record.defaulted "functions" [] (Json.listOf? Json.string?)
  let request ← record.optional "request" TemplateSource.ofJson?
  let response ← record.optional "response" TemplateSource.ofJson?
  some { typeName, field, shape, dataSource, functions, request, response }

/-- The resolver's field with its type, as messages name it. -/
def owner (resolver : ResolverEntry) : String := resolver.typeName ++ "." ++ resolver.field

end ResolverEntry

/-- The definition of an API. -/
structure Definition where
  name : String
  /-- The directory of the templates, seen from the definition. -/
  templatesLocation : String := "mapping-templates"
  defaultTimeoutMs : Option Nat := none
  dataSources : List DataSource := []
  functions : List FunctionDefinition := []
  resolvers : List ResolverEntry := []
deriving DecidableEq

namespace Definition

/-- The JSON form of a definition. -/
def json (definition : Definition) : Json :=
  .object
    ([("name", .string definition.name),
        ("mappingTemplatesLocation", .string definition.templatesLocation)] ++
      optionalField "defaultTimeoutMs" (definition.defaultTimeoutMs.map fun ms => .int ms) ++
      [("dataSources", .array (definition.dataSources.map DataSource.definitionJson)),
        ("functions", .array (definition.functions.map FunctionDefinition.json)),
        ("resolvers", .array (definition.resolvers.map ResolverEntry.json))])

/-- Reads a definition. -/
def ofJson? (value : Json) : Option Definition := do
  let record ← Json.Record.ofJson?
    ["name", "mappingTemplatesLocation", "defaultTimeoutMs", "dataSources", "functions",
      "resolvers"] value
  let name ← record.required "name" Json.string?
  let templatesLocation ←
    record.defaulted "mappingTemplatesLocation" "mapping-templates" Json.string?
  let defaultTimeoutMs ← record.optional "defaultTimeoutMs" Json.nat?
  let dataSources ← record.defaulted "dataSources" [] (Json.listOf? DataSource.ofDefinition?)
  let functions ← record.defaulted "functions" [] (Json.listOf? FunctionDefinition.ofJson?)
  let resolvers ← record.defaulted "resolvers" [] (Json.listOf? ResolverEntry.ofJson?)
  some { name, templatesLocation, defaultTimeoutMs, dataSources, functions, resolvers }

/-- Why a text is no definition. -/
inductive Malformed where
  | text (cause : String)
  | fields
deriving DecidableEq

/-- The wording of an error. -/
def Malformed.message : Malformed → String
  | .text cause => "invalid api definition: " ++ cause
  | .fields => "invalid api definition: malformed fields"

/-- The definition that a text writes. -/
def ofText (text : String) : Except Malformed Definition := do
  let written ← (Json.parseWritten text).mapError .text
  match ofJson? written with
  | some definition => .ok definition
  | none => .error .fields

end Definition

end FieldResolver

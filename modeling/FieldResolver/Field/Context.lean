/-
**The context of a field's resolution.**

A resolution goes through stages. The context carries what the templates of a stage may see: the
request, the output of the stage before, the result of this stage so far, an error that its response
template may handle, and the stash, which all templates share.
-/

import FieldResolver.Field.Request

namespace FieldResolver

/-- An error that a template sees. -/
structure ContextError where
  message : String
  kind : Option String := none
deriving DecidableEq

/-- The state of one field's resolution. -/
structure Context where
  arguments : Json := .object []
  identity : Json := .null
  source : Json := .null
  /-- The result of the current stage. -/
  result : Json := .null
  /-- The output of the stage before. -/
  previous : Json := .null
  stash : Dict Json := []
  error : Option ContextError := none
  info : FieldInfo := {}
  headers : Dict String := []
  authorization : Authorization := .apiKey

namespace Context

/-- The context in which the resolution of a request starts. -/
def ofRequest (request : FieldRequest) : Context where
  arguments := request.arguments
  identity := request.identity
  source := request.source
  info := request.info
  headers := request.headers
  authorization := request.authorization

/-- Starts a stage: it has no error and no result yet. -/
def beginStage (context : Context) : Context := { context with error := none, result := .null }

/-- Ends a stage: its output is the result and what the next stage finds as the output before. -/
def completeStage (context : Context) (output : Json) : Context :=
  { context with error := none, previous := output, result := output }

/-- Notes an error for the templates to see. -/
def setError (context : Context) (error : ContextError) : Context :=
  { context with error := some error }

/-- The JSON form of an error. -/
def errorJson (error : ContextError) : Json :=
  .object [("message", .string error.message), ("type", Json.ofOption (error.kind.map .string))]

/-- What templates see of the context; an error is there only if it is set. -/
def templateJson (context : Context) : Json :=
  .object
    ([("arguments", context.arguments), ("identity", context.identity),
        ("source", context.source), ("result", context.result),
        ("prev", .object [("result", context.previous)]), ("stash", .object context.stash)] ++
      (context.error.map fun error => ("error", errorJson error)).toList ++
      [("info", .object
          [("fieldName", .string context.info.field),
            ("parentTypeName", .string context.info.parentType),
            ("variables", .object context.info.queryVariables),
            ("selectionSetList", .array (context.info.selections.map .string))]),
        ("request", .object [("headers", .object (context.headers.mapValues .string))])])

end Context

end FieldResolver

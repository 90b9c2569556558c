/-
**Results of fields.**

A field has a value and errors, which say where in the response they belong. The errors that
templates recorded come first, and the one that ended the resolution last.

* `errors_completed`, `errors_aborted`: these and no others.
-/

import FieldResolver.Resolution.Pipeline

namespace FieldResolver

/-- An error of a field. -/
structure FieldError where
  message : String
  kind : Option String := none
  path : List PathStep
  data : Option Json := none
  info : Option Json := none

namespace FieldError

/-- A value that is not `null`. -/
def nonNull? : Json → Option Json
  | .null => none
  | value => some value

/-- An error that a template raised or recorded. -/
def ofRaised (path : List PathStep) (error : Template.Raised) : FieldError :=
  { message := error.message, kind := error.kind, path
    data := nonNull? error.data, info := nonNull? error.info }

/-- An error that ended a resolution. -/
def ofStageError (path : List PathStep) (error : StageError) : FieldError :=
  match error.rootCause with
  | .raised raised => ofRaised path raised
  | cause => { message := cause.message, kind := cause.kind, path }

/-- The JSON form of an error. -/
def json (error : FieldError) : Json :=
  .object
    ([("message", .string error.message),
        ("errorType", Json.ofOption (error.kind.map .string)),
        ("path", PathStep.pathJson error.path)] ++
      (error.data.map fun value => ("data", value)).toList ++
      (error.info.map fun value => ("errorInfo", value)).toList)

end FieldError

/-- The result of a field. -/
structure FieldResult where
  data : Json
  errors : List FieldError := []

namespace FieldResult

/-- The result that an end of a resolution gives, if it was not cancelled. -/
def ofEnding? (path : List PathStep) : Ending → Option FieldResult
  | .completed value recorded =>
    some { data := value, errors := recorded.map (FieldError.ofRaised path) }
  | .aborted data recorded error =>
    some
      { data
        errors := recorded.map (FieldError.ofRaised path) ++ [FieldError.ofStageError path error] }
  | .cancelled => none

/-- The error of a field for callers that take only one: the last. -/
def error? (result : FieldResult) : Option FieldError := result.errors.getLast?

/-- The JSON form of a result. -/
def json (result : FieldResult) : Json :=
  .object [("data", result.data), ("errors", .array (result.errors.map FieldError.json))]

/-- A completed resolution has the recorded errors only. -/
theorem errors_completed (path : List PathStep) (value : Json) (recorded : List Template.Raised) :
    (ofEnding? path (.completed value recorded)).map FieldResult.errors =
      some (recorded.map (FieldError.ofRaised path)) :=
  rfl

/-- An aborted resolution has the recorded errors and behind them the one that ended it. -/
theorem errors_aborted (path : List PathStep) (data : Json) (recorded : List Template.Raised)
    (error : StageError) :
    (ofEnding? path (.aborted data recorded error)).map FieldResult.errors =
      some (recorded.map (FieldError.ofRaised path) ++ [FieldError.ofStageError path error]) :=
  rfl

end FieldResult

end FieldResolver

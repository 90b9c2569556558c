/-
**Errors that end a resolution.**

A stage fails because a template raised an error, could not be evaluated, or its data source failed.
Where a resolution ends, the error also says in which stage; what is reported is the error behind it
(`rootCause`).
-/

import FieldResolver.Dispatch.Dispatcher
import FieldResolver.Template.Evaluator

namespace FieldResolver

/-- An error of a stage. -/
inductive StageError where
  | raised (error : Template.Raised)
  | template (failure : Template.Failure)
  | call (failure : CallFailure)
  /-- The resolution ended in a stage. -/
  | aborted (stage : String) (cause : StageError)

namespace StageError

/-- The error behind those that only say where a resolution ended. -/
def rootCause : StageError → StageError
  | .aborted _ cause => cause.rootCause
  | error => error

/-- The wording of an error with the stages in which the resolution ended. -/
def display : StageError → String
  | .raised error => error.message
  | .template failure => failure.message
  | .call failure => failure.message
  | .aborted stage cause => s!"pipeline aborted in {stage}: {cause.display}"

/-- The kind of errors of templates that cannot be evaluated. -/
def mappingTemplate : String := "MappingTemplate"

/-- The wording that is reported of an error. -/
def message (error : StageError) : String := error.rootCause.display

/-- The kind that is reported of an error. -/
def kind (error : StageError) : Option String :=
  match error.rootCause with
  | .raised error => error.kind
  | .template _ => some mappingTemplate
  | .call failure => some failure.kind
  | .aborted _ _ => some mappingTemplate

/-- An error as templates see it. -/
def contextError (error : StageError) : ContextError :=
  { message := error.message, kind := error.kind }

/-- The error behind an error says no stage. -/
theorem rootCause_ne_aborted (error : StageError) (stage : String) (cause : StageError) :
    error.rootCause ≠ .aborted stage cause := by
  induction error with
  | aborted _ _ ih => exact ih
  | _ => simp [rootCause]

end StageError

end FieldResolver

/-
**Pipelines.**

A resolver runs its stages in order, perhaps between a template before and one after them. A stage
makes a request, calls its data source and makes the output of the answer. What fails in making the
request or in the call does not end the resolution at once: the response template sees the error and
decides. A template that is no template, and any failure of a response template, ends it.

* `resolution` is the program of a resolver.
-/

import FieldResolver.Api.Resolver
import FieldResolver.Resolution.Program
import FieldResolver.Resolution.StageError

namespace FieldResolver

/-- How a resolution ends. -/
inductive Ending where
  | completed (value : Json) (recorded : List Template.Raised)
  /-- An error ended the resolution; the data is the result that the context held then. -/
  | aborted (data : Json) (recorded : List Template.Raised) (error : StageError)
  | cancelled

/-- How far a resolution has come. -/
structure Progress where
  context : Context
  /-- The errors that templates recorded, in order. -/
  recorded : List Template.Raised := []

namespace Progress

/-- Notes what a template recorded and left behind. -/
def after (progress : Progress) (context : Context) (rendered : Template.Rendered) : Progress :=
  { context, recorded := progress.recorded ++ rendered.recorded }

/-- Takes over a context. -/
def withContext (progress : Progress) (context : Context) : Progress := { progress with context }

/-- Ends a stage with an output. -/
def completeStage (progress : Progress) (output : Json) : Progress :=
  { progress with context := progress.context.completeStage output }

/-- The end of a resolution with a value. -/
def complete (progress : Progress) (value : Json) : Ending := .completed value progress.recorded

/-- The end of a resolution by an error in a stage. -/
def abort (progress : Progress) (stage : String) (cause : StageError) : Ending :=
  .aborted progress.context.result progress.recorded (.aborted stage cause)

end Progress

namespace Stage

/-- The request of a stage without a template: an invocation with what templates see of the
context, but no result and no error. -/
def passThrough (context : Context) : Json :=
  let fields := match context.templateJson with
    | .object fields => (Dict.swapErase (Dict.swapErase fields "result") "error")
    | _ => []
  .object
    [("version", .string "2018-05-29"), ("operation", .string "Invoke"),
      ("payload", .object fields)]

section

variable {α : Type}

/-- What a stage has after its call: nothing but a result, or an error. -/
abbrev Called := Option StageError

/-- The response of a stage: the template's value, or the result where there is none. -/
def respond (stage : Stage) (progress : Progress) (called : Called)
    (next : Progress → Program Ending) : Program Ending :=
  let progress := match called with
    | some error => progress.withContext (progress.context.setError error.contextError)
    | none => progress
  match stage.response, called with
  | none, some error => .done (progress.abort stage.name error)
  | none, none =>
    let result := progress.context.result
    next (progress.completeStage result)
  | some source, _ =>
    .evaluate source progress.context fun
      | .rendered rendered, context =>
        next ((progress.after context rendered).completeStage rendered.value)
      | .raised error, context =>
        .done ((progress.withContext context).abort stage.name (.raised error))
      | .failed failure, context =>
        .done ((progress.withContext context).abort stage.name (.template failure))

/-- Sends the request of a stage. -/
def send (stage : Stage) (progress : Progress) (request : Json)
    (next : Progress → Program Ending) : Program Ending :=
  let info := progress.context.info
  let call : Call :=
    { source := stage.dataSource, field := some s!"{info.parentType}.{info.field}", request }
  .call call fun
    | .value value =>
      stage.respond (progress.withContext { progress.context with result := value }) none next
    | .failure failure =>
      stage.respond (progress.withContext { progress.context with result := .null })
        (some (.call failure)) next
    | .cancelled => .done .cancelled

/-- Runs a stage. A request template that returns gives the output of the stage without a call. -/
def run (stage : Stage) (progress : Progress) (next : Progress → Program Ending) :
    Program Ending :=
  let progress := progress.withContext progress.context.beginStage
  match stage.request with
  | none => stage.send progress (passThrough progress.context) next
  | some source =>
    .evaluate source progress.context fun
      | .rendered rendered, context =>
        let progress := progress.after context rendered
        if rendered.returned then next (progress.completeStage rendered.value)
        else stage.send progress rendered.value next
      | .raised error, context =>
        stage.respond (progress.withContext context) (some (.raised error)) next
      | .failed (.malformed position message), context =>
        .done ((progress.withContext context).abort stage.name
          (.template (.malformed position message)))
      | .failed failure, context =>
        stage.respond (progress.withContext context) (some (.template failure)) next

/-- Runs stages in order; a resolution that was cancelled runs no further one. -/
def runAll (progress : Progress) (next : Progress → Program Ending) :
    List Stage → Program Ending
  | [] => next progress
  | stage :: rest =>
    .isCancelled fun
      | true => .done .cancelled
      | false => stage.run progress fun progress => runAll progress next rest

end

end Stage

namespace Resolver

/-- The name of the template before the stages. -/
def beforeName : String := "before"

/-- The name of the template after the stages. -/
def afterName : String := "after"

/-- Runs the template before the stages; one that returns gives the value of the field. -/
def runBefore (source : Option String) (progress : Progress) (next : Progress → Program Ending) :
    Program Ending :=
  match source with
  | none => next progress
  | some source =>
    .evaluate source progress.context fun
      | .rendered rendered, context =>
        let progress := progress.after context rendered
        if rendered.returned then .done (progress.complete rendered.value)
        else next (progress.completeStage rendered.value)
      | .raised error, context =>
        .done ((progress.withContext context).abort beforeName (.raised error))
      | .failed failure, context =>
        .done ((progress.withContext context).abort beforeName (.template failure))

/-- Runs the template after the stages; without one the last output is the value of the field. -/
def runAfter (source : Option String) (progress : Progress) : Program Ending :=
  match source with
  | none => .done (progress.complete progress.context.result)
  | some source =>
    .evaluate source progress.context fun
      | .rendered rendered, context =>
        .done ((progress.after context rendered).complete rendered.value)
      | .raised error, context =>
        .done ((progress.withContext context).abort afterName (.raised error))
      | .failed failure, context =>
        .done ((progress.withContext context).abort afterName (.template failure))

/-- The program of a resolver in a context. -/
def resolution (resolver : Resolver) (context : Context) : Program Ending :=
  runBefore resolver.plan.before? { context } fun progress =>
    Stage.runAll progress (runAfter resolver.plan.after?) resolver.plan.stages

end Resolver

end FieldResolver

/-
**Programs of resolutions.**

A resolution evaluates templates, calls data sources and looks whether it was cancelled. A program
is what it does for any answers to these: laws about resolutions are laws about programs, whatever
the templates and the data sources do.
-/

import FieldResolver.Dispatch.Dispatcher
import FieldResolver.Template.Evaluator

namespace FieldResolver

/-- A request to a data source. -/
structure Call where
  source : String
  /-- The field for which it is made; requests for one field may share a batch. -/
  field : Option String := none
  request : Json

/-- A program with a result. -/
inductive Program (α : Type) where
  | done (result : α)
  /-- Evaluates a text in a context. -/
  | evaluate (source : String) (context : Context)
      (next : Template.Outcome → Context → Program α)
  /-- Calls a data source. -/
  | call (call : Call) (next : Reply → Program α)
  /-- Looks whether the resolution was cancelled. -/
  | isCancelled (next : Bool → Program α)

namespace Program

section

variable {α β : Type}

/-- A program that goes on with the result of another. -/
def map (f : α → β) : Program α → Program β
  | .done result => .done (f result)
  | .evaluate source context next =>
    .evaluate source context fun outcome context => (next outcome context).map f
  | .call request next => .call request fun reply => (next reply).map f
  | .isCancelled next => .isCancelled fun stopped => (next stopped).map f

/-- What a program does at given answers: each evaluation is answered by a function of the text and
the context, each call by a function of the call, and the resolution is cancelled or not. -/
def run (evaluate : String → Context → Template.Outcome × Context) (answer : Call → Reply)
    (cancelled : Bool) : Program α → α
  | .done result => result
  | .evaluate source context next =>
    (next (evaluate source context).1 (evaluate source context).2).run evaluate answer cancelled
  | .call request next => (next (answer request)).run evaluate answer cancelled
  | .isCancelled next => (next cancelled).run evaluate answer cancelled

/-- Going on with the result of a program goes on with what it comes to. -/
theorem run_map (f : α → β) (evaluate : String → Context → Template.Outcome × Context)
    (answer : Call → Reply) (cancelled : Bool) (program : Program α) :
    (program.map f).run evaluate answer cancelled = f (program.run evaluate answer cancelled) := by
  induction program with
  | done result => rfl
  | evaluate source context next ih => exact ih _ _
  | call request next ih => exact ih _
  | isCancelled next ih => exact ih _

end

end Program

end FieldResolver

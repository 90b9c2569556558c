/-
**Evaluating templates in a context.**

`evaluate` runs a template's nodes on what templates see of a context. The stash is the only part of
the context that an evaluation changes, and it does so whatever the outcome. An `Evaluator` keeps
the nodes of every text it has parsed.
-/

import FieldResolver.Field.Context
import FieldResolver.Template.Interpreter
import FieldResolver.Template.Output
import FieldResolver.Template.Parser

namespace FieldResolver.Template

/-- Why a template gives no value although it raises no error. -/
inductive Failure where
  /-- The text is no template. -/
  | malformed (position : Position) (message : String)
  | runtime (message : String)
deriving DecidableEq

/-- The wording of a failure. -/
def Failure.message : Failure → String
  | .malformed position text =>
    s!"template syntax error at line {position.line}, column {position.column}: {text}"
  | .runtime text => "template evaluation failed: " ++ text

/-- What a template gives. -/
structure Rendered where
  value : Json
  /-- The errors that were recorded, in order. -/
  recorded : List Raised
  /-- Whether the value was returned and not written. -/
  returned : Bool

/-- The outcome of an evaluation. -/
inductive Outcome where
  | rendered (result : Rendered)
  | raised (error : Raised)
  | failed (failure : Failure)

/-- The state in which an evaluation starts: the context under two names. -/
def startState (context : Context) : State :=
  match Heap.ofJson {} context.templateJson with
  | (.map place, heap) =>
    let entries := heap.map place
    let entries := match entries.get? "arguments" with
      | some arguments => entries.insert "args" arguments
      | none => entries
    { heap := heap.setMap place entries
      bindings := [("context", .map place), ("ctx", .map place)] }
  | (root, heap) => { heap, bindings := [("context", root), ("ctx", root)] }

/-- The place of the context among the maps of the state in which an evaluation starts. -/
def rootPlace (context : Context) : Nat :=
  match (Heap.ofJson {} context.templateJson).1 with
  | .map place => place
  | _ => 0

/-- The stash that an evaluation leaves behind; what is no object leaves it as it was. -/
def stashAfter (context : Context) (heap : Heap) : Dict Json :=
  match ((heap.map (rootPlace context)).get? "stash").map heap.json with
  | some (.object stash) => stash
  | _ => context.stash

/-- The outcome of text that was written. -/
def Outcome.ofText (state : State) : Outcome :=
  match Output.document state.output.toList with
  | .ok value => .rendered { value, recorded := state.recorded, returned := false }
  | .error message => .failed (.runtime message)

/-- The outcome of a run. -/
def Outcome.ofRun : EStateM.Result Interrupt State Unit → Outcome
  | .ok _ state => .ofText state
  | .error .breakLoop state | .error .stop state => .ofText state
  | .error (.returned value) state =>
    .rendered { value := state.heap.json value, recorded := state.recorded, returned := true }
  | .error (.raised error) _ => .raised error
  | .error (.fault cause) _ => .failed (.runtime cause.message)

/-- The state in which a run ends. -/
def finalState : EStateM.Result Interrupt State Unit → State
  | .ok _ state | .error _ state => state

/-- What evaluations take from their surroundings, whatever the context. -/
structure Surroundings where
  /-- The time, in milliseconds since the start of 1970. -/
  now : Int
  /-- A fresh identifier for each number. -/
  identifier : Nat → String

/-- Runs nodes in a context: the outcome and the context with the stash that they leave behind. -/
def evaluateNodes (surroundings : Surroundings) (nodes : List Node) (context : Context) :
    Outcome × Context :=
  let environment : Environment :=
    { now := surroundings.now
      authorization := context.authorization.description
      identifier := surroundings.identifier }
  let result := execute environment nodes (startState context)
  (.ofRun result, { context with stash := stashAfter context (finalState result).heap })

/-- An evaluator: the texts parsed so far with their nodes. -/
structure Evaluator where
  parsed : Dict (List Node) := []

namespace Evaluator

/-- The nodes of a text, and the evaluator that knows them; texts that are no templates are not
kept. -/
def compile (evaluator : Evaluator) (source : String) :
    Except Failure (List Node) × Evaluator :=
  match evaluator.parsed.get? source with
  | some nodes => (.ok nodes, evaluator)
  | none =>
    let text := source.toList
    match parse text with
    | .ok nodes => (.ok nodes, { parsed := evaluator.parsed.insert source nodes })
    | .error error =>
      (.error (.malformed (.ofRemaining text error.remaining) error.cause.message), evaluator)

/-- The number of texts kept. -/
def size (evaluator : Evaluator) : Nat := evaluator.parsed.length

/-- Forgets all texts. -/
def clear (evaluator : Evaluator) : Evaluator := { evaluator with parsed := [] }

/-- Evaluates a text in a context. -/
def evaluate (evaluator : Evaluator) (surroundings : Surroundings) (source : String)
    (context : Context) : Outcome × Context × Evaluator :=
  match evaluator.compile source with
  | (.ok nodes, evaluator) =>
    let (outcome, context) := evaluateNodes surroundings nodes context
    (outcome, context, evaluator)
  | (.error failure, evaluator) => (.failed failure, context, evaluator)

end Evaluator

end FieldResolver.Template

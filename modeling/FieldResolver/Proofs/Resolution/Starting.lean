/-
**Starting programs on a timeline.**

A program that is started evaluates its templates and calls the data sources that reply at once, one
after another, until it has ended or has called a data source that replies later. These are steps of
a task, and if no request waits for others and no template draws an identifier, the program goes on
as it does alone.

* `Task.Steps`: any number of steps of one task; `Task.steps_evaluate`: an evaluation is made of
  them, whether the nodes of the text are known or not;
* `Timeline.Started`: what a program that is started comes to;
* `Timeline.start_started`: every program comes to that, by steps of a task.
-/

import Mathlib.Logic.Relation
import FieldResolver.Proofs.Resolution.Interleaving

namespace FieldResolver

open Template (Evaluator Surroundings)

section

variable {α : Type} {dispatcher : Dispatcher} {surroundings other : Surroundings}

namespace Task

variable {now : Int} {evaluator evaluator' evaluator'' : Evaluator} {task task' task'' : Task α}

/-- Any number of steps of a task. -/
def Steps (dispatcher : Dispatcher) (now : Int) (evaluator : Evaluator) (task : Task α)
    (evaluator' : Evaluator) (task' : Task α) : Prop :=
  Relation.ReflTransGen
    (fun before after : Evaluator × Task α =>
      Step dispatcher now before.1 before.2 after.1 after.2)
    (evaluator, task) (evaluator', task')

theorem Step.steps (step : Step dispatcher now evaluator task evaluator' task') :
    Steps dispatcher now evaluator task evaluator' task' :=
  .single step

theorem Steps.trans (first : Steps dispatcher now evaluator task evaluator' task')
    (second : Steps dispatcher now evaluator' task' evaluator'' task'') :
    Steps dispatcher now evaluator task evaluator'' task'' :=
  Relation.ReflTransGen.trans first second

/-- **An evaluation is made of steps of a task**, whether the nodes of the text are known or not. -/
theorem steps_evaluate (dispatcher : Dispatcher) (surroundings : Surroundings)
    (sound : evaluator.Sound) {source : String} {context : Context}
    {next : Template.Outcome → Context → Program α}
    (here : task.activity = .running (.evaluate source context next)) :
    Steps dispatcher surroundings.now evaluator task
      (evaluator.evaluate surroundings source context).2.2
      (task.evaluated (evaluator.evaluation surroundings source context) next) := by
  rw [Evaluator.evaluate_evaluator]
  cases known : evaluator.parsed.get? source with
  | some nodes =>
    have kept : (evaluator.compile source).2 = evaluator := by rw [Evaluator.compile, known]
    rw [kept, sound.evaluation_of_nodes (sound source nodes known)]
    exact (Step.hit surroundings rfl here known).steps
  | none =>
    rw [(Evaluator.compile_of_unknown known).2]
    cases parsed : Template.nodesOf source with
    | ok nodes =>
      rw [sound.evaluation_of_nodes parsed]
      exact (Step.parse here known parsed).steps.trans (Step.keep surroundings rfl rfl).steps
    | error failure =>
      rw [sound.evaluation_of_failure parsed]
      exact (Step.malformed here known parsed).steps

end Task

namespace Timeline

variable {timeline : Timeline α}

theorem start_evaluate (number : Nat) (source : String) (context : Context)
    (next : Template.Outcome → Context → Program α) :
    start dispatcher other number none (.evaluate source context next) timeline =
      start dispatcher other number none
        (next (timeline.evaluator.evaluation other source context).outcome
          (timeline.evaluator.evaluation other source context).after)
        { timeline with
          evaluator := (timeline.evaluator.evaluate other source context).2.2 } :=
  rfl

/-- A data source that replies at once. -/
theorem start_prompt (number : Nat) {call : Call} (next : Reply → Program α)
    (single : Batch.accepts call.request = false)
    (prompt : (dispatcher.invoke call.source call.request none timeline.services).1.delay = 0) :
    start dispatcher other number none (.call call next) timeline =
      start dispatcher other number none
        (next (dispatcher.invoke call.source call.request none timeline.services).1.content)
        { timeline with
          services := (dispatcher.invoke call.source call.request none timeline.services).2 } := by
  rw [start, batchOf?_of_single single]
  exact if_pos prompt

/-- A data source that replies later. -/
theorem start_late (number : Nat) {call : Call} (next : Reply → Program α)
    (single : Batch.accepts call.request = false)
    (late : (dispatcher.invoke call.source call.request none timeline.services).1.delay ≠ 0) :
    start dispatcher other number none (.call call next) timeline =
      ({ timeline with
          services := (dispatcher.invoke call.source call.request none timeline.services).2 }.wait
        number none next).plan
          (dispatcher.invoke call.source call.request none timeline.services).1.delay
          (.reply timeline.tickets
            (dispatcher.invoke call.source call.request none timeline.services).1.content) := by
  rw [start, batchOf?_of_single single]
  exact if_neg late

/-- What a program comes to that is started on a timeline, and where its task is then. -/
inductive Started (dispatcher : Dispatcher) (surroundings : Surroundings) (number : Nat)
    (program : Program α) (timeline : Timeline α) : Timeline α → Task α → Prop
  /-- It has the result that it has alone. -/
  | ended {evaluator : Evaluator} {services : ServiceState} {history : List Moment}
      (sound : evaluator.Sound) :
      Started dispatcher surroundings number program timeline
        { timeline with
          evaluator, services
          results := timeline.results ++ [(number, program.alone dispatcher surroundings)] }
        { history, activity := .running (.done (program.alone dispatcher surroundings)) }
  /-- It waits for a reply, behind which it goes on as it does alone. -/
  | waits {evaluator : Evaluator} {services : ServiceState} {history : List Moment} {call : Call}
      {next : Reply → Program α} {content : Reply} (delay : Nat) (sound : evaluator.Sound)
      (replies : ∃ before,
        (dispatcher.invoke call.source call.request none before).1.content = content)
      (plain : ∀ moment ∈ (next content).momentsAlone dispatcher surroundings,
        moment.Plain surroundings)
      (goes : (next content).alone dispatcher surroundings =
        program.alone dispatcher surroundings)
      (fewer : ((next content).callsAlone dispatcher surroundings).length <
        (program.callsAlone dispatcher surroundings).length) :
      Started dispatcher surroundings number program timeline
        (({ timeline with evaluator, services }.wait number none next).plan delay
          (.reply timeline.tickets content))
        { history, activity := .waiting call next }

/-- What is left of a program comes to what the program comes to. -/
theorem Started.of_rest {number : Nat} {program rest : Program α} {evaluator : Evaluator}
    {services : ServiceState} {after : Timeline α} {task : Task α}
    (started : Started dispatcher surroundings number rest { timeline with evaluator, services }
      after task)
    (same : rest.alone dispatcher surroundings = program.alone dispatcher surroundings)
    (bound : (rest.callsAlone dispatcher surroundings).length ≤
      (program.callsAlone dispatcher surroundings).length) :
    Started dispatcher surroundings number program timeline after task := by
  cases started with
  | ended sound =>
    rw [same]
    exact .ended sound
  | waits delay sound replies plain goes fewer =>
    exact .waits delay sound replies plain (goes.trans same) (fewer.trans_le bound)

/-- **A program that is started** ends or waits by steps of a task. -/
theorem start_started (steady : dispatcher.Steady) (clock : other.now = surroundings.now)
    (number : Nat) {program : Program α}
    (plain : ∀ moment ∈ program.momentsAlone dispatcher surroundings, moment.Plain surroundings)
    (timeline : Timeline α) (sound : timeline.evaluator.Sound) (task : Task α)
    (here : task.activity = .running program) :
    ∃ after,
      Task.Steps dispatcher surroundings.now timeline.evaluator task
        (start dispatcher other number none program timeline).evaluator after ∧
      Started dispatcher surroundings number program timeline
        (start dispatcher other number none program timeline) after := by
  -- On the program, whatever the timeline and the task: each effect is made of steps of the task,
  -- and leaves a timeline with a sound evaluator, on which the rest of the program is started.
  induction program generalizing timeline task with
  | done result =>
    obtain ⟨history, activity⟩ := task
    cases here
    exact ⟨_, .refl, .ended sound⟩
  | isCancelled next ih =>
    have later : ∀ moment ∈ (next false).momentsAlone dispatcher surroundings,
        moment.Plain surroundings :=
      fun moment member => plain moment (List.mem_cons_of_mem _ member)
    obtain ⟨after, steps, started⟩ :=
      ih false later timeline sound (task.goOn (.looked false) (next false)) rfl
    exact ⟨after, (Task.Step.look here).steps.trans steps, started.of_rest rfl le_rfl⟩
  | evaluate source context next ih =>
    have undrawn : Template.drawnBy surroundings source context = 0 := plain _ List.mem_cons_self
    have evaluates := Task.steps_evaluate dispatcher other sound here
    have kept := sound.evaluate other source context
    rw [sound.evaluation_eq_alone clock undrawn, clock] at evaluates
    rw [start_evaluate, sound.evaluation_eq_alone clock undrawn]
    obtain ⟨after, steps, started⟩ := ih _ _
      (fun moment member => plain moment (List.mem_cons_of_mem _ member))
      { timeline with evaluator := (timeline.evaluator.evaluate other source context).2.2 } kept
      (task.evaluated (Template.evaluationAlone surroundings source context) next) rfl
    exact ⟨after, evaluates.trans steps, started.of_rest rfl le_rfl⟩
  | call call next ih =>
    have single : Batch.accepts call.request = false := plain _ List.mem_cons_self
    have unbatched : batchOf? dispatcher call = none := batchOf?_of_single single
    have later : ∀ moment ∈ (next (dispatcher.answer call)).momentsAlone dispatcher surroundings,
        moment.Plain surroundings :=
      fun moment member => plain moment (List.mem_cons_of_mem _ member)
    let sent : Task α := { task with activity := .waiting call next }
    have sends : Task.Steps dispatcher surroundings.now timeline.evaluator task timeline.evaluator
        sent := (Task.Step.send here unbatched).steps
    by_cases prompt :
        (dispatcher.invoke call.source call.request none timeline.services).1.delay = 0
    · rw [start_prompt number next single prompt, steady call]
      let received : Task α :=
        sent.goOn (.called call (dispatcher.answer call)) (next (dispatcher.answer call))
      have receives : Task.Steps dispatcher surroundings.now timeline.evaluator sent
          timeline.evaluator received :=
        (Task.Step.receive timeline.services (steady call _) rfl).steps
      obtain ⟨after, steps, started⟩ := ih _ later
        { timeline with
          services := (dispatcher.invoke call.source call.request none timeline.services).2 }
        sound received rfl
      exact ⟨after, (sends.trans receives).trans steps, started.of_rest rfl (Nat.le_succ _)⟩
    · rw [start_late number next single prompt, steady call]
      exact ⟨sent, sends, .waits _ sound ⟨timeline.services, steady call _⟩ later rfl
        (Nat.lt_succ_self _)⟩

end Timeline

end

end FieldResolver

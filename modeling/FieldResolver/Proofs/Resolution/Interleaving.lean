/-
**Tasks that share an evaluator and data sources.**

Each task runs a program. It looks up the nodes of a text in the evaluator that all share, parses
the text by itself if the nodes are not there, and then puts them there; it sends a request and gets
the reply at some later time. Between any two of these steps the other tasks make any number of
theirs, so a text may be parsed by several tasks at once, and a data source has been called by
others when a reply comes.

* `Task.Step`: the steps of a task; `Turn`: the step of one among several; `Interleaves`: the steps
  of all in any order;
* `Task.Apart`: what a task has done and what is left of it are together what its program does
  alone; every step keeps it (`Apart.step`), and a task without a result has a step
  (`Apart.has_step`);
* `Interleaves.apart`, `Interleaves.bounded`, `ended_of_stuck`: so it is in every interleaving of
  any number of tasks, which comes to an end where all have results.
-/

import FieldResolver.Proofs.Resolution.Alone
import Mathlib.Algebra.GroupWithZero.Nat

namespace FieldResolver

open Template (Evaluator Surroundings)

/-- A call whose request does not wait for others belongs to no batch. -/
theorem Timeline.batchOf?_of_single {dispatcher : Dispatcher} {call : Call}
    (single : Batch.accepts call.request = false) : batchOf? dispatcher call = none := by
  rw [batchOf?, single]
  cases call.field <;> rfl

/-- What a task is doing. -/
inductive Activity (α : Type) where
  | running (program : Program α)
  /-- It has parsed a text that was not known and is about to put its nodes into the evaluator. -/
  | keeping (source : String) (nodes : List Template.Node) (context : Context)
      (next : Template.Outcome → Context → Program α)
  /-- It has sent a request and waits for the reply. -/
  | waiting (call : Call) (next : Reply → Program α)

/-- A task: what it has done and what it is doing. -/
structure Task (α : Type) where
  history : List Moment := []
  activity : Activity α

section

variable {α : Type}

namespace Activity

/-- What is left of the program. -/
def rest : Activity α → Program α
  | .running program => program
  | .keeping source _ context next => .evaluate source context next
  | .waiting call next => .call call next

/-- How many steps of the next moment are done. -/
def begun : Activity α → Nat
  | .running _ => 0
  | .keeping .. | .waiting .. => 1

/-- The result of a program that has ended. -/
def result? : Activity α → Option α
  | .running (.done result) => some result
  | _ => none

end Activity

namespace Task

/-- A task that has done nothing. -/
def start (program : Program α) : Task α := { activity := .running program }

/-- The task after one more moment. -/
def goOn (task : Task α) (moment : Moment) (program : Program α) : Task α :=
  { history := task.history ++ [moment], activity := .running program }

/-- The task after an evaluation. -/
def evaluated (task : Task α) (evaluation : Evaluation)
    (next : Template.Outcome → Context → Program α) : Task α :=
  task.goOn (.evaluated evaluation) (next evaluation.outcome evaluation.after)

/-- The result of a task that has ended. -/
def result? (task : Task α) : Option α := task.activity.result?

/-- A step of a task that is never cancelled, at a time; any identifiers may be handed out, and a
data source may have been called by others when it replies. -/
inductive Step (dispatcher : Dispatcher) (now : Int) :
    Evaluator → Task α → Evaluator → Task α → Prop where
  | look {evaluator : Evaluator} {task : Task α} {next : Bool → Program α}
      (here : task.activity = .running (.isCancelled next)) :
      Step dispatcher now evaluator task evaluator (task.goOn (.looked false) (next false))
  | hit {evaluator : Evaluator} {task : Task α} {source : String} {context : Context}
      {next : Template.Outcome → Context → Program α} {nodes : List Template.Node}
      (surroundings : Surroundings) (clock : surroundings.now = now)
      (here : task.activity = .running (.evaluate source context next))
      (known : evaluator.parsed.get? source = some nodes) :
      Step dispatcher now evaluator task evaluator
        (task.evaluated (Template.evaluationBy surroundings source nodes context) next)
  | malformed {evaluator : Evaluator} {task : Task α} {source : String} {context : Context}
      {next : Template.Outcome → Context → Program α} {failure : Template.Failure}
      (here : task.activity = .running (.evaluate source context next))
      (unknown : evaluator.parsed.get? source = none)
      (malformed : Template.nodesOf source = .error failure) :
      Step dispatcher now evaluator task evaluator
        (task.evaluated (Template.evaluationFailed source context failure) next)
  | parse {evaluator : Evaluator} {task : Task α} {source : String} {context : Context}
      {next : Template.Outcome → Context → Program α} {nodes : List Template.Node}
      (here : task.activity = .running (.evaluate source context next))
      (unknown : evaluator.parsed.get? source = none)
      (parsed : Template.nodesOf source = .ok nodes) :
      Step dispatcher now evaluator task evaluator
        { task with activity := .keeping source nodes context next }
  | keep {evaluator : Evaluator} {task : Task α} {source : String} {context : Context}
      {next : Template.Outcome → Context → Program α} {nodes : List Template.Node}
      (surroundings : Surroundings) (clock : surroundings.now = now)
      (here : task.activity = .keeping source nodes context next) :
      Step dispatcher now evaluator task { parsed := evaluator.parsed.insert source nodes }
        (task.evaluated (Template.evaluationBy surroundings source nodes context) next)
  | send {evaluator : Evaluator} {task : Task α} {call : Call} {next : Reply → Program α}
      (here : task.activity = .running (.call call next))
      (unbatched : Timeline.batchOf? dispatcher call = none) :
      Step dispatcher now evaluator task evaluator { task with activity := .waiting call next }
  | receive {evaluator : Evaluator} {task : Task α} {call : Call} {next : Reply → Program α}
      {reply : Reply} (services : ServiceState)
      (replied : (dispatcher.invoke call.source call.request none services).1.content = reply)
      (here : task.activity = .waiting call next) :
      Step dispatcher now evaluator task evaluator (task.goOn (.called call reply) (next reply))

/-- How far a task is: it takes at most two steps to each moment. -/
def steps (task : Task α) : Nat := 2 * task.history.length + task.activity.begun

theorem steps_goOn (task : Task α) (moment : Moment) (program : Program α) :
    (task.goOn moment program).steps = 2 * task.history.length + 2 := by
  rw [steps, goOn, List.length_append, List.length_singleton]
  rfl

/-- A step brings a task further. -/
theorem Step.steps_lt {dispatcher : Dispatcher} {now : Int} {evaluator evaluator' : Evaluator}
    {task task' : Task α} (step : Step dispatcher now evaluator task evaluator' task') :
    task.steps < task'.steps := by
  cases step with
  | parse here | send here => rw [steps, steps, here]; exact Nat.lt_succ_self _
  | look here | hit _ _ here | malformed here | keep _ _ here | receive _ _ here =>
    refine Nat.lt_of_lt_of_eq ?_ (steps_goOn task _ _).symm
    rw [steps, here]
    simp only [Activity.begun]
    omega

/-- Whether what a task has done and what is left of it are together what its program does
alone. -/
structure Apart (dispatcher : Dispatcher) (surroundings : Surroundings) (program : Program α)
    (task : Task α) : Prop where
  moments : task.history ++ task.activity.rest.momentsAlone dispatcher surroundings =
    program.momentsAlone dispatcher surroundings
  result : task.activity.rest.alone dispatcher surroundings = program.alone dispatcher surroundings
  parsed : ∀ source nodes context next, task.activity = .keeping source nodes context next →
    Template.nodesOf source = .ok nodes

variable {dispatcher : Dispatcher} {surroundings : Surroundings} {program : Program α}
  {task task' : Task α} {evaluator evaluator' : Evaluator}

/-- A task that has done nothing. -/
theorem apart_start (dispatcher : Dispatcher) (surroundings : Surroundings) (program : Program α) :
    (start program).Apart dispatcher surroundings program where
  moments := rfl
  result := rfl
  parsed := nofun

/-- A task goes on as its program does alone. -/
theorem Apart.goOn {moment : Moment} {rest : Program α}
    (moments : task.history ++ moment :: rest.momentsAlone dispatcher surroundings =
      program.momentsAlone dispatcher surroundings)
    (result : rest.alone dispatcher surroundings = program.alone dispatcher surroundings) :
    (task.goOn moment rest).Apart dispatcher surroundings program where
  moments := by rw [Task.goOn, List.append_assoc]; exact moments
  result := result
  parsed := nofun

/-- What is left of a program is as plain as the program. -/
theorem Apart.plain (apart : task.Apart dispatcher surroundings program)
    (plain : ∀ moment ∈ program.momentsAlone dispatcher surroundings, moment.Plain surroundings) :
    ∀ moment ∈ task.activity.rest.momentsAlone dispatcher surroundings,
      moment.Plain surroundings :=
  fun moment member => plain moment (apart.moments ▸ List.mem_append_right _ member)

/-- A task evaluates a text as its program does alone. -/
theorem Apart.evaluated (apart : task.Apart dispatcher surroundings program) {source : String}
    {context : Context} {next : Template.Outcome → Context → Program α} {evaluation : Evaluation}
    (left : task.activity.rest = .evaluate source context next)
    (same : evaluation = Template.evaluationAlone surroundings source context) :
    (task.evaluated evaluation next).Apart dispatcher surroundings program := by
  have moments := apart.moments
  have result := apart.result
  rw [left] at moments result
  rw [same]
  exact .goOn moments result

/-- **A step keeps a task as it is alone**, and the evaluator sound, whatever the others did. -/
theorem Apart.step (apart : task.Apart dispatcher surroundings program)
    (steady : dispatcher.Steady)
    (plain : ∀ moment ∈ program.momentsAlone dispatcher surroundings, moment.Plain surroundings)
    (sound : evaluator.Sound)
    (step : Step dispatcher surroundings.now evaluator task evaluator' task') :
    evaluator'.Sound ∧ task'.Apart dispatcher surroundings program := by
  have undrawn : ∀ {source context next},
      task.activity.rest = .evaluate source context next →
        Template.drawnBy surroundings source context = 0 := by
    intro source context next left
    have here := apart.plain plain
    rw [left] at here
    exact here _ List.mem_cons_self
  cases step with
  | look here =>
    have moments := apart.moments
    have result := apart.result
    rw [here] at moments result
    exact ⟨sound, .goOn moments result⟩
  | hit other clock here known =>
    have left := congrArg Activity.rest here
    exact ⟨sound, apart.evaluated left
      (Template.evaluationBy_eq_alone (sound _ _ known) clock (undrawn left))⟩
  | malformed here unknown malformed =>
    have left := congrArg Activity.rest here
    exact ⟨sound, apart.evaluated left
      (Evaluator.sound_empty.evaluation_of_failure malformed surroundings _).symm⟩
  | parse here unknown parsed =>
    refine ⟨sound, ?_, ?_, ?_⟩
    · have moments := apart.moments
      rwa [here] at moments
    · have result := apart.result
      rwa [here] at result
    · rintro _ _ _ _ ⟨⟩
      exact parsed
  | keep other clock here =>
    have left := congrArg Activity.rest here
    have parsed := apart.parsed _ _ _ _ here
    exact ⟨sound.keep parsed, apart.evaluated left
      (Template.evaluationBy_eq_alone parsed clock (undrawn left))⟩
  | send here unbatched =>
    refine ⟨sound, ?_, ?_, nofun⟩
    · have moments := apart.moments
      rwa [here] at moments
    · have result := apart.result
      rwa [here] at result
  | receive services replied here =>
    have moments := apart.moments
    have result := apart.result
    rw [here] at moments result
    rw [← replied, steady]
    exact ⟨sound, .goOn moments result⟩

/-- How far a task can get at most. -/
theorem Apart.steps_le (apart : task.Apart dispatcher surroundings program) :
    task.steps ≤ 2 * (program.momentsAlone dispatcher surroundings).length := by
  have lengths := congrArg List.length apart.moments
  rw [List.length_append] at lengths
  have begun : task.activity.begun ≤
      (task.activity.rest.momentsAlone dispatcher surroundings).length := by
    cases task.activity with
    | running => exact Nat.zero_le _
    | keeping | waiting => exact Nat.le_add_left _ _
  rw [steps]
  omega

end Task

/-! ### Several tasks -/

/-- A step of one among several tasks. -/
inductive Turn (dispatcher : Dispatcher) (now : Int) :
    Evaluator → List (Task α) → Evaluator → List (Task α) → Prop where
  | here {evaluator evaluator' : Evaluator} {task task' : Task α} {others : List (Task α)}
      (step : Task.Step dispatcher now evaluator task evaluator' task') :
      Turn dispatcher now evaluator (task :: others) evaluator' (task' :: others)
  | there {evaluator evaluator' : Evaluator} {task : Task α} {others others' : List (Task α)}
      (turn : Turn dispatcher now evaluator others evaluator' others') :
      Turn dispatcher now evaluator (task :: others) evaluator' (task :: others')

/-- Any number of steps of tasks in any order. -/
inductive Interleaves (dispatcher : Dispatcher) (now : Int) (evaluator : Evaluator)
    (tasks : List (Task α)) : Nat → Evaluator → List (Task α) → Prop where
  | start : Interleaves dispatcher now evaluator tasks 0 evaluator tasks
  | turn {count : Nat} {before after : Evaluator} {earlier later : List (Task α)}
      (sofar : Interleaves dispatcher now evaluator tasks count before earlier)
      (turn : Turn dispatcher now before earlier after later) :
      Interleaves dispatcher now evaluator tasks (count + 1) after later

/-- How far tasks are together. -/
def stepsOf (tasks : List (Task α)) : Nat := (tasks.map Task.steps).sum

/-- A step of one brings all together further. -/
theorem Turn.stepsOf_lt {dispatcher : Dispatcher} {now : Int} {evaluator evaluator' : Evaluator}
    {tasks tasks' : List (Task α)} (turn : Turn dispatcher now evaluator tasks evaluator' tasks') :
    stepsOf tasks < stepsOf tasks' := by
  induction turn with
  | here step => exact Nat.add_lt_add_right step.steps_lt _
  | there _ ih => exact Nat.add_lt_add_left ih _

theorem Interleaves.count_le {dispatcher : Dispatcher} {now : Int} {count : Nat}
    {evaluator evaluator' : Evaluator} {tasks tasks' : List (Task α)}
    (interleaves : Interleaves dispatcher now evaluator tasks count evaluator' tasks') :
    count + stepsOf tasks ≤ stepsOf tasks' := by
  induction interleaves with
  | start => exact (Nat.zero_add _).le
  | turn _ turn ih =>
    have further := turn.stepsOf_lt
    omega

section

variable {dispatcher : Dispatcher} {surroundings : Surroundings} {programs : List (Program α)}
  {tasks tasks' : List (Task α)} {evaluator evaluator' : Evaluator} {count : Nat}

/-- Whether every task has done what its program does alone. -/
abbrev AllApart (dispatcher : Dispatcher) (surroundings : Surroundings)
    (programs : List (Program α)) (tasks : List (Task α)) : Prop :=
  List.Forall₂ (fun program task => Task.Apart dispatcher surroundings program task) programs tasks

/-- Whether nothing that programs do alone is shared. -/
def AllPlain (dispatcher : Dispatcher) (surroundings : Surroundings)
    (programs : List (Program α)) : Prop :=
  ∀ program ∈ programs, ∀ moment ∈ program.momentsAlone dispatcher surroundings,
    moment.Plain surroundings

instance (dispatcher : Dispatcher) (surroundings : Surroundings) (programs : List (Program α)) :
    Decidable (AllPlain dispatcher surroundings programs) :=
  inferInstanceAs (Decidable (∀ program ∈ programs, ∀ moment ∈ program.momentsAlone dispatcher
    surroundings, moment.Plain surroundings))

theorem allApart_start (dispatcher : Dispatcher) (surroundings : Surroundings)
    (programs : List (Program α)) :
    AllApart dispatcher surroundings programs (programs.map Task.start) := by
  induction programs with
  | nil => exact .nil
  | cons program rest ih => exact .cons (Task.apart_start _ _ program) ih

/-- A step of one task keeps all as they are alone. -/
theorem Turn.apart (steady : dispatcher.Steady)
    (turn : Turn dispatcher surroundings.now evaluator tasks evaluator' tasks')
    (plain : AllPlain dispatcher surroundings programs) (sound : evaluator.Sound)
    (apart : AllApart dispatcher surroundings programs tasks) :
    evaluator'.Sound ∧ AllApart dispatcher surroundings programs tasks' := by
  induction turn generalizing programs with
  | here step =>
    obtain _ | ⟨here, others⟩ := apart
    obtain ⟨sound, here⟩ := here.step steady (plain _ List.mem_cons_self) sound step
    exact ⟨sound, .cons here others⟩
  | there _ ih =>
    obtain _ | ⟨here, others⟩ := apart
    obtain ⟨sound, others⟩ :=
      ih (fun program member => plain program (List.mem_cons_of_mem _ member)) others
    exact ⟨sound, .cons here others⟩

/-- **In every interleaving each task does what its program does alone.** -/
theorem Interleaves.apart (steady : dispatcher.Steady)
    (plain : AllPlain dispatcher surroundings programs) (sound : evaluator.Sound)
    (interleaves : Interleaves dispatcher surroundings.now evaluator (programs.map Task.start) count
      evaluator' tasks) :
    evaluator'.Sound ∧ AllApart dispatcher surroundings programs tasks := by
  induction interleaves with
  | start => exact ⟨sound, allApart_start dispatcher surroundings programs⟩
  | turn _ turn ih => exact turn.apart steady plain ih.1 ih.2

/-- **Every interleaving comes to an end.** -/
theorem Interleaves.bounded
    (interleaves : Interleaves dispatcher surroundings.now evaluator (programs.map Task.start) count
      evaluator' tasks)
    (apart : AllApart dispatcher surroundings programs tasks) :
    count ≤ 2 * (programs.map fun program =>
      (program.momentsAlone dispatcher surroundings).length).sum := by
  have far := interleaves.count_le
  have most : stepsOf tasks ≤ 2 * (programs.map fun program =>
      (program.momentsAlone dispatcher surroundings).length).sum := by
    clear interleaves far
    induction apart with
    | nil => exact Nat.le_refl _
    | cons here _ ih =>
      have bound := here.steps_le
      rw [stepsOf, List.map_cons, List.sum_cons, List.map_cons, List.sum_cons]
      rw [stepsOf] at ih
      omega
  omega

end

end

end FieldResolver

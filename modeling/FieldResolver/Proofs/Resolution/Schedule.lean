/-
**A timeline makes the steps of tasks in one order.**

A timeline lets a program run until it waits, then the next one, and gives each its reply at its
time. These are steps of the programs' tasks, in one of the orders in which tasks may make them.

* `Arrives`: what tasks an interleaving leads to, in whatever order they stand;
* `Timeline.Shows`: whether tasks have got as far as the programs on a timeline; starting a program
  (`Shows.start`) and taking an entry of the agenda (`Shows.step`) keep it;
* `Shows.complete`: where nothing waits, an interleaving has led to results of all tasks.
-/

import FieldResolver.Proofs.Resolution.Waits

namespace FieldResolver

open Template (Evaluator Surroundings)

section

variable {α : Type} {dispatcher : Dispatcher} {now : Int} {evaluator evaluator' : Evaluator}
  {task task' : Task α} {tasks tasks' others : List (Task α)}

/-! ### Tasks in any order -/

theorem Turn.behind (turn : Turn dispatcher now evaluator tasks evaluator' tasks')
    (front : List (Task α)) :
    Turn dispatcher now evaluator (front ++ tasks) evaluator' (front ++ tasks') := by
  induction front with
  | nil => exact turn
  | cons task rest ih => exact .there ih

/-- A step of one among several tasks, wherever it stands. -/
theorem Turn.of_step (step : Task.Step dispatcher now evaluator task evaluator' task')
    (here : tasks.Perm (task :: others)) :
    ∃ later, Turn dispatcher now evaluator tasks evaluator' later ∧
      later.Perm (task' :: others) := by
  obtain ⟨front, back, rfl⟩ := List.append_of_mem (here.mem_iff.mpr List.mem_cons_self)
  have apart : (front ++ back).Perm others := (List.perm_middle.symm.trans here).cons_inv
  exact ⟨front ++ task' :: back, (Turn.here step).behind front,
    List.perm_middle.trans (apart.cons task')⟩

/-- Whether an interleaving leads to tasks, in whatever order they stand. -/
def Arrives (dispatcher : Dispatcher) (now : Int) (first : Evaluator) (starts : List (Task α))
    (evaluator : Evaluator) (tasks : List (Task α)) : Prop :=
  ∃ count ordered, Interleaves dispatcher now first starts count evaluator ordered ∧
    ordered.Perm tasks

variable {first : Evaluator} {starts : List (Task α)}

theorem arrives_start (dispatcher : Dispatcher) (now : Int) (first : Evaluator)
    (starts : List (Task α)) : Arrives dispatcher now first starts first starts :=
  ⟨0, starts, .start, .refl _⟩

theorem Arrives.perm (arrives : Arrives dispatcher now first starts evaluator tasks)
    (same : tasks.Perm tasks') : Arrives dispatcher now first starts evaluator tasks' := by
  obtain ⟨count, ordered, interleaves, perm⟩ := arrives
  exact ⟨count, ordered, interleaves, perm.trans same⟩

/-- Steps of one of the tasks. -/
theorem Arrives.steps (arrives : Arrives dispatcher now first starts evaluator (task :: others))
    (steps : Task.Steps dispatcher now evaluator task evaluator' task') :
    Arrives dispatcher now first starts evaluator' (task' :: others) := by
  -- For any pair that is reached, since the induction needs a variable there.
  have along {reached : Evaluator × Task α} (steps : Relation.ReflTransGen
      (fun before after : Evaluator × Task α =>
        Task.Step dispatcher now before.1 before.2 after.1 after.2)
      (evaluator, task) reached) :
      Arrives dispatcher now first starts reached.1 (reached.2 :: others) := by
    induction steps with
    | refl => exact arrives
    | tail _ step ih =>
      obtain ⟨count, ordered, interleaves, perm⟩ := ih
      obtain ⟨later, turn, perm⟩ := Turn.of_step step perm
      exact ⟨count + 1, later, .turn interleaves turn, perm⟩
  exact along steps

/-! ### The tasks on a timeline -/

/-- Whether a task waits for the reply that is on its way. -/
def Pending.Awaited (dispatcher : Dispatcher) (pending : Pending α) (task : Task α) : Prop :=
  ∃ call before, task.activity = .waiting call pending.next ∧
    (dispatcher.invoke call.source call.request none before).1.content = pending.content

namespace Timeline

/-- Whether tasks have got as far as the programs on a timeline by an interleaving; some are yet to
be started. -/
def Shows (dispatcher : Dispatcher) (surroundings : Surroundings) (first : Evaluator)
    (starts : List (Task α)) (timeline : Timeline α) (ready : List (Task α)) : Prop :=
  ∃ (waits : List (Pending α × Task α)) (ended : List (Task α)),
    timeline.Awaits dispatcher surroundings (waits.map Prod.fst) ∧
    (∀ wait ∈ waits, wait.1.Awaited dispatcher wait.2) ∧
    (∀ task ∈ ended, task.result?.isSome) ∧
    Arrives dispatcher surroundings.now first starts timeline.evaluator
      (waits.map Prod.snd ++ (ended ++ ready))

variable {surroundings other : Surroundings} {timeline : Timeline α} {ready : List (Task α)}

/-- Tasks on a timeline on which nothing waits. -/
theorem Awaits.shows (awaits : timeline.Awaits dispatcher surroundings [])
    (starts : List (Task α)) :
    timeline.Shows dispatcher surroundings timeline.evaluator starts starts :=
  ⟨[], [], awaits, List.forall_mem_nil _, List.forall_mem_nil _,
    arrives_start dispatcher surroundings.now timeline.evaluator starts⟩

/-- **A program that is started** makes steps of its task. -/
theorem Shows.start (steady : dispatcher.Steady) (clock : other.now = surroundings.now)
    (number : Nat) {program : Program α}
    (plain : ∀ moment ∈ program.momentsAlone dispatcher surroundings, moment.Plain surroundings)
    (here : task.activity = .running program)
    (shows : timeline.Shows dispatcher surroundings first starts (task :: ready)) :
    (start dispatcher other number none program timeline).Shows dispatcher surroundings first
      starts ready := by
  obtain ⟨waits, ended, awaits, awaited, results, arrives⟩ := shows
  obtain ⟨after, steps, started⟩ :=
    start_started steady clock number plain timeline awaits.sound task here
  have ahead : (waits.map Prod.snd ++ (ended ++ task :: ready)).Perm
      (task :: (waits.map Prod.snd ++ (ended ++ ready))) :=
    (List.perm_middle.append_left _).trans List.perm_middle
  have arrived := (arrives.perm ahead).steps steps
  generalize Timeline.start dispatcher other number none program timeline = later
    at started arrived ⊢
  cases started with
  | ended sound =>
    exact ⟨waits, _ :: ended, awaits.of_eq sound rfl rfl rfl, awaited,
      List.forall_mem_cons.mpr ⟨rfl, results⟩, arrived.perm List.perm_middle.symm⟩
  | @waits evaluator services history call next content delay sound replies plain goes fewer =>
    obtain ⟨before, replied⟩ := replies
    have served : Awaits dispatcher surroundings { timeline with evaluator, services }
        (waits.map Prod.fst) := awaits.of_eq sound rfl rfl rfl
    let pending : Pending α :=
      { ticket := timeline.tickets, task := number, next, time := timeline.clock + delay, content }
    exact ⟨(pending, { history, activity := .waiting call next }) :: waits, ended,
      served.wait number delay plain,
      List.forall_mem_cons.mpr ⟨⟨call, before, rfl, replied⟩, awaited⟩, results, arrived⟩

/-- **The next entry of the agenda** is a step of a task that waits, and leads to further ones. -/
theorem Shows.step (steady : dispatcher.Steady) (clock : other.now = surroundings.now)
    (shows : timeline.Shows dispatcher surroundings first starts []) {after : Timeline α}
    (step : timeline.step? dispatcher other = some after) :
    after.Shows dispatcher surroundings first starts [] := by
  obtain ⟨waits, ended, awaits, awaited, results, arrives⟩ := shows
  cases next : timeline.agenda with
  | nil =>
    rw [step?, next] at step
    cases step
  | cons entry agenda =>
    -- The entry is the reply to one of the programs that wait, which is brought to the front.
    obtain ⟨_, isPending, rfl⟩ :=
      List.mem_map.mp (awaits.agenda.subset (next ▸ List.mem_cons_self))
    obtain ⟨⟨wait, task⟩, member, rfl⟩ := List.mem_map.mp isPending
    obtain ⟨front, back, rfl⟩ := List.append_of_mem member
    have moved : (front ++ (wait, task) :: back).Perm ((wait, task) :: (front ++ back)) :=
      List.perm_middle
    have awaits := awaits.perm (moved.map Prod.fst)
    obtain ⟨⟨call, before, waiting, replied⟩, apart⟩ :=
      List.forall_mem_cons.mp fun wait member => awaited wait (moved.mem_iff.mpr member)
    have receives : Task.Steps dispatcher surroundings.now timeline.evaluator task
        timeline.evaluator (task.goOn (.called call wait.content) wait.rest) :=
      (Task.Step.receive before replied waiting).steps
    have arrived := (arrives.perm ((moved.map Prod.snd).append_right _)).steps receives
    have left : Shows dispatcher surroundings first starts
        { timeline with
          clock := wait.time, agenda
          waiting := timeline.waiting.filter fun waiting => waiting.ticket ≠ wait.ticket }
        [task.goOn (.called call wait.content) wait.rest] := by
      refine ⟨front ++ back, ended, awaits.drop next, apart, results, arrived.perm ?_⟩
      rw [List.append_nil, ← List.append_assoc]
      exact (List.perm_append_singleton _ _).symm
    rw [awaits.step? next] at step
    cases step
    exact left.start steady clock wait.task (awaits.plain wait.rest List.mem_cons_self) rfl

theorem Shows.advance (steady : dispatcher.Steady) (clock : other.now = surroundings.now)
    (finished : Timeline α → Bool) (budget : Nat)
    (shows : timeline.Shows dispatcher surroundings first starts []) :
    (advance dispatcher other finished budget timeline).Shows dispatcher surroundings first starts
      [] := by
  induction budget generalizing timeline with
  | zero => exact shows
  | succ budget ih =>
    rw [Timeline.advance]
    split
    · exact shows
    · split
      · exact shows
      · exact ih (shows.step steady clock ‹_›)

/-- Programs are started one after another. -/
theorem Shows.startAll (steady : dispatcher.Steady) (clock : other.now = surroundings.now)
    {programs : List (Nat × Option Nat × Program α)}
    (patient : ∀ entry ∈ programs, entry.2.1 = none)
    (plain : AllPlain dispatcher surroundings (programs.map fun entry => entry.2.2))
    (shows : timeline.Shows dispatcher surroundings first starts
      (programs.map fun entry => Task.start entry.2.2)) :
    (startAll dispatcher other programs timeline).Shows dispatcher surroundings first starts
      [] := by
  induction programs generalizing timeline with
  | nil => exact shows
  | cons entry rest ih =>
    obtain ⟨number, cancelAfter, program⟩ := entry
    obtain ⟨rfl, others⟩ := List.forall_mem_cons.mp patient
    exact ih others (fun program member => plain program (List.mem_cons_of_mem _ member))
      (shows.start steady clock number (plain program List.mem_cons_self) rfl)

/-- **Where nothing waits, an interleaving has led to results** of all tasks. -/
theorem Shows.complete (shows : timeline.Shows dispatcher surroundings first starts [])
    (awaits : timeline.Awaits dispatcher surroundings []) :
    ∃ count tasks,
      Interleaves dispatcher surroundings.now first starts count timeline.evaluator tasks ∧
      ∀ task ∈ tasks, task.result?.isSome := by
  obtain ⟨waits, ended, awaited, _, results, count, tasks, interleaves, perm⟩ := shows
  have none : waits = [] := by
    have agenda := awaited.agenda.symm.trans awaits.agenda
    rw [List.map_map] at agenda
    exact List.map_eq_nil_iff.mp (List.perm_nil.mp agenda)
  subst none
  rw [List.append_nil] at perm
  exact ⟨count, tasks, interleaves, fun task member => results task (perm.subset member)⟩

end Timeline

end

end FieldResolver

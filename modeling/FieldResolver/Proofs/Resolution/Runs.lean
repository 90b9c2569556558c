/-
**Runs of programs.**

A run of a program is what happened on the way to its result: templates that were evaluated with the
errors that they recorded, calls with their replies, and looks at whether the resolution was
cancelled. Replies are arbitrary, so the runs cover whatever data sources do.

* `recorded_of_rendered`: a template that gives a value gives all errors that it recorded;
* `runs_map`: the runs of a program whose result is changed;
* `Timeline.Explained`: every result in time comes from a run, which starting a program
  (`start_explained`) and taking an entry of the agenda (`Explained.step`) keep;
* `Session.Explained.resolveField_run`: so does whatever a session answers for a field.
-/

import FieldResolver.Resolution.Session
import Mathlib.Data.List.Basic

namespace FieldResolver

namespace Template.Evaluator

/-- The errors that an evaluation has recorded when it ends, whatever its outcome. -/
def recorded (evaluator : Evaluator) (surroundings : Surroundings) (source : String)
    (context : Context) : List Raised :=
  match (evaluator.compile source).1 with
  | .ok nodes =>
    let environment : Environment :=
      { now := surroundings.now
        authorization := context.authorization.description
        identifier := surroundings.identifier }
    (finalState (execute environment nodes (startState context))).recorded
  | .error _ => []

theorem recorded_of_ofText {state : State} {rendered : Rendered}
    (outcome : Outcome.ofText state = .rendered rendered) : rendered.recorded = state.recorded := by
  rw [Outcome.ofText] at outcome
  split at outcome
  · cases outcome
    rfl
  · cases outcome

theorem recorded_of_ofRun {result : EStateM.Result Interrupt State Unit} {rendered : Rendered}
    (outcome : Outcome.ofRun result = .rendered rendered) :
    rendered.recorded = (finalState result).recorded := by
  cases result with
  | ok _ state => exact recorded_of_ofText outcome
  | error interrupt state =>
    cases interrupt with
    | breakLoop | stop => exact recorded_of_ofText outcome
    | returned value =>
      cases outcome
      rfl
    | raised | fault => cases outcome

/-- A template that gives a value gives all errors that it recorded. -/
theorem recorded_of_rendered {evaluator : Evaluator} {surroundings : Surroundings} {source : String}
    {context : Context} {rendered : Rendered}
    (outcome : (evaluator.evaluate surroundings source context).1 = .rendered rendered) :
    rendered.recorded = evaluator.recorded surroundings source context := by
  rw [evaluate] at outcome
  rw [recorded]
  split at outcome
  · rename_i nodes after compiled
    rw [compiled]
    exact recorded_of_ofRun outcome
  · cases outcome

end Template.Evaluator

/-- What happens in a run of a program. -/
inductive Event where
  /-- A template was evaluated and recorded errors, whatever its outcome. -/
  | evaluated (source : String) (outcome : Template.Outcome) (recorded : List Template.Raised)
  | called (call : Call) (reply : Reply)
  | looked (stopped : Bool)

namespace Event

/-- Whether an event tells the program that it was cancelled. -/
def cancels : Event → Bool
  | .looked stopped => stopped
  | .called _ .cancelled => true
  | _ => false

/-- The errors that a template recorded. -/
def recorded : Event → List Template.Raised
  | .evaluated _ _ recorded => recorded
  | _ => []

/-- The errors that were recorded by a template that gave a value. -/
def kept : Event → List Template.Raised
  | .evaluated _ (.rendered _) recorded => recorded
  | _ => []

/-- The errors that were recorded by a template that gave none. -/
def dropped : Event → List Template.Raised
  | .evaluated _ (.raised _) recorded | .evaluated _ (.failed _) recorded => recorded
  | _ => []

end Event

namespace Program

variable {α β : Type}

/-- The runs of a program: templates are evaluated by any evaluator at any time, calls get any
replies, and the resolution is cancelled at any time. -/
inductive Runs : Program α → List Event → α → Prop where
  | done (result : α) : Runs (.done result) [] result
  | evaluate {source : String} {context : Context}
      {next : Template.Outcome → Context → Program α} {events : List Event} {result : α}
      (evaluator : Template.Evaluator) (surroundings : Template.Surroundings)
      (rest : Runs (next (evaluator.evaluate surroundings source context).1
        (evaluator.evaluate surroundings source context).2.1) events result) :
      Runs (.evaluate source context next)
        (.evaluated source (evaluator.evaluate surroundings source context).1
          (evaluator.recorded surroundings source context) :: events) result
  | call {call : Call} {next : Reply → Program α} {events : List Event} {result : α}
      (reply : Reply) (rest : Runs (next reply) events result) :
      Runs (.call call next) (.called call reply :: events) result
  | look {next : Bool → Program α} {events : List Event} {result : α} (stopped : Bool)
      (rest : Runs (next stopped) events result) :
      Runs (.isCancelled next) (.looked stopped :: events) result

/-- The runs of a program whose result is changed. -/
theorem runs_map {change : α → β} {program : Program α} {events : List Event} {result : β}
    (run : Runs (program.map change) events result) :
    ∃ before, program.Runs events before ∧ change before = result := by
  induction program generalizing events with
  | done value =>
    cases run
    exact ⟨value, .done value, rfl⟩
  | evaluate source context next ih =>
    obtain _ | ⟨evaluator, surroundings, rest⟩ := run
    obtain ⟨before, below, same⟩ := ih _ _ rest
    exact ⟨before, .evaluate evaluator surroundings below, same⟩
  | call call next ih =>
    obtain _ | _ | ⟨reply, rest⟩ := run
    obtain ⟨before, below, same⟩ := ih _ rest
    exact ⟨before, .call reply below, same⟩
  | isCancelled next ih =>
    obtain _ | _ | _ | ⟨stopped, rest⟩ := run
    obtain ⟨before, below, same⟩ := ih _ rest
    exact ⟨before, .look stopped below, same⟩

/-- A run of a program is one of the program whose result is changed. -/
theorem Runs.map (change : α → β) {program : Program α} {events : List Event} {result : α}
    (run : program.Runs events result) : (program.map change).Runs events (change result) := by
  induction run with
  | done result => exact .done _
  | evaluate evaluator surroundings _ ih => exact .evaluate evaluator surroundings ih
  | call reply _ ih => exact .call reply ih
  | look stopped _ ih => exact .look stopped ih

/-- Whether every run of what is left of a program is the end of a run of the program. -/
def Leads (program rest : Program α) : Prop :=
  ∀ events result, rest.Runs events result →
    ∃ earlier, program.Runs (earlier ++ events) result

theorem Leads.refl (program : Program α) : Leads program program :=
  fun _ _ run => ⟨[], run⟩

/-- A step of what is left. -/
theorem Leads.step {program rest next : Program α} (leads : Leads program rest) (event : Event)
    (goes : ∀ events result, next.Runs events result → rest.Runs (event :: events) result) :
    Leads program next := by
  intro events result run
  obtain ⟨earlier, all⟩ := leads _ _ (goes events result run)
  refine ⟨earlier ++ [event], ?_⟩
  rwa [List.append_assoc]

end Program

/-! ### Results in time -/

namespace Timeline

section

variable {α : Type} {dispatcher : Dispatcher} {surroundings : Template.Surroundings}
  {started : List (Nat × Program α)} {timeline : Timeline α}

/-- Whether all results come from runs of the programs that were started, and all that wait are on
their way in such a run. -/
structure Explained (started : List (Nat × Program α)) (timeline : Timeline α) : Prop where
  results : ∀ entry ∈ timeline.results, ∃ program events,
    (entry.1, program) ∈ started ∧ program.Runs events entry.2
  waiting : ∀ waiting ∈ timeline.waiting, ∃ program, (waiting.task, program) ∈ started ∧
    ∀ reply, program.Leads (waiting.next reply)

theorem explained_empty : Explained started ({} : Timeline α) where
  results := fun _ member => absurd member List.not_mem_nil
  waiting := fun _ member => absurd member List.not_mem_nil

theorem Explained.more {others : List (Nat × Program α)} (explained : Explained started timeline)
    (more : ∀ entry ∈ started, entry ∈ others) : Explained others timeline where
  results := by
    intro entry member
    obtain ⟨program, events, known, run⟩ := explained.results entry member
    exact ⟨program, events, more _ known, run⟩
  waiting := by
    intro waiting member
    obtain ⟨program, known, leads⟩ := explained.waiting waiting member
    exact ⟨program, more _ known, leads⟩

/-- Nothing but the results and what waits matters. -/
theorem Explained.of_eq {after : Timeline α} (explained : Explained started timeline)
    (results : after.results = timeline.results) (waiting : after.waiting = timeline.waiting) :
    Explained started after where
  results := results ▸ explained.results
  waiting := waiting ▸ explained.waiting

/-- A program that waits is on its way. -/
theorem Explained.wait (explained : Explained started timeline) {task : Nat} {program : Program α}
    (known : (task, program) ∈ started) (cancelAt : Option Nat) {next : Reply → Program α}
    (leads : ∀ reply, program.Leads (next reply)) :
    Explained started (timeline.wait task cancelAt next) where
  results := explained.results
  waiting := by
    intro waiting member
    rcases List.mem_append.mp member with before | here
    · exact explained.waiting waiting before
    · rw [List.mem_singleton.mp here]
      exact ⟨program, known, leads⟩

theorem Explained.joinBatch (explained : Explained started timeline) {task : Nat}
    {program : Program α} (known : (task, program) ∈ started) (cancelAt : Option Nat)
    (key : BatchKey) (request : Json) {next : Reply → Program α}
    (leads : ∀ reply, program.Leads (next reply)) :
    Explained started (timeline.joinBatch dispatcher task cancelAt key request next) := by
  have waits := explained.wait known cancelAt leads
  unfold Timeline.joinBatch
  simp only
  split <;> split <;> exact waits.of_eq rfl rfl

/-- What is left of a program runs until it ends or waits. -/
theorem start_explained {task : Nat} {program : Program α} (known : (task, program) ∈ started)
    (cancelAt : Option Nat) {rest : Program α} (leads : program.Leads rest)
    (explained : Explained started timeline) :
    Explained started (start dispatcher surroundings task cancelAt rest timeline) := by
  induction rest generalizing timeline with
  | done result =>
    refine ⟨fun entry member => ?_, explained.waiting⟩
    rcases List.mem_append.mp member with before | here
    · exact explained.results entry before
    · rw [List.mem_singleton.mp here]
      obtain ⟨earlier, run⟩ := leads [] result (.done result)
      exact ⟨program, _, known, run⟩
  | isCancelled next ih =>
    exact ih _ (leads.step (.looked _) fun _ _ run => .look _ run) explained
  | evaluate source context next ih =>
    exact ih _ _ (leads.step _ fun _ _ run => .evaluate timeline.evaluator surroundings run)
      (explained.of_eq rfl rfl)
  | call call next ih =>
    have replied : ∀ reply, program.Leads (next reply) := fun reply =>
      leads.step (.called call reply) fun _ _ run => .call reply run
    rw [Timeline.start]
    split
    · split
      · exact ih _ (replied _) explained
      · exact explained.joinBatch known cancelAt _ _ replied
    · simp only
      have served : Explained started
          { timeline with
            services := (dispatcher.invoke call.source call.request (timeline.untilTime cancelAt)
              timeline.services).2 } := explained.of_eq rfl rfl
      split
      · exact ih _ (replied _) served
      · exact (served.wait known cancelAt replied).of_eq rfl rfl

theorem Explained.deliver (explained : Explained started timeline) (ticket : Nat) (reply : Reply) :
    Explained started (timeline.deliver dispatcher surroundings ticket reply) := by
  unfold Timeline.deliver
  split
  · exact explained
  · rename_i waiting found
    obtain ⟨program, known, leads⟩ := explained.waiting waiting (List.mem_of_find?_eq_some found)
    refine start_explained known _ (leads reply) ⟨explained.results, ?_⟩
    exact fun other member => explained.waiting other (List.mem_filter.mp member).1

theorem Explained.shareOut (explained : Explained started timeline) (key : BatchKey)
    (tickets : List Nat) (reply : Reply) :
    Explained started (timeline.shareOut dispatcher surroundings key tickets reply) := by
  unfold Timeline.shareOut
  generalize tickets.zip (Batch.shares key.source tickets.length reply) = shares
  induction shares generalizing timeline with
  | nil => exact explained
  | cons share rest ih => exact ih (explained.deliver share.1 share.2)

theorem Explained.closeBatch (explained : Explained started timeline) (key : BatchKey) :
    Explained started (timeline.closeBatch dispatcher surroundings key) := by
  unfold Timeline.closeBatch
  split
  · exact explained
  · simp only
    split
    · have closed : Explained started
          { timeline with
            services := (dispatcher.invoke key.source (Batch.request (timeline.batches.members key))
              none timeline.services).2
            batches := timeline.batches.close key } := explained.of_eq rfl rfl
      exact closed.shareOut _ _ _
    · exact explained.of_eq rfl rfl

/-- An entry of the agenda. -/
theorem Explained.step {after : Timeline α} (explained : Explained started timeline)
    (step : timeline.step? dispatcher surroundings = some after) : Explained started after := by
  rw [Timeline.step?] at step
  split at step
  · cases step
  · rename_i time occasion agenda _
    cases step
    have taken : Explained started { timeline with clock := time, agenda } :=
      explained.of_eq rfl rfl
    cases occasion with
    | reply ticket content => exact taken.deliver ticket content
    | close key => exact taken.closeBatch key
    | share key tickets content => exact taken.shareOut key tickets content

theorem Explained.advance (explained : Explained started timeline) (finished : Timeline α → Bool)
    (budget : Nat) :
    Explained started (timeline.advance dispatcher surroundings finished budget) := by
  induction budget generalizing timeline with
  | zero => exact explained
  | succ budget ih =>
    rw [Timeline.advance]
    split
    · exact explained
    · split
      · exact explained
      · rename_i after step
        exact ih (explained.step step)

/-- One more program runs to its end. -/
theorem Explained.finish (explained : Explained started timeline) (task calls : Nat)
    (cancelAfter : Option Nat) (program : Program α) :
    Explained ((task, program) :: started)
      (timeline.finish dispatcher surroundings task calls cancelAfter program) := by
  have more : Explained ((task, program) :: started) timeline :=
    explained.more fun entry member => List.mem_cons_of_mem _ member
  exact (start_explained List.mem_cons_self _ (.refl _) more).advance _ _

/-- Programs are started one after another. -/
theorem Explained.startAll (programs : List (Nat × Option Nat × Program α))
    (explained : Explained started timeline)
    (known : ∀ entry ∈ programs, (entry.1, entry.2.2) ∈ started) :
    Explained started (startAll dispatcher surroundings programs timeline) := by
  induction programs generalizing timeline with
  | nil => exact explained
  | cons program rest ih =>
    exact ih (start_explained (known _ List.mem_cons_self) _ (.refl _) explained)
      fun entry member => known entry (List.mem_cons_of_mem _ member)

end

end Timeline

namespace Session

variable {session : Session}

/-- Whether the results of a session come from runs of the programs that it has started. -/
def Explained (session : Session) : Prop :=
  ∃ started, session.timeline.Explained started ∧ ∀ entry ∈ started, entry.1 < session.fields

theorem explained_new (dispatcher : Dispatcher) (surroundings : Template.Surroundings) :
    Explained { dispatcher, surroundings } :=
  ⟨[], Timeline.explained_empty, fun _ member => absurd member List.not_mem_nil⟩

theorem Explained.resolveField (explained : session.Explained) (resolver : Resolver)
    (request : FieldRequest) (cancelAfter : Option Nat) :
    (session.resolveField resolver request cancelAfter).2.Explained := by
  obtain ⟨started, all, numbered⟩ := explained
  refine ⟨_, all.finish _ _ _ _, List.forall_mem_cons.mpr ⟨Nat.lt_succ_self _, ?_⟩⟩
  exact fun entry member => Nat.lt_succ_of_lt (numbered entry member)

theorem Explained.resolveFields (explained : session.Explained)
    (fields : List (Resolver × FieldRequest)) (cancelAfter : Option Nat) :
    (session.resolveFields fields cancelAfter).2.Explained := by
  unfold Session.resolveFields
  split
  · exact explained
  · obtain ⟨started, all, numbered⟩ := explained
    have more : Timeline.Explained
        ((fields.zipIdx session.fields).map
          (fun entry => (entry.2, entry.1.1.program entry.1.2)) ++ started)
        session.timeline := all.more fun entry member => List.mem_append_right _ member
    refine ⟨_, (more.startAll _ fun entry member => ?_).advance _ _, fun entry member => ?_⟩
    · obtain ⟨numbered, isNumbered, rfl⟩ := List.mem_map.mp member
      exact List.mem_append_left _ (List.mem_map.mpr ⟨numbered, isNumbered, rfl⟩)
    · rcases List.mem_append.mp member with here | before
      · obtain ⟨⟨field, task⟩, isNumbered, rfl⟩ := List.mem_map.mp here
        have bounds := List.mem_zipIdx isNumbered
        show task < session.fields + fields.length
        omega
      · exact Nat.lt_of_lt_of_le (numbered entry before) (Nat.le_add_right _ _)

/-- **What a session answers for a field** comes from a run of the field's program. -/
theorem Explained.resolveField_run (explained : session.Explained) {resolver : Resolver}
    {request : FieldRequest} {cancelAfter : Option Nat} {result : FieldResult}
    (done : (session.resolveField resolver request cancelAfter).1 = .ok result) :
    ∃ events, (resolver.program request).Runs events (some result) := by
  obtain ⟨started, all, numbered⟩ := explained
  have finished : Timeline.Explained ((session.fields, resolver.program request) :: started)
      (session.resolveField resolver request cancelAfter).2.timeline := all.finish _ _ _ _
  have found : (session.resolveField resolver request cancelAfter).2.timeline.result?
      session.fields = some (some result) := by
    rw [Session.resolveField, Session.resultOf] at done
    simp only at done
    split at done
    · rename_i known
      cases done
      exact known
    · cases done
  obtain ⟨before, after, parts, _⟩ := List.lookup_eq_some_iff.mp found
  obtain ⟨program, events, known, run⟩ := finished.results (session.fields, some result)
    (by rw [parts]; exact List.mem_append_right _ List.mem_cons_self)
  rcases List.mem_cons.mp known with same | earlier
  · rw [Prod.mk.injEq] at same
    exact ⟨events, same.2 ▸ run⟩
  · exact absurd (numbered _ earlier) (Nat.lt_irrefl _)

end Session

end FieldResolver

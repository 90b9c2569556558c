/-
**The errors of a field.**

The errors of a field are the ones that its templates recorded, in the order in which they recorded
them, and behind them the one that ended the resolution. But a template that raises an error or
fails takes the errors with it that it has recorded itself.

* `Accounts`: what a part of a program does with recorded errors, with a lemma for each part;
* `resolution_accounts`: the whole resolution keeps the errors of templates that gave a value;
* `errors_of_run`: the errors of a field, and when they are all that were recorded.
-/

import FieldResolver.Proofs.Resolution.Runs

namespace FieldResolver

open Program

/-! ### What was kept and what was dropped -/

namespace Event

/-- A template keeps all errors that it recorded or none. -/
theorem kept_or_dropped (event : Event) :
    event.kept = event.recorded ∧ event.dropped = [] ∨
      event.kept = [] ∧ event.dropped = event.recorded := by
  cases event with
  | evaluated _ outcome _ =>
    cases outcome with
    | rendered => exact .inl ⟨rfl, rfl⟩
    | raised | failed => exact .inr ⟨rfl, rfl⟩
  | called | looked => exact .inl ⟨rfl, rfl⟩

/-- Where nothing was dropped, everything was kept. -/
theorem kept_eq_recorded {events : List Event} (none : ∀ event ∈ events, event.dropped = []) :
    events.flatMap kept = events.flatMap recorded := by
  refine List.flatMap_congr fun event member => ?_
  rcases kept_or_dropped event with ⟨same, _⟩ | ⟨lost, all⟩
  · exact same
  · rw [lost, ← all, none event member]

theorem length_recorded (events : List Event) :
    (events.flatMap recorded).length =
      (events.flatMap kept).length + (events.flatMap dropped).length := by
  induction events with
  | nil => rfl
  | cons event rest ih =>
    rw [List.flatMap_cons, List.flatMap_cons, List.flatMap_cons, List.length_append,
      List.length_append, List.length_append, ih]
    rcases kept_or_dropped event with ⟨all, none⟩ | ⟨none, all⟩
    · rw [all, none, List.length_nil]
      omega
    · rw [all, none, List.length_nil]
      omega

end Event

/-- The errors that an end of a resolution reports as recorded. -/
def Ending.recorded? : Ending → Option (List Template.Raised)
  | .completed _ recorded | .aborted _ recorded _ => some recorded
  | .cancelled => none

/-- The error that ended a resolution. -/
def Ending.error? : Ending → Option StageError
  | .aborted _ _ error => some error
  | _ => none

/-- Whether the ends of a program, which starts with recorded errors, report these and those that it
keeps on the way. -/
def Accounts (start : List Template.Raised) (program : Program Ending) : Prop :=
  ∀ events ending, program.Runs events ending →
    ending.recorded? =
      if events.any Event.cancels then none else some (start ++ events.flatMap Event.kept)

/-- The errors that an outcome keeps. -/
def Template.Outcome.kept : Template.Outcome → List Template.Raised
  | .rendered result => result.recorded
  | _ => []

/-! ### The parts of programs -/

theorem accounts_done {start : List Template.Raised} {ending : Ending}
    (reports : ending.recorded? = some start) : Accounts start (.done ending) := by
  intro events result run
  cases run
  rw [reports]
  exact congrArg some (List.append_nil start).symm

/-- What an evaluation keeps is there from then on. -/
theorem accounts_evaluate {start : List Template.Raised} {source : String} {context : Context}
    {next : Template.Outcome → Context → Program Ending}
    (goes : ∀ outcome context, Accounts (start ++ outcome.kept) (next outcome context)) :
    Accounts start (.evaluate source context next) := by
  intro events ending run
  obtain _ | ⟨evaluator, surroundings, rest⟩ := run
  have below := goes _ _ _ _ rest
  have keeps : ∀ outcome, (evaluator.evaluate surroundings source context).1 = outcome →
      outcome.kept = Event.kept (.evaluated source outcome
        (evaluator.recorded surroundings source context)) := by
    intro outcome same
    cases outcome with
    | rendered rendered => exact Template.Evaluator.recorded_of_rendered same
    | raised | failed => rfl
  rw [below, List.flatMap_cons, ← keeps _ rfl, List.append_assoc]
  rfl

/-- A call keeps nothing; a program that is told in the reply that it was cancelled has to end. -/
theorem accounts_call {start : List Template.Raised} {call : Call}
    {next : Reply → Program Ending}
    (goes : ∀ reply, reply ≠ .cancelled → Accounts start (next reply))
    (stops : next .cancelled = .done .cancelled) : Accounts start (.call call next) := by
  intro events ending run
  obtain _ | _ | ⟨reply, rest⟩ := run
  cases reply with
  | value content =>
    have below := goes (.value content) (by simp) _ _ rest
    exact below
  | failure cause =>
    have below := goes (.failure cause) (by simp) _ _ rest
    exact below
  | cancelled =>
    rw [stops] at rest
    cases rest
    rfl

/-- Looking keeps nothing either. -/
theorem accounts_look {start : List Template.Raised} {next : Bool → Program Ending}
    (goes : Accounts start (next false)) (stops : next true = .done .cancelled) :
    Accounts start (.isCancelled next) := by
  intro events ending run
  obtain _ | _ | _ | ⟨stopped, rest⟩ := run
  cases stopped with
  | false =>
    have below := goes _ _ rest
    exact below
  | true =>
    rw [stops] at rest
    cases rest
    rfl

/-! ### The parts of a resolution -/

section

variable {next : Progress → Program Ending}

/-- A template that gives no value keeps no error when it ends the resolution. -/
theorem accounts_abort (progress : Progress) (context : Context) (stage : String)
    (cause : StageError) :
    Accounts (progress.recorded ++ []) (.done ((progress.withContext context).abort stage cause)) :=
  accounts_done (congrArg some (List.append_nil _).symm)

/-- The response of a stage, with or without a template and an error. -/
theorem Stage.respond_accounts (progress : Progress)
    (goes : ∀ progress, Accounts progress.recorded (next progress)) (stage : Stage)
    (called : Stage.Called) :
    Accounts progress.recorded (stage.respond progress called next) := by
  unfold Stage.respond
  -- The error of the call is only put into the context.
  extract_lets marked
  have same : marked.recorded = progress.recorded := by cases called <;> rfl
  rw [← same]
  clear_value marked
  cases stage.response with
  | none =>
    cases called with
    | none => exact goes _
    | some error => exact accounts_done rfl
  | some source =>
    refine accounts_evaluate fun outcome context => ?_
    cases outcome with
    | rendered rendered => exact goes ((marked.after context rendered).completeStage rendered.value)
    | raised | failed => exact accounts_abort marked _ _ _

/-- The call of a stage, whatever the reply. -/
theorem Stage.send_accounts (progress : Progress)
    (goes : ∀ progress, Accounts progress.recorded (next progress)) (stage : Stage)
    (request : Json) :
    Accounts progress.recorded (stage.send progress request next) := by
  refine accounts_call (fun reply replied => ?_) rfl
  cases reply with
  | value content =>
    exact respond_accounts
      (progress.withContext { progress.context with result := content }) goes stage _
  | failure cause =>
    exact respond_accounts
      (progress.withContext { progress.context with result := .null }) goes stage _
  | cancelled => exact absurd rfl replied

/-- A whole stage. -/
theorem Stage.run_accounts (progress : Progress)
    (goes : ∀ progress, Accounts progress.recorded (next progress)) (stage : Stage) :
    Accounts progress.recorded (stage.run progress next) := by
  have started : (progress.withContext progress.context.beginStage).recorded = progress.recorded :=
    rfl
  rw [← started]
  unfold Stage.run
  generalize progress.withContext progress.context.beginStage = progress
  cases stage.request with
  | none => exact send_accounts progress goes stage _
  | some source =>
    refine accounts_evaluate fun outcome context => ?_
    have handled : ∀ error, Accounts (progress.recorded ++ [])
        (stage.respond (progress.withContext context) (some error) next) := by
      intro error
      rw [List.append_nil]
      exact respond_accounts (progress.withContext context) goes stage _
    cases outcome with
    | rendered rendered =>
      simp only
      split
      · exact goes ((progress.after context rendered).completeStage rendered.value)
      · exact send_accounts (progress.after context rendered) goes stage _
    | raised error => exact handled (.raised error)
    | failed failure =>
      cases failure with
      | malformed => exact accounts_abort progress _ _ _
      | runtime message => exact handled (.template (.runtime message))

/-- Stages in order. -/
theorem Stage.runAll_accounts (progress : Progress)
    (goes : ∀ progress, Accounts progress.recorded (next progress)) (stages : List Stage) :
    Accounts progress.recorded (runAll progress next stages) := by
  induction stages generalizing progress with
  | nil => exact goes progress
  | cons stage rest ih => exact accounts_look (run_accounts progress ih stage) rfl

theorem Resolver.runBefore_accounts (progress : Progress)
    (goes : ∀ progress, Accounts progress.recorded (next progress)) (source : Option String) :
    Accounts progress.recorded (runBefore source progress next) := by
  cases source with
  | none => exact goes progress
  | some source =>
    refine accounts_evaluate fun outcome context => ?_
    cases outcome with
    | rendered rendered =>
      simp only
      split
      · exact accounts_done rfl
      · exact goes ((progress.after context rendered).completeStage rendered.value)
    | raised | failed => exact accounts_abort progress _ _ _

theorem Resolver.runAfter_accounts (source : Option String) (progress : Progress) :
    Accounts progress.recorded (runAfter source progress) := by
  cases source with
  | none => exact accounts_done rfl
  | some source =>
    refine accounts_evaluate fun outcome context => ?_
    cases outcome with
    | rendered rendered => exact accounts_done rfl
    | raised | failed => exact accounts_abort progress _ _ _

/-- **A resolution keeps the errors of all templates that gave a value.** -/
theorem Resolver.resolution_accounts (resolver : Resolver) (context : Context) :
    Accounts [] (resolver.resolution context) :=
  runBefore_accounts { context }
    (fun progress => Stage.runAll_accounts progress (runAfter_accounts resolver.plan.after?)
      resolver.plan.stages) resolver.plan.before?

end

/-! ### The errors of a field -/

/-- The errors of a result are those that its end reports as recorded, and the one that ended it. -/
theorem errors_of_ending (path : List PathStep) {ending : Ending}
    {recorded : List Template.Raised} (reported : ending.recorded? = some recorded) :
    ∃ field, FieldResult.ofEnding? path ending = some field ∧
      field.errors = recorded.map (FieldError.ofRaised path) ++
        (ending.error?.map (FieldError.ofStageError path)).toList := by
  cases ending with
  | completed value kept =>
    cases reported
    exact ⟨_, rfl, (List.append_nil _).symm⟩
  | aborted data kept error =>
    cases reported
    exact ⟨_, rfl, rfl⟩
  | cancelled => cases reported

/-- **The errors of a field** whose resolution was not cancelled are those that were recorded by
templates that gave a value, in order, and behind them the one that ended the resolution, if one
did. They are all recorded errors exactly if no template recorded errors and then raised one or
failed. -/
theorem errors_of_run {resolver : Resolver} {request : FieldRequest} {events : List Event}
    {result : Option FieldResult} (run : (resolver.program request).Runs events result)
    (uncancelled : ∀ event ∈ events, event.cancels = false) :
    ∃ field ending,
      result = some field ∧
      (resolver.resolution (.ofRequest (resolver.named request))).Runs events ending ∧
      let path := (resolver.named request).info.responsePath
      let last := (ending.error?.map (FieldError.ofStageError path)).toList
      FieldResult.ofEnding? path ending = some field ∧
        field.errors = (events.flatMap Event.kept).map (FieldError.ofRaised path) ++ last ∧
        (field.errors = (events.flatMap Event.recorded).map (FieldError.ofRaised path) ++ last ↔
          ∀ event ∈ events, event.dropped = []) := by
  obtain ⟨ending, below, rfl⟩ := runs_map run
  have live : events.any Event.cancels = false := by
    rw [List.any_eq_false]
    exact fun event member => by rw [uncancelled event member]; exact Bool.false_ne_true
  have accounts := resolver.resolution_accounts _ events ending below
  rw [live, if_neg Bool.false_ne_true, List.nil_append] at accounts
  obtain ⟨field, same, errors⟩ :=
    errors_of_ending (resolver.named request).info.responsePath accounts
  refine ⟨field, ending, same, below, same, errors, fun all => ?_, fun none => ?_⟩
  · have lengths := congrArg List.length (List.append_cancel_right (errors.symm.trans all))
    rw [List.length_map, List.length_map, Event.length_recorded] at lengths
    exact List.flatMap_eq_nil_iff.mp (List.length_eq_zero_iff.mp (by omega))
  · rw [errors, Event.kept_eq_recorded none]

/-! ### A template that records an error and raises another -/

/-- An evaluation leaves the result alone. -/
theorem Template.Evaluator.result_evaluate (evaluator : Evaluator) (surroundings : Surroundings)
    (source : String) (context : Context) :
    (evaluator.evaluate surroundings source context).2.1.result = context.result := by
  rw [evaluate]
  split <;> rfl

/-- A request template that raises an error ends the resolution if no response template handles
it. -/
theorem Stage.run_raised {stage : Stage} {source : String} (request : stage.request = some source)
    (response : stage.response = none) {progress : Progress} {next : Progress → Program Ending}
    {evaluator : Template.Evaluator} {surroundings : Template.Surroundings}
    {error : Template.Raised}
    (raised : (evaluator.evaluate surroundings source progress.context.beginStage).1 =
      .raised error) :
    (stage.run progress next).Runs
      [.evaluated source (.raised error)
        (evaluator.recorded surroundings source progress.context.beginStage)]
      (.aborted .null progress.recorded (.aborted stage.name (.raised error))) := by
  have begun : (evaluator.evaluate surroundings source
      (progress.withContext progress.context.beginStage).context).1 = .raised error := raised
  have same : Event.evaluated source (.raised error)
        (evaluator.recorded surroundings source progress.context.beginStage) =
      .evaluated source (evaluator.evaluate surroundings source progress.context.beginStage).1
        (evaluator.recorded surroundings source progress.context.beginStage) := by rw [raised]
  have result : Json.null =
      (evaluator.evaluate surroundings source progress.context.beginStage).2.1.result :=
    (evaluator.result_evaluate surroundings source progress.context.beginStage).symm
  unfold Stage.run
  rw [request, same, result]
  refine .evaluate evaluator surroundings ?_
  rw [begun]
  unfold Stage.respond
  rw [response]
  exact .done _

namespace Dropping

/-- A template that records an error and raises another. -/
def source : String := "$util.appendError(\"recorded\")$util.error(\"raised\")"

/-- A stage whose only template it is. -/
def stage : Stage where
  name := "item"
  dataSource := "local"
  request := some source

/-- The resolver of the stage. -/
def resolver : Resolver where
  typeName := "Query"
  field := "item"
  plan := .unit stage

/-- Where the resolution of an empty request starts. -/
def progress : Progress where
  context := .ofRequest (resolver.named {})

/-- Some surroundings. -/
def surroundings : Template.Surroundings where
  now := 0
  identifier := fun _ => ""

/-- The errors that the template records. -/
def recorded : List Template.Raised :=
  Template.Evaluator.recorded {} surroundings source progress.context.beginStage

theorem records : recorded.map Template.Raised.message = ["recorded"] := by decide +kernel

theorem raises : ∃ error,
    (Template.Evaluator.evaluate {} surroundings source progress.context.beginStage).1 =
      .raised error ∧ error.message = "raised" := by
  have outcome : (match
        (Template.Evaluator.evaluate {} surroundings source progress.context.beginStage).1 with
      | .raised error => decide (error.message = "raised")
      | _ => false) = true := by decide +kernel
  split at outcome
  · rename_i error raised
    exact ⟨error, raised, of_decide_eq_true outcome⟩
  · cases outcome

/-- Where the field stands in the response. -/
def path : List PathStep := (resolver.named {}).info.responsePath

/-- The template is evaluated, and its error ends the resolution. -/
theorem exists_run : ∃ error, error.message = "raised" ∧
    (resolver.program {}).Runs [.looked false, .evaluated source (.raised error) recorded]
      (FieldResult.ofEnding? path (.aborted .null [] (.aborted "item" (.raised error)))) := by
  obtain ⟨error, raised, message⟩ := raises
  have run : (stage.run progress fun progress =>
      Stage.runAll progress (Resolver.runAfter none) []).Runs
        [.evaluated source (.raised error) recorded]
        (.aborted .null [] (.aborted "item" (.raised error))) :=
    Stage.run_raised rfl rfl raised
  have looked : (resolver.resolution progress.context).Runs
      [.looked false, .evaluated source (.raised error) recorded]
      (.aborted .null [] (.aborted "item" (.raised error))) := .look false run
  exact ⟨error, message, looked.map (FieldResult.ofEnding? path)⟩

/-- **The recorded error is not among the errors of the field.** -/
theorem recorded_error_lost : ∃ events field,
    (resolver.program {}).Runs events (some field) ∧
      (∀ event ∈ events, event.cancels = false) ∧
      (events.flatMap Event.recorded).map Template.Raised.message = ["recorded"] ∧
      field.errors.map FieldError.message = ["raised"] := by
  obtain ⟨error, message, run⟩ := exists_run
  refine ⟨_, _, run, by simp [Event.cancels], ?_, ?_⟩
  · simp [Event.recorded, records]
  · simp [FieldError.ofStageError, FieldError.ofRaised, StageError.rootCause, message]

/-- The errors of the field are those that the template kept, none, and its own behind them, which
are not all that were recorded. -/
theorem errors_incomplete : ∃ error field ending,
    (resolver.program {}).Runs [.looked false, .evaluated source (.raised error) recorded]
        (some field) ∧
      (resolver.resolution progress.context).Runs
        [.looked false, .evaluated source (.raised error) recorded] ending ∧
      let last := (ending.error?.map (FieldError.ofStageError path)).toList
      field.errors = last ∧ field.errors ≠ recorded.map (FieldError.ofRaised path) ++ last := by
  obtain ⟨error, _, run⟩ := exists_run
  have some := records
  generalize recorded = recorded at run some ⊢
  obtain ⟨field, ending, same, below, _, errors, complete⟩ :=
    errors_of_run run (by simp [Event.cancels])
  have single : [Event.looked false, .evaluated source (.raised error) recorded].flatMap
      Event.recorded = recorded := by simp [Event.recorded]
  rw [same] at run
  rw [single] at complete
  refine ⟨error, field, ending, run, below, errors, fun all => ?_⟩
  have none : recorded = [] :=
    complete.mp all (.evaluated source (.raised error) recorded) (by simp)
  rw [none] at some
  cases some

end Dropping

end FieldResolver
